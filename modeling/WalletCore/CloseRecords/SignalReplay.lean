import WalletCore.CloseRecords.MergeAlgebra
import WalletCore.CloseRecords.Store

/-! # Close signals delivered again

A crash in the middle of a drain has LDK deliver a prefix of the close signals and then all of them
again. The second time the funding entry that supplied outpoint and timelock may be gone; what it
supplied is in the record by then.
-/

namespace WalletCore.CloseRecords

open Lib

/-! ## Signals -/

/-- A close signal with the facts it carries on every delivery. -/
inductive CloseSignal where
  | channelClosed (channelId : String) (classification : ClosureClassification)
      (eventFundingTxo : Option CloseOutpoint) (lastLocalBalanceSats : Option UInt64)
  | commitmentBroadcast (channelId txid : String) (feeSats : UInt64)
  | sweepTx (txid : String) (channelIds : Finset String)

namespace CloseSignal

def Onchain : CloseSignal → Prop
  | channelClosed _ classification _ _ => classification.hasOnchainTx = true
  | _ => True

def concerns (channelId : String) : CloseSignal → Bool
  | channelClosed id _ _ _ => id = channelId
  | commitmentBroadcast id _ _ => id = channelId
  | sweepTx _ channelIds => channelId ∈ channelIds

def closes (channelId : String) : CloseSignal → Bool
  | channelClosed id _ _ _ => id = channelId
  | _ => false

/-- The record that a delivery merges into the channel's. -/
def facts (channelId : String) (mapEntry : Option FundingTxoEntry) (nowMs : UInt64) : CloseSignal → CloseRecord
  | channelClosed _ classification eventFundingTxo lastLocalBalanceSats =>
    channelClosedRecord mapEntry channelId classification eventFundingTxo lastLocalBalanceSats nowMs
  | commitmentBroadcast _ txid feeSats => { CloseRecord.skeleton channelId nowMs with
      closeType := .force
      txs := [{ txid := txid, role := .commitment, feeSats := some feeSats, confirmedAtHeight := none }] }
  | sweepTx txid _ => sweepRecord channelId txid nowMs

end CloseSignal

/-- A delivery at some time; a set is iterated in any order. -/
inductive Delivers : CloseSignal × UInt64 → StoreOp → Prop
  | channelClosed (channelId : String) (classification : ClosureClassification)
    (eventFundingTxo : Option CloseOutpoint) (lastLocalBalanceSats : Option UInt64) (nowMs : UInt64) :
    Delivers (.channelClosed channelId classification eventFundingTxo lastLocalBalanceSats, nowMs)
      (.channelClosed channelId classification eventFundingTxo lastLocalBalanceSats nowMs)
  | commitmentBroadcast (channelId txid : String) (feeSats nowMs : UInt64) :
    Delivers (.commitmentBroadcast channelId txid feeSats, nowMs) (.commitmentBroadcast channelId txid feeSats nowMs)
  | sweepTx (txid : String) (channelIds : List String) (hNodup : channelIds.Nodup) (nowMs : UInt64) :
    Delivers (.sweepTx txid channelIds.toFinset, nowMs) (.sweepTx txid channelIds nowMs)

/-! ## One channel -/

/-- What the store holds of one channel. -/
structure Slot where
  record : Option CloseRecord
  mapEntry : Option FundingTxoEntry

namespace Slot

def absorb (record : Option CloseRecord) (incoming : CloseRecord) : CloseRecord :=
  match record with
  | some existing => mergeCloseRecords existing incoming
  | none => incoming

def deliver (channelId : String) (slot : Slot) (delivery : CloseSignal × UInt64) : Slot where
  record :=
    if delivery.1.concerns channelId then
      some (absorb slot.record (delivery.1.facts channelId slot.mapEntry delivery.2))
    else slot.record
  mapEntry := if delivery.1.closes channelId then none else slot.mapEntry

end Slot

def CloseRecordStore.slot (store : CloseRecordStore) (channelId : String) : Slot where
  record := store.get channelId
  mapEntry := store.fundingTxos.lookup channelId

theorem slot_upsert (store : CloseRecordStore) (incoming : CloseRecord) (channelId : String) :
    (store.upsert incoming).slot channelId =
      { store.slot channelId with
        record :=
          if channelId = incoming.channelId then some (Slot.absorb (store.get channelId) incoming)
          else store.get channelId } := by
  rw [CloseRecordStore.slot, get_upsert]
  congr 1
  split
  · next h =>
    rw [h]
    rfl
  · rfl

theorem slot_removeFundingTxo (store : CloseRecordStore) (removed channelId : String) :
    (store.removeFundingTxo removed).slot channelId =
      { store.slot channelId with
        mapEntry := if channelId = removed then none else store.fundingTxos.lookup channelId } := by
  rw [CloseRecordStore.slot, get_removeFundingTxo]
  congr 1
  rw [CloseRecordStore.removeFundingTxo]
  split
  · next hNone =>
    split
    · next h => rw [h, hNone]
    · rfl
  · exact StringMap.lookup_erase_eq _ _ _

theorem slot_recordSweepTx (store : CloseRecordStore) (txid : String) {channelIds : List String}
    (hNodup : channelIds.Nodup) (nowMs : UInt64) (channelId : String) :
    (recordSweepTx store txid channelIds nowMs).slot channelId =
      { store.slot channelId with
        record :=
          if channelId ∈ channelIds then some (Slot.absorb (store.get channelId) (sweepRecord channelId txid nowMs))
          else store.get channelId } := by
  induction channelIds generalizing store with
  | nil => rfl
  | cons first rest ih =>
    rw [List.nodup_cons] at hNodup
    have hRest := ih (store.upsert (sweepRecord first txid nowMs)) hNodup.2
    have hFirst := slot_upsert store (sweepRecord first txid nowMs) channelId
    have hRecord : (store.upsert (sweepRecord first txid nowMs)).get channelId =
        if channelId = first then some (Slot.absorb (store.get channelId) (sweepRecord first txid nowMs))
        else store.get channelId := congrArg Slot.record hFirst
    rw [recordSweepTx, List.foldl_cons, ← recordSweepTx, hRest, hFirst, hRecord]
    by_cases h : channelId = first
    · subst h
      rw [if_neg hNodup.1, if_pos rfl, if_pos List.mem_cons_self]
    · rw [if_neg h]
      simp only [List.mem_cons, h, false_or]

/-- A delivery does to a channel what its slot says, and nothing to the others. -/
theorem slot_apply {delivery : CloseSignal × UInt64} {op : StoreOp} (hDelivers : Delivers delivery op)
    (hOnchain : delivery.1.Onchain) (store : CloseRecordStore) (channelId : String) :
    (op.apply store).slot channelId = (store.slot channelId).deliver channelId delivery := by
  cases hDelivers with
  | channelClosed id classification eventFundingTxo lastLocalBalanceSats nowMs =>
    have hTx : classification.hasOnchainTx = true := hOnchain
    rw [StoreOp.apply, onChannelClosed, if_neg (by simp [hTx]), slot_removeFundingTxo, slot_upsert, Slot.deliver]
    simp only [CloseSignal.concerns, CloseSignal.closes, CloseSignal.facts, decide_eq_true_eq]
    by_cases h : channelId = id
    · subst h
      simp only [channelClosedRecord, CloseRecord.skeleton, CloseRecordStore.slot, if_true]
    · simp only [channelClosedRecord, CloseRecord.skeleton, CloseRecordStore.slot, h, Ne.symm h, if_false]
      rfl
  | commitmentBroadcast id txid feeSats nowMs =>
    rw [StoreOp.apply, onCommitmentBroadcast, slot_upsert, Slot.deliver]
    simp only [CloseSignal.concerns, CloseSignal.closes, CloseSignal.facts, decide_eq_true_eq]
    by_cases h : channelId = id
    · subst h
      simp only [CloseRecord.skeleton, CloseRecordStore.slot, if_true, Bool.false_eq_true, if_false]
    · simp only [CloseRecord.skeleton, CloseRecordStore.slot, h, Ne.symm h, Bool.false_eq_true, if_false]
  | sweepTx txid channelIds hNodup nowMs =>
    rw [StoreOp.apply, slot_recordSweepTx store txid hNodup, Slot.deliver]
    simp only [CloseSignal.concerns, CloseSignal.closes, CloseSignal.facts, decide_eq_true_eq, List.mem_toFinset,
      CloseRecordStore.slot, Bool.false_eq_true, if_false]

theorem slot_applyOps {deliveries : List (CloseSignal × UInt64)} {ops : List StoreOp}
    (hDelivers : List.Forall₂ Delivers deliveries ops) (hOnchain : ∀ delivery ∈ deliveries, delivery.1.Onchain)
    (store : CloseRecordStore) (channelId : String) :
    (applyOps ops store).slot channelId = deliveries.foldl (Slot.deliver channelId) (store.slot channelId) := by
  induction hDelivers generalizing store with
  | nil => rfl
  | @cons delivery op deliveries ops hFirst _ ih =>
    rw [List.forall_mem_cons] at hOnchain
    rw [List.foldl_cons, ← slot_apply hFirst hOnchain.1 store channelId]
    exact ih hOnchain.2 (op.apply store)

/-! ## The second time -/

def CloseRecord.undated (record : CloseRecord) : CloseRecord := { record with createdAtMs := 0 }

def Slot.undated (slot : Slot) : Slot := { slot with record := slot.record.map CloseRecord.undated }

def Slot.run (channelId : String) (slot : Slot) (signals : List CloseSignal) : Slot :=
  signals.foldl (fun slot signal => slot.deliver channelId (signal, 0)) slot

/-- The dates of the deliveries only reach the dates of the records. -/
theorem undated_deliver (channelId : String) (slot : Slot) (delivery : CloseSignal × UInt64) :
    (slot.deliver channelId delivery).undated = slot.undated.deliver channelId (delivery.1, 0) := by
  obtain ⟨record, mapEntry⟩ := slot
  obtain ⟨signal, nowMs⟩ := delivery
  simp only [Slot.deliver, Slot.undated]
  congr 1
  split
  · cases record <;> cases signal <;> rfl
  · rfl

theorem undated_foldl (channelId : String) (slot : Slot) (deliveries : List (CloseSignal × UInt64)) :
    (deliveries.foldl (Slot.deliver channelId) slot).undated =
      slot.undated.run channelId (deliveries.map Prod.fst) := by
  induction deliveries generalizing slot with
  | nil => rfl
  | cons delivery rest ih =>
    rw [List.foldl_cons, ih, undated_deliver, List.map_cons]
    rfl

def contributions (channelId : String) (mapEntry : Option FundingTxoEntry) : List CloseSignal → List CloseRecord
  | [] => []
  | signal :: rest =>
    let others := contributions channelId (if signal.closes channelId then none else mapEntry) rest
    if signal.concerns channelId then signal.facts channelId mapEntry 0 :: others else others

theorem run_record (channelId : String) (slot : Slot) (signals : List CloseSignal) :
    (slot.run channelId signals).record =
      (contributions channelId slot.mapEntry signals).foldl
        (fun record incoming => some (Slot.absorb record incoming)) slot.record := by
  induction signals generalizing slot with
  | nil => rfl
  | cons signal rest ih =>
    have hRest := ih (slot.deliver channelId (signal, 0))
    rw [Slot.run, List.foldl_cons, ← Slot.run, hRest, contributions]
    simp only [Slot.deliver]
    split
    · rfl
    · rfl

theorem run_mapEntry (channelId : String) (slot : Slot) (signals : List CloseSignal) :
    (slot.run channelId signals).mapEntry =
      if signals.any (CloseSignal.closes channelId) then none else slot.mapEntry := by
  induction signals generalizing slot with
  | nil => rfl
  | cons signal rest ih =>
    have hRest := ih (slot.deliver channelId (signal, 0))
    rw [Slot.run, List.foldl_cons, ← Slot.run, hRest, List.any_cons, Slot.deliver]
    by_cases hFirst : signal.closes channelId = true
    · simp [hFirst]
    · simp [hFirst]

/-- The second record has what the first one has, but for an outpoint and a timelock it may lack. -/
inductive Supplied (record : CloseRecord) : CloseRecord → Prop
  | mk (fundingTxo : Option CloseOutpoint) (timelockBlocks : Option UInt32)
    (hFundingTxo : record.fundingTxo.or fundingTxo = record.fundingTxo)
    (hTimelock : record.timelockBlocks.or timelockBlocks = record.timelockBlocks) :
    Supplied record { record with fundingTxo := fundingTxo, timelockBlocks := timelockBlocks }

theorem or_or_of_absorbed {α : Type} {a a' b b' : Option α} (ha : a.or a' = a) (hb : b.or b' = b) :
    (a.or b).or (a'.or b') = a.or b := by
  cases a with
  | some value => rfl
  | none =>
    rw [Option.none_or] at ha
    rw [ha, Option.none_or, Option.none_or, hb]

theorem Supplied.merge {a a' b b' : CloseRecord} (ha : Supplied a a') (hb : Supplied b b') :
    Supplied (mergeCloseRecords a b) (mergeCloseRecords a' b') := by
  obtain ⟨txo, blocks, hTxo, hBlocks⟩ := ha
  obtain ⟨txo', blocks', hTxo', hBlocks'⟩ := hb
  exact .mk (txo.or txo') (blocks.or blocks') (or_or_of_absorbed hTxo hTxo')
    (or_or_of_absorbed hBlocks hBlocks')

theorem Supplied.absorbed {record bare : CloseRecord} (h : Supplied record bare) (hDistinct : DistinctTxids record.txs) :
    mergeCloseRecords record bare = record := by
  obtain ⟨txo, blocks, hTxo, hBlocks⟩ := h
  have hSelf := mergeCloseRecords_self hDistinct
  calc mergeCloseRecords record { record with fundingTxo := txo, timelockBlocks := blocks }
      = { mergeCloseRecords record record with
          fundingTxo := record.fundingTxo.or txo, timelockBlocks := record.timelockBlocks.or blocks } := rfl
    _ = record := by rw [hSelf, hTxo, hBlocks]

theorem facts_supplied (channelId : String) {mapEntry later : Option FundingTxoEntry}
    (h : later = none ∨ later = mapEntry) (nowMs : UInt64) (signal : CloseSignal) :
    Supplied (signal.facts channelId mapEntry nowMs) (signal.facts channelId later nowMs) := by
  cases signal with
  | channelClosed id classification eventFundingTxo lastLocalBalanceSats =>
    refine .mk (eventFundingTxo.or (later.map FundingTxoEntry.outpoint)) (later.bind FundingTxoEntry.timelockBlocks)
      ?_ ?_
    · refine or_or_of_absorbed Option.or_self ?_
      rcases h with rfl | rfl
      · exact Option.or_none
      · exact Option.or_self
    · rcases h with rfl | rfl
      · exact Option.or_none
      · exact Option.or_self
  | commitmentBroadcast id txid feeSats => exact .mk none none rfl rfl
  | sweepTx txid channelIds => exact .mk none none rfl rfl

theorem facts_distinct (channelId : String) (mapEntry : Option FundingTxoEntry) (nowMs : UInt64) (signal : CloseSignal) :
    DistinctTxids (signal.facts channelId mapEntry nowMs).txs := by
  cases signal with
  | channelClosed id classification eventFundingTxo lastLocalBalanceSats => exact List.nodup_nil
  | commitmentBroadcast id txid feeSats => exact List.nodup_singleton _
  | sweepTx txid channelIds => exact List.nodup_singleton _

theorem contributions_distinct (channelId : String) (mapEntry : Option FundingTxoEntry) (signals : List CloseSignal) :
    ∀ record ∈ contributions channelId mapEntry signals, DistinctTxids record.txs := by
  induction signals generalizing mapEntry with
  | nil => simp [contributions]
  | cons signal rest ih =>
    rw [contributions]
    split
    · exact List.forall_mem_cons.mpr ⟨facts_distinct channelId mapEntry 0 signal, ih _⟩
    · exact ih _

theorem contributions_supplied (channelId : String) {mapEntry later : Option FundingTxoEntry}
    (h : later = none ∨ later = mapEntry) (signals : List CloseSignal) :
    List.Forall₂ Supplied (contributions channelId mapEntry signals) (contributions channelId later signals) := by
  induction signals generalizing mapEntry later with
  | nil => exact .nil
  | cons signal rest ih =>
    have hRest : (if signal.closes channelId then none else later) = none ∨
        (if signal.closes channelId then none else later) = if signal.closes channelId then none else mapEntry := by
      split
      · exact .inl rfl
      · exact h
    rw [contributions, contributions]
    split
    · exact .cons (facts_supplied channelId h 0 signal) (ih hRest)
    · exact ih hRest

theorem foldl_absorb (record : Option CloseRecord) (first : CloseRecord) (rest : List CloseRecord)
    (hFirst : DistinctTxids first.txs) :
    (first :: rest).foldl (fun record incoming => some (Slot.absorb record incoming)) record =
      some (Slot.absorb record (rest.foldl mergeCloseRecords first)) := by
  induction rest generalizing first with
  | nil => rfl
  | cons second rest ih =>
    have hBoth : Slot.absorb (some (Slot.absorb record first)) second = Slot.absorb record (mergeCloseRecords first second) := by
      cases record with
      | none => rfl
      | some existing => exact mergeCloseRecords_assoc existing hFirst second
    have hRest := ih (mergeCloseRecords first second) (mergeTxs_distinct hFirst second.txs)
    rw [List.foldl_cons, ← hBoth] at hRest
    exact hRest

theorem foldl_distinct {first : CloseRecord} (hFirst : DistinctTxids first.txs) (rest : List CloseRecord) :
    DistinctTxids (rest.foldl mergeCloseRecords first).txs := by
  induction rest generalizing first with
  | nil => exact hFirst
  | cons second rest ih => exact ih (mergeTxs_distinct hFirst second.txs)

theorem foldl_supplied {first first' : CloseRecord} {rest rest' : List CloseRecord} (hFirst : Supplied first first')
    (hRest : List.Forall₂ Supplied rest rest') :
    Supplied (rest.foldl mergeCloseRecords first) (rest'.foldl mergeCloseRecords first') := by
  induction hRest generalizing first first' with
  | nil => exact hFirst
  | cons hSecond _ ih => exact ih (hFirst.merge hSecond)

/-- The second round of the same signals finds everything it has to say. -/
theorem run_again (channelId : String) (slot : Slot) (signals : List CloseSignal) :
    (slot.run channelId signals).run channelId signals = slot.run channelId signals := by
  have hEntry : ((slot.run channelId signals).run channelId signals).mapEntry = (slot.run channelId signals).mapEntry := by
    rw [run_mapEntry, run_mapEntry]
    split <;> rfl
  have hLater : (slot.run channelId signals).mapEntry = none ∨ (slot.run channelId signals).mapEntry = slot.mapEntry := by
    rw [run_mapEntry]
    split
    · exact .inl rfl
    · exact .inr rfl
  have hRecord : ((slot.run channelId signals).run channelId signals).record = (slot.run channelId signals).record := by
    have hSupplied := contributions_supplied channelId hLater signals
    have hDistinct := contributions_distinct channelId slot.mapEntry signals
    have hDistinct' := contributions_distinct channelId (slot.run channelId signals).mapEntry signals
    rw [run_record, run_record channelId slot]
    generalize contributions channelId (slot.run channelId signals).mapEntry signals = again at hSupplied hDistinct'
    generalize contributions channelId slot.mapEntry signals = once at hSupplied hDistinct
    cases hSupplied with
    | nil => rfl
    | @cons first first' rest rest' hFirst hRest =>
      rw [List.forall_mem_cons] at hDistinct hDistinct'
      have hOnce := foldl_distinct hDistinct.1 rest
      have hAbsorbed := (foldl_supplied hFirst hRest).absorbed hOnce
      rw [foldl_absorb _ _ _ hDistinct.1, foldl_absorb _ _ _ hDistinct'.1]
      cases slot.record with
      | none => exact congrArg some hAbsorbed
      | some existing =>
        simp only [Slot.absorb]
        rw [mergeCloseRecords_assoc existing hOnce, hAbsorbed]
  calc (slot.run channelId signals).run channelId signals
      = ⟨((slot.run channelId signals).run channelId signals).record,
          ((slot.run channelId signals).run channelId signals).mapEntry⟩ := rfl
    _ = slot.run channelId signals := by rw [hRecord, hEntry]

theorem run_prefix (channelId : String) (slot : Slot) {delivered signals : List CloseSignal}
    (hPrefix : delivered <+: signals) :
    slot.run channelId (delivered ++ signals) = slot.run channelId signals := by
  obtain ⟨rest, rfl⟩ := hPrefix
  have hAppend : ∀ first second, slot.run channelId (first ++ second) = (slot.run channelId first).run channelId second := by
    intro first second
    exact List.foldl_append
  rw [hAppend, hAppend, Slot.run, List.foldl_append, ← Slot.run, ← Slot.run, run_again]

/-! ## Dates -/

/-- The date of the record, then those of the deliveries that concern it. -/
def dates (channelId : String) (record : Option CloseRecord) (deliveries : List (CloseSignal × UInt64)) : List UInt64 :=
  (record.map CloseRecord.createdAtMs).toList ++
    (deliveries.filter fun delivery => delivery.1.concerns channelId).map Prod.snd

theorem facts_createdAtMs (channelId : String) (mapEntry : Option FundingTxoEntry) (nowMs : UInt64) (signal : CloseSignal) :
    (signal.facts channelId mapEntry nowMs).createdAtMs = nowMs := by
  cases signal <;> rfl

theorem foldl_createdAtMs (channelId : String) (slot : Slot) (deliveries : List (CloseSignal × UInt64)) :
    (deliveries.foldl (Slot.deliver channelId) slot).record.map CloseRecord.createdAtMs =
      (dates channelId slot.record deliveries).min? := by
  induction deliveries generalizing slot with
  | nil =>
    rw [dates, List.foldl_nil]
    cases slot.record <;> rfl
  | cons delivery rest ih =>
    rw [List.foldl_cons, ih, Slot.deliver, dates, dates, List.filter_cons]
    split
    · rw [List.map_cons]
      cases slot.record with
      | none => simp only [Slot.absorb, Option.map_some, facts_createdAtMs, Option.map_none, Option.toList_none,
          Option.toList_some, List.nil_append, List.singleton_append]
      | some existing =>
        simp only [Slot.absorb, Option.map_some, mergeCloseRecords, facts_createdAtMs, Option.toList_some,
          List.singleton_append]
        rfl
    · rfl

/-- Delivering a prefix and then everything leaves what delivering everything once leaves, whatever the
order in which a set is iterated; each record is dated by the earliest delivery that concerned it. -/
theorem redelivery_changes_nothing (store : CloseRecordStore) {delivered signals : List CloseSignal}
    (hPrefix : delivered <+: signals) (hOnchain : ∀ signal ∈ signals, signal.Onchain)
    {first again once : List (CloseSignal × UInt64)} (hFirst : first.map Prod.fst = delivered)
    (hAgain : again.map Prod.fst = signals) (hOnce : once.map Prod.fst = signals) {replayed drained : List StoreOp}
    (hReplayed : List.Forall₂ Delivers (first ++ again) replayed) (hDrained : List.Forall₂ Delivers once drained) :
    (applyOps replayed store).fundingTxos = (applyOps drained store).fundingTxos ∧
    ∀ channelId,
      ((applyOps replayed store).get channelId).map CloseRecord.undated =
        ((applyOps drained store).get channelId).map CloseRecord.undated ∧
      ((applyOps replayed store).get channelId).map CloseRecord.createdAtMs =
        (dates channelId (store.get channelId) (first ++ again)).min? := by
  have hAllOnce : ∀ delivery ∈ once, delivery.1.Onchain := by
    intro delivery hMem
    exact hOnchain _ (hOnce ▸ List.mem_map_of_mem hMem)
  have hAllReplayed : ∀ delivery ∈ first ++ again, delivery.1.Onchain := by
    intro delivery hMem
    rcases List.mem_append.mp hMem with hMem | hMem
    · exact hOnchain _ (hPrefix.subset (hFirst ▸ List.mem_map_of_mem hMem))
    · exact hOnchain _ (hAgain ▸ List.mem_map_of_mem hMem)
  have hReplay := slot_applyOps hReplayed hAllReplayed store
  have hDrain := slot_applyOps hDrained hAllOnce store
  have hSlot : ∀ channelId, ((applyOps replayed store).slot channelId).undated =
      ((applyOps drained store).slot channelId).undated := by
    intro channelId
    rw [hReplay, hDrain, undated_foldl, undated_foldl, List.map_append, hFirst, hAgain, hOnce, run_prefix _ _ hPrefix]
  constructor
  · apply Finmap.ext_lookup
    intro channelId
    exact congrArg Slot.mapEntry (hSlot channelId)
  · intro channelId
    refine ⟨congrArg Slot.record (hSlot channelId), ?_⟩
    have hDates := foldl_createdAtMs channelId (store.slot channelId) (first ++ again)
    rw [← hReplay] at hDates
    exact hDates

/-- An open channel whose outpoint and timelock only the funding map knows. -/
def openChannel : CloseRecordStore :=
  (CloseRecordStore.new ⟨⟨none, none⟩, fun _ => false, 0, []⟩ 0).recordFundingTxo "c" ⟨"f", 0, some 144⟩

def forceClosed : CloseSignal :=
  .channelClosed "c" ⟨"Force closed by you", .force, .local, true⟩ none (some 10)

def commitmentSeen : CloseSignal := .commitmentBroadcast "c" "t" 300

def closedAt (nowMs : UInt64) : StoreOp :=
  .channelClosed "c" ⟨"Force closed by you", .force, .local, true⟩ none (some 10) nowMs

def seenAt (nowMs : UInt64) : StoreOp := .commitmentBroadcast "c" "t" 300 nowMs

/-- A crash between the two signals of a force close. -/
theorem interrupted_close_replays :
    (applyOps [closedAt 5, closedAt 7, seenAt 8] openChannel).fundingTxos =
      (applyOps [closedAt 5, seenAt 6] openChannel).fundingTxos ∧
    ((applyOps [closedAt 5, closedAt 7, seenAt 8] openChannel).get "c").map CloseRecord.undated =
      ((applyOps [closedAt 5, seenAt 6] openChannel).get "c").map CloseRecord.undated ∧
    ((applyOps [closedAt 5, closedAt 7, seenAt 8] openChannel).get "c").map CloseRecord.createdAtMs = some 5 := by
  have hPrefix : [forceClosed] <+: [forceClosed, commitmentSeen] := ⟨[commitmentSeen], rfl⟩
  have hOnchain : ∀ signal ∈ [forceClosed, commitmentSeen], signal.Onchain := by
    simp [forceClosed, commitmentSeen, CloseSignal.Onchain]
  have hClosed : ∀ nowMs, Delivers (forceClosed, nowMs) (closedAt nowMs) := fun nowMs => .channelClosed _ _ _ _ nowMs
  have hSeen : ∀ nowMs, Delivers (commitmentSeen, nowMs) (seenAt nowMs) := fun nowMs => .commitmentBroadcast _ _ _ nowMs
  have hFirst : [(forceClosed, (5 : UInt64))].map Prod.fst = [forceClosed] := rfl
  have hAgain : [(forceClosed, (7 : UInt64)), (commitmentSeen, 8)].map Prod.fst = [forceClosed, commitmentSeen] := rfl
  have hOnce : [(forceClosed, (5 : UInt64)), (commitmentSeen, 6)].map Prod.fst = [forceClosed, commitmentSeen] := rfl
  obtain ⟨hMap, hRecords⟩ := redelivery_changes_nothing openChannel hPrefix hOnchain hFirst hAgain hOnce
    (.cons (hClosed 5) (.cons (hClosed 7) (.cons (hSeen 8) .nil))) (.cons (hClosed 5) (.cons (hSeen 6) .nil))
  exact ⟨hMap, (hRecords "c").1, (hRecords "c").2⟩

end WalletCore.CloseRecords
