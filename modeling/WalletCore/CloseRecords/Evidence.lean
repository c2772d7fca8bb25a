import WalletCore.CloseRecords.Monotone

/-! # A pass completes on evidence only

The pass is taken alone: nothing else uses the store while it waits. Then it changes a
record only through the two merges of that record's own round, the second of which is
the completion. The sums of the terminal rules are `u32` sums, so the rules say what
they mean as long as the tip stays clear of the end of that range.
-/

namespace WalletCore.CloseRecords

open Lib

def PassInput.Alone (input : PassInput) : Prop := ∀ n, input.meanwhile n = []

/-- At least six confirmations, counted without wrapping. -/
def SixConfs (tipHeight height : UInt32) : Prop := 6 ≤ tipHeight.toNat - height.toNat + 1

/-- A deeply confirmed transaction that our own wallet has seen confirm. -/
def Receipt (wallet : String → Bool) (tipHeight : UInt32) (record : CloseRecord) : Prop :=
  ∃ tx ∈ record.txs, isReceiptRole tx.role = true ∧
    (∃ height, tx.confirmedAtHeight = some height ∧ SixConfs tipHeight height) ∧ wallet tx.txid = true

/-- The rules that let a final close end without a receipt, as sums of natural numbers. -/
def EndsUnverified (tipHeight : UInt32) (record : CloseRecord) (height : UInt32) : Prop :=
  record.closeType = .coop ∨
  (∃ claimable, record.claimableAtHeight = some claimable ∧ claimable.toNat + 6 ≤ tipHeight.toNat) ∨
  height.toNat + 2016 + 6 ≤ tipHeight.toNat

/-- A final close whose timelock has run out. -/
def FinalClose (tipHeight : UInt32) (record : CloseRecord) (resolution : Resolution) : Prop :=
  ∃ height, closeHeight record = some height ∧ SixConfs tipHeight height ∧
    (∀ claimable, record.claimableAtHeight = some claimable → claimable ≤ tipHeight) ∧
    ((record.expectedAmountSats = some 0 ∧ resolution = .verified) ∨
      (EndsUnverified tipHeight record height ∧ resolution = .unverified))

def Evidence (wallet : String → Bool) (tipHeight : UInt32) (record : CloseRecord) (resolution : Resolution) :
    Prop :=
  (Receipt wallet tipHeight record ∧ resolution = .verified) ∨ FinalClose tipHeight record resolution

/-! ## From the code's tests to the evidence -/

theorem u32_lt (a : UInt32) : a.toNat < 2 ^ 32 := a.toNat_lt

theorem deepConf_sixConfs {tipHeight : UInt32} {height : Option UInt32}
    (h : deepConf tipHeight height = true) : ∃ h', height = some h' ∧ SixConfs tipHeight h' := by
  cases height with
  | none => cases h
  | some h' =>
    refine ⟨h', rfl, ?_⟩
    simp only [deepConf, Option.any_some, decide_eq_true_eq, UInt32.le_iff_toNat_le] at h
    rw [confirmations, saturatingSub] at h
    have hSix : finalityConfs.toNat = 6 := rfl
    rw [hSix] at h
    unfold SixConfs
    split at h
    · rename_i hle
      rw [UInt32.toNat_add, UInt32.toNat_sub_of_le _ _ hle, UInt32.toNat_one] at h
      have := Nat.mod_le (tipHeight.toNat - h'.toNat + 1) (2 ^ 32)
      omega
    · exact absurd h (by decide)

theorem hasReceipt_receipt (input : PassInput) {n : Nat} {tipHeight : UInt32} {record : CloseRecord}
    (h : hasReceipt input n tipHeight record = true) :
    Receipt (input.txConfirmedInWallet n) tipHeight record := by
  obtain ⟨tx, hTx, hTest⟩ := List.any_eq_true.mp h
  rw [Bool.and_eq_true, Bool.and_eq_true] at hTest
  exact ⟨tx, hTx, hTest.1.1, deepConf_sixConfs hTest.1.2, hTest.2⟩

/-- Below the end of the `u32` range no sum of the terminal rules wraps. -/
theorem terminalRule_endsUnverified {tipHeight height : UInt32} {record : CloseRecord}
    (hTip : tipHeight.toNat + 2017 < 2 ^ 32) (hHeight : closeHeight record = some height)
    (hConfs : SixConfs tipHeight height)
    (hGate : ∀ claimable, record.claimableAtHeight = some claimable → claimable ≤ tipHeight)
    (h : terminalRule tipHeight record = true) : EndsUnverified tipHeight record height := by
  simp only [terminalRule, Bool.or_eq_true, decide_eq_true_eq, Option.any_eq_true] at h
  rcases h with (hCoop | ⟨claimable, hClaimable, hSum⟩) | ⟨height', hHeight', hSum⟩
  · exact .inl hCoop
  · refine .inr (.inl ⟨claimable, hClaimable, ?_⟩)
    have hLe := UInt32.le_iff_toNat_le.mp (hGate claimable hClaimable)
    rw [UInt32.le_iff_toNat_le, UInt32.toNat_add, show finalityConfs.toNat = 6 from rfl,
      Nat.mod_eq_of_lt (by omega)] at hSum
    exact hSum
  · rw [hHeight] at hHeight'
    cases hHeight'
    refine .inr (.inr ?_)
    unfold SixConfs at hConfs
    rw [UInt32.le_iff_toNat_le, UInt32.toNat_add, UInt32.toNat_add, show finalityConfs.toNat = 6 from rfl,
      show maxTimelockBlocks.toNat = 2016 from rfl, Nat.mod_eq_of_lt (by omega), Nat.mod_eq_of_lt (by omega)] at hSum
    exact hSum

theorem completionOf_evidence (input : PassInput) {n : Nat} {tipHeight : UInt32} {record : CloseRecord}
    {resolution : Resolution} (hTip : tipHeight.toNat + 2017 < 2 ^ 32)
    (h : completionOf input n tipHeight record = some resolution) :
    Evidence (input.txConfirmedInWallet n) tipHeight record resolution := by
  rw [completionOf] at h
  split at h
  · rename_i hReceipt
    cases h
    exact .inl ⟨hasReceipt_receipt input hReceipt, rfl⟩
  · split at h
    · cases h
    · rename_i hGate
      have hClaim : ∀ claimable, record.claimableAtHeight = some claimable → claimable ≤ tipHeight := by
        intro claimable hClaimable
        simpa [claimGate, hClaimable] using hGate
      split at h
      · rename_i hZero
        cases h
        rw [Bool.and_eq_true, decide_eq_true_eq] at hZero
        obtain ⟨height, hHeight, hConfs⟩ := deepConf_sixConfs hZero.2
        exact .inr ⟨height, hHeight, hConfs, hClaim, .inl ⟨hZero.1, rfl⟩⟩
      · split at h
        · rename_i hRule
          cases h
          rw [Bool.and_eq_true] at hRule
          obtain ⟨height, hHeight, hConfs⟩ := deepConf_sixConfs hRule.1
          exact .inr ⟨height, hHeight, hConfs, hClaim,
            .inr ⟨terminalRule_endsUnverified hTip hHeight hConfs hClaim hRule.2, rfl⟩⟩
        · cases h

/-! ## What one round changes -/

section Alone

variable {input : PassInput} (hAlone : input.Alone)

include hAlone

theorem Asked.store_eq {pass pass' : Pass} (h : Asked input pass pass') : pass'.store = pass.store := by
  induction h with
  | refl => rfl
  | tail _ hStep ih =>
    obtain ⟨_, rfl⟩ := hStep
    rw [← ih, ask, hAlone]
    rfl

theorem collectFacts_store {pass pass' : Pass} {record : CloseRecord} {tipChanged : Bool}
    {result : Except String CloseRecord} (h : collectFacts input pass record tipChanged = (pass', result)) :
    pass'.store = pass.store := by
  have := (collectFacts_asked input pass record tipChanged).store_eq hAlone
  rwa [h] at this

theorem reconcileOneRecord_error {pass pass' : Pass} {record : CloseRecord} {tipChanged : Bool}
    {tipHeight : UInt32} {e : String}
    (h : reconcileOneRecord input pass record tipChanged tipHeight = (pass', .error e)) :
    pass'.store = pass.store := by
  rw [reconcileOneRecord] at h
  split at h
  · rename_i hFacts
    cases h
    exact collectFacts_store hAlone hFacts
  · split at h <;> cases h

end Alone

theorem storeFacts_get_ne (pass : Pass) (facts : CloseRecord) {channelId : String}
    (h : channelId ≠ facts.channelId) : (storeFacts pass facts).store.get channelId = pass.store.get channelId := by
  rw [storeFacts]
  split
  · rfl
  · rw [get_upsert, if_neg h]

theorem completeRecord_get_ne (input : PassInput) (pass : Pass) (record facts : CloseRecord) (tipHeight : UInt32)
    {channelId : String} (h : channelId ≠ facts.channelId) :
    (completeRecord input pass record facts tipHeight).store.get channelId = pass.store.get channelId := by
  rw [completeRecord]
  split
  · rfl
  · split
    · exact (get_upsert _ _ _).trans (if_neg h)
    · rfl

theorem reconcileOneRecord_get_ne {input : PassInput} (hAlone : input.Alone) (pass : Pass) (record : CloseRecord)
    (tipChanged : Bool) (tipHeight : UInt32) {channelId : String} (h : channelId ≠ record.channelId) :
    (reconcileOneRecord input pass record tipChanged tipHeight).1.store.get channelId =
      pass.store.get channelId := by
  rw [reconcileOneRecord]
  split
  · rename_i hFacts
    rw [collectFacts_store hAlone hFacts]
  · rename_i pass' facts hFacts
    obtain ⟨factTxs, rfl, _⟩ := collectFacts_told input record hFacts
    have hStored := storeFacts_get_ne pass' (factsRecord record factTxs) h
    rw [collectFacts_store hAlone hFacts] at hStored
    split
    · exact (completeRecord_get_ne input _ record (factsRecord record factTxs) tipHeight h).trans hStored
    · exact hStored

/-- The record a round completes, before its completion merge. -/
def mergedFacts (record facts : CloseRecord) : CloseRecord :=
  if facts.txs = [] ∧ facts.claimableAtHeight = none then record else mergeCloseRecords record facts

theorem storeFacts_get {pass : Pass} (record facts : CloseRecord) (hId : facts.channelId = record.channelId)
    (h : pass.store.get record.channelId = some record) :
    (storeFacts pass facts).store.get record.channelId = some (mergedFacts record facts) := by
  rw [storeFacts, mergedFacts]
  split
  · exact h
  · rw [get_upsert, if_pos hId.symm, hId, h]

theorem completionOf_congr (input : PassInput) (n : Nat) (tipHeight : UInt32) {a b : CloseRecord}
    (hTxs : a.txs = b.txs) (hType : a.closeType = b.closeType)
    (hAmount : a.expectedAmountSats = b.expectedAmountSats)
    (hClaimable : a.claimableAtHeight = b.claimableAtHeight) :
    completionOf input n tipHeight a = completionOf input n tipHeight b := by
  have hHeight : closeHeight a = closeHeight b := by rw [closeHeight, closeHeight, hTxs]
  have hReceipt : hasReceipt input n tipHeight a = hasReceipt input n tipHeight b := by
    rw [hasReceipt, hasReceipt, hTxs]
  have hGate : claimGate tipHeight a = claimGate tipHeight b := by rw [claimGate, claimGate, hClaimable]
  have hRule : terminalRule tipHeight a = terminalRule tipHeight b := by
    rw [terminalRule, terminalRule, hType, hClaimable, hHeight]
  rw [completionOf, completionOf, hHeight, hReceipt, hGate, hRule, hAmount]

theorem or_or_self {α : Type} (a b : Option α) : a.or (a.or b) = a.or b := by
  cases a <;> rfl

theorem mergedFacts_claimable (record : CloseRecord) (factTxs : List CloseRecordTx) :
    (factsRecord record factTxs).claimableAtHeight.or
      (mergedFacts record (factsRecord record factTxs)).claimableAtHeight =
      (mergedFacts record (factsRecord record factTxs)).claimableAtHeight := by
  rw [mergedFacts]
  split
  · rename_i h
    rw [h.2]
    rfl
  · exact or_or_self _ _

theorem completionOf_completed (input : PassInput) (n : Nat) (tipHeight : UInt32) (record : CloseRecord)
    (factTxs : List CloseRecordTx) (nowMs : UInt64) (resolution : Resolution) :
    completionOf input n tipHeight (mergeCloseRecords (mergedFacts record (factsRecord record factTxs))
      (completionRecord (factsRecord record factTxs) nowMs resolution)) =
    completionOf input n tipHeight (mergedFacts record (factsRecord record factTxs)) :=
  completionOf_congr input n tipHeight rfl rfl rfl (mergedFacts_claimable record factTxs)

theorem mergedFacts_completedAtMs (record : CloseRecord) (factTxs : List CloseRecordTx) :
    (mergedFacts record (factsRecord record factTxs)).completedAtMs = record.completedAtMs := by
  rw [mergedFacts]
  split
  · rfl
  · exact Option.or_none

theorem mergeResolution_none (base : Option Resolution) : mergeResolution base none = base := by
  rcases base with _ | _ | _ <;> rfl

theorem mergedFacts_resolution (record : CloseRecord) (factTxs : List CloseRecordTx) :
    (mergedFacts record (factsRecord record factTxs)).resolution = record.resolution := by
  rw [mergedFacts]
  split
  · rfl
  · exact mergeResolution_none _

theorem mergedFacts_channelId (record facts : CloseRecord) : (mergedFacts record facts).channelId = record.channelId := by
  rw [mergedFacts]
  split <;> rfl

/-- A pending record leaves its round completed only through a positive completion rule. -/
theorem reconcileOneRecord_completes {input : PassInput} (hAlone : input.Alone) {pass : Pass}
    {record after : CloseRecord} {tipChanged : Bool} {tipHeight : UInt32}
    (hGet : pass.store.get record.channelId = some record) (hPending : record.completedAtMs = none)
    (hAfter : (reconcileOneRecord input pass record tipChanged tipHeight).1.store.get record.channelId =
      some after) (hDone : after.completedAtMs ≠ none) :
    tipChanged = true ∧ record.channelId ∉ input.pendingSweepChannels ∧
      ∃ n resolution, completionOf input n tipHeight after = some resolution ∧
        after.resolution = mergeResolution record.resolution (some resolution) := by
  rw [reconcileOneRecord] at hAfter
  split at hAfter
  · rename_i hFacts
    rw [collectFacts_store hAlone hFacts, hGet] at hAfter
    cases hAfter
    exact absurd hPending hDone
  · rename_i pass' facts hFacts
    obtain ⟨factTxs, rfl, _⟩ := collectFacts_told input record hFacts
    rw [← collectFacts_store hAlone hFacts] at hGet
    have hStored := storeFacts_get record (factsRecord record factTxs) rfl hGet
    split at hAfter
    · rename_i hTip
      refine ⟨hTip, ?_⟩
      dsimp only at hAfter
      rw [completeRecord, hStored, Option.getD_some, mergedFacts_channelId] at hAfter
      split at hAfter
      · rw [hStored] at hAfter
        cases hAfter
        exact absurd ((mergedFacts_completedAtMs record factTxs).trans hPending) hDone
      · rename_i hSweep
        refine ⟨hSweep, ?_⟩
        split at hAfter
        · rename_i resolution hCompletion
          have hId : record.channelId = (completionRecord (factsRecord record factTxs) input.nowMs resolution).channelId :=
            rfl
          rw [get_upsert, if_pos hId, ← hId, hStored] at hAfter
          cases hAfter
          refine ⟨_, resolution, (completionOf_completed input _ tipHeight record factTxs _ _).trans hCompletion, ?_⟩
          exact congrArg (mergeResolution · (some resolution)) (mergedFacts_resolution record factTxs)
        · rw [hStored] at hAfter
          cases hAfter
          exact absurd ((mergedFacts_completedAtMs record factTxs).trans hPending) hDone
    · rw [hStored] at hAfter
      cases hAfter
      exact absurd ((mergedFacts_completedAtMs record factTxs).trans hPending) hDone

/-! ## What a whole pass changes -/

theorem processRecords_get_ne {input : PassInput} (hAlone : input.Alone) (tipChanged : Bool) (tipHeight : UInt32)
    (pass : Pass) (records : List CloseRecord) {channelId : String}
    (h : channelId ∉ records.map CloseRecord.channelId) :
    (processRecords input tipChanged tipHeight pass records).store.get channelId = pass.store.get channelId := by
  induction records generalizing pass with
  | nil => rfl
  | cons record rest ih =>
    rw [List.map_cons, List.mem_cons, not_or] at h
    have hOne := reconcileOneRecord_get_ne hAlone pass record tipChanged tipHeight h.1
    rw [processRecords]
    split
    · rename_i hRound
      rw [hRound] at hOne
      split
      · exact hOne
      · split
        · exact hOne
        · exact (ih _ h.2).trans hOne
    · rename_i hRound
      rw [hRound] at hOne
      split
      · exact hOne
      · exact (ih _ h.2).trans hOne

/-- A record of the list is as its own round left it, or as it was if the pass never got to it. -/
theorem processRecords_get {input : PassInput} (hAlone : input.Alone) (tipChanged : Bool) (tipHeight : UInt32)
    (pass : Pass) (records : List CloseRecord) (hNodup : (records.map CloseRecord.channelId).Nodup)
    {record : CloseRecord} (hMem : record ∈ records) :
    (processRecords input tipChanged tipHeight pass records).store.get record.channelId =
        pass.store.get record.channelId ∨
      ∃ pass', pass'.store.get record.channelId = pass.store.get record.channelId ∧
        (processRecords input tipChanged tipHeight pass records).store.get record.channelId =
          (reconcileOneRecord input pass' record tipChanged tipHeight).1.store.get record.channelId := by
  induction records generalizing pass with
  | nil => cases hMem
  | cons first rest ih =>
    rw [List.map_cons, List.nodup_cons] at hNodup
    rcases List.mem_cons.mp hMem with rfl | hMem
    · -- The first round is the record's own; the later rounds are of other channels.
      refine .inr ⟨pass, rfl, ?_⟩
      rw [processRecords]
      split
      · rename_i hRound
        split
        · rw [hRound]
        · split
          · rw [hRound]
          · rw [processRecords_get_ne hAlone _ _ _ rest hNodup.1, hRound]
      · rename_i hRound
        split
        · rw [hRound]
        · rw [processRecords_get_ne hAlone _ _ _ rest hNodup.1, hRound]
    · have hNe : record.channelId ≠ first.channelId := fun hEq =>
        hNodup.1 (hEq ▸ List.mem_map_of_mem hMem)
      have hOne := reconcileOneRecord_get_ne hAlone pass first tipChanged tipHeight hNe
      rw [processRecords]
      split
      · rename_i hRound
        rw [hRound] at hOne
        split
        · exact .inl hOne
        · split
          · exact .inl hOne
          · rcases ih _ hNodup.2 hMem with h | ⟨pass', h, h'⟩
            · exact .inl (h.trans hOne)
            · exact .inr ⟨pass', h.trans hOne, h'⟩
      · rename_i hRound
        rw [hRound] at hOne
        split
        · exact .inl hOne
        · rcases ih _ hNodup.2 hMem with h | ⟨pass', h, h'⟩
          · exact .inl (h.trans hOne)
          · exact .inr ⟨pass', h.trans hOne, h'⟩

theorem safetyNetStep_get (input : PassInput) (store : CloseRecordStore) (channelId : String)
    (txo : FundingTxoEntry) (key : String) :
    (safetyNetStep input store channelId txo).get key = store.get key ∨
      (store.get key = none ∧ (safetyNetStep input store channelId txo).get key =
        some (safetyNetRecord channelId txo input.nowMs)) := by
  rw [safetyNetStep]
  split
  · exact .inl rfl
  · split
    · exact .inl (get_removeFundingTxo _ _ _)
    · rename_i hNone
      rw [Option.not_isSome_iff_eq_none] at hNone
      rw [get_removeFundingTxo, get_upsert,
        show (safetyNetRecord channelId txo input.nowMs).channelId = channelId from rfl, hNone]
      split
      · rename_i hKey
        exact .inr ⟨hKey ▸ hNone, rfl⟩
      · exact .inl rfl

theorem safetyNet_get (input : PassInput) (store : CloseRecordStore) (fundingMap : FundingTxos) (key : String) :
    (safetyNet input store fundingMap).get key = store.get key ∨
      (store.get key = none ∧ ∃ channelId txo, (safetyNet input store fundingMap).get key =
        some (safetyNetRecord channelId txo input.nowMs)) := by
  rw [safetyNet]
  induction input.fundingOrder.arrange fundingMap.toPairs generalizing store with
  | nil => exact .inl rfl
  | cons entry rest ih =>
    rw [List.foldl_cons]
    rcases ih (safetyNetStep input store entry.1 entry.2) with hRest | ⟨hNone, channelId, txo, hRest⟩
    · rcases safetyNetStep_get input store entry.1 entry.2 key with hStep | ⟨hNone, hStep⟩
      · exact .inl (hRest.trans hStep)
      · exact .inr ⟨hNone, entry.1, entry.2, hRest.trans hStep⟩
    · rcases safetyNetStep_get input store entry.1 entry.2 key with hStep | ⟨hNone', hStep⟩
      · exact .inr ⟨hStep.symm.trans hNone, channelId, txo, hRest⟩
      · rw [hNone] at hStep
        cases hStep

/-! ## The query budget -/

theorem reconcileOneRecord_budget (input : PassInput) (pass : Pass) (record : CloseRecord) (tipChanged : Bool)
    (tipHeight : UInt32) :
    (reconcileOneRecord input pass record tipChanged tipHeight).1.budget +
        (reconcileOneRecord input pass record tipChanged tipHeight).1.queries = pass.budget + pass.queries := by
  have hAsked := (collectFacts_asked input pass record tipChanged).budget_add_queries input
  have hStored : ∀ (p : Pass) facts, (storeFacts p facts).budget + (storeFacts p facts).queries = p.budget + p.queries := by
    intro p facts
    rw [storeFacts]
    split <;> rfl
  have hCompleted : ∀ (p : Pass) facts, (completeRecord input p record facts tipHeight).budget +
      (completeRecord input p record facts tipHeight).queries = p.budget + p.queries := by
    intro p facts
    rw [completeRecord]
    split
    · rfl
    · split <;> rfl
  rw [reconcileOneRecord]
  split
  · rename_i h
    rwa [h] at hAsked
  · rename_i h
    rw [h] at hAsked
    split
    · exact (hCompleted _ _).trans ((hStored _ _).trans hAsked)
    · exact (hStored _ _).trans hAsked

theorem processRecords_budget (input : PassInput) (tipChanged : Bool) (tipHeight : UInt32) (pass : Pass)
    (records : List CloseRecord) :
    (processRecords input tipChanged tipHeight pass records).budget +
        (processRecords input tipChanged tipHeight pass records).queries = pass.budget + pass.queries := by
  induction records generalizing pass with
  | nil => rfl
  | cons record rest ih =>
    have hOne := reconcileOneRecord_budget input pass record tipChanged tipHeight
    rw [processRecords]
    split
    · rename_i hRound
      rw [hRound] at hOne
      split
      · exact hOne
      · split
        · exact hOne
        · exact (ih _).trans hOne
    · rename_i hRound
      rw [hRound] at hOne
      split
      · exact hOne
      · exact (ih _).trans hOne

theorem reconcileCloseRecords_queries (input : PassInput) (store : CloseRecordStore) :
    (reconcileCloseRecords input store).queries ≤ maxQueriesPerPass := by
  rw [reconcileCloseRecords]
  dsimp only
  split
  · exact Nat.zero_le _
  · split
    · exact Nat.zero_le _
    · rw [reconcileAtTip]
      dsimp only
      split
      · exact Nat.zero_le _
      · exact Nat.le_of_add_left_le (Nat.le_of_eq (processRecords_budget input _ _ _ _))

/-! ## Safety of a pass -/

/-- Whatever is completed after the pass was completed before it, or the pass saw a new tip, no
unswept output of the channel, and evidence for the resolution it wrote. -/
def CompletesOnEvidence (input : PassInput) (store : CloseRecordStore) : Prop :=
  ∀ channelId after, (reconcileCloseRecords input store).store.get channelId = some after →
    after.completedAtMs ≠ none →
    (∃ before, store.get channelId = some before ∧ before.completedAtMs ≠ none) ∨
    ∃ tipHeight, input.chain.tipHeight = .ok tipHeight ∧ store.lastTipHeight ≠ some tipHeight ∧
      channelId ∉ input.pendingSweepChannels ∧
      ∃ n resolution, Evidence (input.txConfirmedInWallet n) tipHeight after resolution ∧
        after.resolution = mergeResolution ((store.get channelId).bind CloseRecord.resolution) (some resolution)

/-- A round that meets an error of the chain leaves memory and disk alone, wherever in a pass it runs. -/
def ErrorsChangeNothing (input : PassInput) : Prop :=
  ∀ pass record tipChanged tipHeight pass' e,
    reconcileOneRecord input pass record tipChanged tipHeight = (pass', .error e) → pass'.store = pass.store

structure PassSafe (input : PassInput) (store : CloseRecordStore) : Prop where
  evidence : CompletesOnEvidence input store
  errors : ErrorsChangeNothing input
  queries : (reconcileCloseRecords input store).queries ≤ 8

theorem reconcileAtTip_evidence {input : PassInput} (hAlone : input.Alone) {store : CloseRecordStore}
    {pendingRecords : List CloseRecord} {fundingMap : FundingTxos} {tipHeight : UInt32}
    (hTip : tipHeight.toNat + 2017 < 2 ^ 32) {channelId : String} {after : CloseRecord}
    (hAfter : (reconcileAtTip input store pendingRecords fundingMap tipHeight).store.get channelId = some after)
    (hDone : after.completedAtMs ≠ none) :
    (∃ before, store.get channelId = some before ∧ before.completedAtMs ≠ none) ∨
      (store.lastTipHeight ≠ some tipHeight ∧ channelId ∉ input.pendingSweepChannels ∧
        ∃ n resolution, Evidence (input.txConfirmedInWallet n) tipHeight after resolution ∧
          after.resolution = mergeResolution ((store.get channelId).bind CloseRecord.resolution) (some resolution)) := by
  rw [reconcileAtTip] at hAfter
  dsimp only at hAfter
  split at hAfter
  · exact .inl ⟨after, hAfter, hDone⟩
  · generalize hStore : (if decide (store.lastTipHeight ≠ some tipHeight) = true then
      safetyNet input (store.setLastTipHeight tipHeight) fundingMap
      else store.setLastTipHeight tipHeight) = netted at hAfter
    -- The safety net may have created the record, then as a pending one without a resolution.
    have hNetted : netted.get channelId = store.get channelId ∨
        (store.get channelId = none ∧ ∃ key txo, netted.get channelId = some (safetyNetRecord key txo input.nowMs)) := by
      rw [← hStore]
      split
      · exact safetyNet_get input (store.setLastTipHeight tipHeight) fundingMap channelId
      · exact .inl rfl
    by_cases hListed : channelId ∈ (pendingSnapshot input.recordOrder netted.records).map CloseRecord.channelId
    · obtain ⟨record, hMem, rfl⟩ := List.mem_map.mp hListed
      obtain ⟨hGet, hPending⟩ := (mem_pendingSnapshot _ _ _).mp hMem
      have hResolution : (store.get record.channelId).bind CloseRecord.resolution = record.resolution := by
        rcases hNetted with h | ⟨hNone, key, txo, h⟩
        · rw [← h, hGet]
          rfl
        · rw [hGet] at h
          cases h
          rw [hNone]
          rfl
      rcases processRecords_get hAlone _ tipHeight _ _ (pendingSnapshot_nodup _ netted) hMem with
        h | ⟨pass', hPass, h⟩
      · rw [hAfter] at h
        exact absurd (Option.some.inj (h.trans hGet) ▸ hPending) hDone
      · rw [hAfter] at h
        obtain ⟨hChanged, hSweep, n, resolution, hCompletion, hRes⟩ :=
          reconcileOneRecord_completes hAlone (hPass.trans hGet) hPending h.symm hDone
        refine .inr ⟨of_decide_eq_true hChanged, hSweep, n, resolution, completionOf_evidence input hTip hCompletion, ?_⟩
        rw [hResolution]
        exact hRes
    · rw [processRecords_get_ne hAlone _ tipHeight _ _ hListed, Pass.start] at hAfter
      rcases hNetted with h | ⟨_, key, txo, h⟩
      · exact .inl ⟨after, h ▸ hAfter, hDone⟩
      · rw [h] at hAfter
        cases hAfter
        exact absurd rfl hDone

theorem completesOnEvidence_of_tip {input : PassInput} (hAlone : input.Alone)
    (hTip : ∀ tipHeight, input.chain.tipHeight = .ok tipHeight → tipHeight.toNat + 2017 < 2 ^ 32)
    (store : CloseRecordStore) : CompletesOnEvidence input store := by
  intro channelId after hAfter hDone
  have hNothing : applyOps (input.meanwhile 0) store = store := by
    rw [hAlone]
    rfl
  rw [reconcileCloseRecords] at hAfter
  dsimp only at hAfter
  split at hAfter
  · exact .inl ⟨after, hAfter, hDone⟩
  · rw [hNothing] at hAfter
    split at hAfter
    · exact .inl ⟨after, hAfter, hDone⟩
    · rename_i tipHeight hOk
      rcases reconcileAtTip_evidence hAlone (hTip tipHeight hOk) hAfter hDone with h | h
      · exact .inl h
      · exact .inr ⟨tipHeight, hOk, h⟩

/-! ## A pass on a new tip -/

def netted (input : PassInput) (store : CloseRecordStore) (tipHeight : UInt32) : CloseRecordStore :=
  safetyNet input (store.setLastTipHeight tipHeight) store.fundingTxos

theorem reconcileCloseRecords_newTip {input : PassInput} (hAlone : input.Alone) {store : CloseRecordStore}
    (hPending : pendingSnapshot input.recordOrder store.records ≠ []) {tipHeight : UInt32}
    (hTip : input.chain.tipHeight = .ok tipHeight) (hNew : store.lastTipHeight ≠ some tipHeight) :
    reconcileCloseRecords input store =
      processRecords input true tipHeight (.start (netted input store tipHeight))
        (pendingSnapshot input.recordOrder (netted input store tipHeight).records) := by
  have hChanged : decide (store.lastTipHeight ≠ some tipHeight) = true := decide_eq_true hNew
  rw [reconcileCloseRecords]
  simp only [hPending, hAlone 0, hTip, false_and, if_false]
  rw [show applyOps [] store = store from rfl, reconcileAtTip]
  simp only [hChanged, Bool.not_true, Bool.false_and, Bool.false_eq_true, if_false, if_true]
  rfl

theorem netted_of_empty {input : PassInput} {store : CloseRecordStore} {tipHeight : UInt32}
    (h : store.fundingTxos = ∅) : netted input store tipHeight = store.setLastTipHeight tipHeight := by
  rw [netted, safetyNet, h, StringMap.toPairs_empty, List.perm_nil.mp (input.fundingOrder.perm [])]
  rfl

/-! ## A store with one record -/

def blankKv : KvStore :=
  { records := none, fundingTxos := none, fails := fun _ => false, writes := 0, past := [] }

/-- The store of a session that loaded one record and no safety-net entry. -/
def soloStore (record : CloseRecord) : CloseRecordStore where
  records := Finmap.singleton record.channelId record
  keyed := by
    intro key record' h
    rw [← StringMap.mem_toPairs, StringMap.toPairs_singleton, List.mem_singleton] at h
    cases h
    rfl
  fundingTxos := ∅
  kvStore := blankKv
  lastTipHeight := none

theorem soloStore_get (record : CloseRecord) : (soloStore record).get record.channelId = some record :=
  Finmap.lookup_singleton_eq

theorem pendingSnapshot_singleton (order : IterOrder (String × CloseRecord)) (channelId : String)
    {record : CloseRecord} (h : record.completedAtMs = none) :
    pendingSnapshot order (Finmap.singleton channelId record) = [record] := by
  have hOrder : order.arrange [(channelId, record)] = [(channelId, record)] := List.perm_singleton.mp (order.perm _)
  simp [pendingSnapshot, snapshot, hOrder, h]

theorem processRecords_solo (input : PassInput) (tipChanged : Bool) (tipHeight : UInt32) (pass : Pass)
    (record : CloseRecord) : (processRecords input tipChanged tipHeight pass [record]).store =
      (reconcileOneRecord input pass record tipChanged tipHeight).1.store := by
  rw [processRecords]
  split
  · rename_i h
    rw [h]
    split
    · rfl
    · split <;> rfl
  · rename_i h
    rw [h]
    split <;> rfl

theorem reconcileCloseRecords_solo {input : PassInput} (hAlone : input.Alone) {record : CloseRecord}
    (hPending : record.completedAtMs = none) {tipHeight : UInt32} (hTip : input.chain.tipHeight = .ok tipHeight) :
    (reconcileCloseRecords input (soloStore record)).store =
      (reconcileOneRecord input (.start ((soloStore record).setLastTipHeight tipHeight)) record true
        tipHeight).1.store := by
  have hSnapshot : pendingSnapshot input.recordOrder (soloStore record).records = [record] :=
    pendingSnapshot_singleton input.recordOrder record.channelId hPending
  rw [reconcileCloseRecords_newTip hAlone (hSnapshot ▸ List.cons_ne_nil _ _) hTip (Option.some_ne_none _).symm,
    netted_of_empty rfl,
    show ((soloStore record).setLastTipHeight tipHeight).records = (soloStore record).records from rfl, hSnapshot,
    processRecords_solo]

/-! ## The rules wrap at the end of the range -/

/-- A force close that confirmed 2022 blocks before the end of the `u32` range. -/
def lateClose : CloseRecord :=
  { CloseRecord.skeleton "c" 0 with
    closeType := .force
    txs := [{ txid := "t", role := .commitment, feeSats := none, confirmedAtHeight := some 4294965274 }] }

def lateInput (answer : Except String UInt32) : PassInput where
  chain := { tipHeight := answer, outspend := fun _ _ _ => .ok none, txConfirmedHeight := fun _ _ => .ok none }
  txConfirmedInWallet _ _ := false
  openChannelIds := []
  pendingSweepChannels := []
  nowMs := 1
  recordOrder := .keep _
  fundingOrder := .keep _
  meanwhile _ := []

theorem lateInput_alone (answer : Except String UInt32) : (lateInput answer).Alone := fun _ => rfl

theorem lateClose_completionOf (answer : Except String UInt32) (n : Nat) {tipHeight : UInt32}
    (h : 2 ^ 32 ≤ tipHeight.toNat + 2017) :
    completionOf (lateInput answer) n tipHeight lateClose = some .unverified := by
  have hReceipt : hasReceipt (lateInput answer) n tipHeight lateClose = false := by
    simp [hasReceipt, lateInput]
  have hDeep : deepConf tipHeight (closeHeight lateClose) = true := by
    have hHeight : (4294965274 : UInt32).toNat = 4294965274 := rfl
    have hLe : (4294965274 : UInt32) ≤ tipHeight := by
      rw [UInt32.le_iff_toNat_le, hHeight]
      omega
    have := u32_lt tipHeight
    rw [show closeHeight lateClose = some 4294965274 from rfl, deepConf, Option.any_some, decide_eq_true_eq,
      confirmations, saturatingSub, if_pos hLe, UInt32.le_iff_toNat_le, UInt32.toNat_add,
      UInt32.toNat_sub_of_le _ _ hLe, hHeight, show finalityConfs.toNat = 6 from rfl, UInt32.toNat_one]
    omega
  have hRule : terminalRule tipHeight lateClose = true := by
    have hWrap : (4294965274 : UInt32) + maxTimelockBlocks + finalityConfs = 0 := rfl
    rw [terminalRule, show closeHeight lateClose = some 4294965274 from rfl, Option.any_some, hWrap]
    exact Bool.or_eq_true_iff.mpr (.inr (decide_eq_true UInt32.zero_le))
  have hGate : claimGate tipHeight lateClose = true := rfl
  have hAmount : decide (lateClose.expectedAmountSats = some 0) = false := rfl
  simp only [completionOf, hReceipt, hGate, hAmount, hDeep, hRule, Bool.not_true, Bool.false_and, Bool.true_and,
    Bool.false_eq_true, if_false, if_true]

theorem lateClose_completes {tipHeight : UInt32} (h : 2 ^ 32 ≤ tipHeight.toNat + 2017) :
    (reconcileCloseRecords (lateInput (.ok tipHeight)) (soloStore lateClose)).store.get "c" =
      some { lateClose with completedAtMs := some 1, resolution := some .unverified } := by
  rw [reconcileCloseRecords_solo (lateInput_alone _) rfl rfl]
  have hRound : reconcileOneRecord (lateInput (.ok tipHeight))
      (.start ((soloStore lateClose).setLastTipHeight tipHeight)) lateClose true tipHeight =
      (completeRecord (lateInput (.ok tipHeight)) (.start ((soloStore lateClose).setLastTipHeight tipHeight))
        lateClose (factsRecord lateClose []) tipHeight, .ok ()) := rfl
  have hGet : (Pass.start ((soloStore lateClose).setLastTipHeight tipHeight)).store.get lateClose.channelId =
      some lateClose := soloStore_get lateClose
  have hSwept : lateClose.channelId ∉ (lateInput (.ok tipHeight)).pendingSweepChannels := List.not_mem_nil
  rw [hRound, completeRecord, hGet, Option.getD_some, lateClose_completionOf _ _ h, if_neg hSwept]
  exact (get_upsert _ _ _).trans (if_pos rfl)

/-- From 2017 blocks before the end of the range on, the late close is completed without evidence. -/
theorem lateClose_unsafe {tipHeight : UInt32} (hTip : 2 ^ 32 ≤ tipHeight.toNat + 2017) :
    ¬ PassSafe (lateInput (.ok tipHeight)) (soloStore lateClose) := by
  intro hSafe
  rcases hSafe.evidence "c" _ (lateClose_completes hTip) (Option.some_ne_none 1) with
    ⟨before, hBefore, hCompleted⟩ | ⟨tip', hTip', _, _, n, resolution, hEvidence, _⟩
  · rw [show (soloStore lateClose).get "c" = some lateClose from soloStore_get lateClose] at hBefore
    cases hBefore
    exact hCompleted rfl
  · cases hTip'
    rcases hEvidence with ⟨⟨_, _, _, _, hWallet⟩, _⟩ | ⟨height, hHeight, _, _, hEnds⟩
    · cases hWallet
    · cases hHeight
      have hEnd : (4294965274 : UInt32).toNat + 2016 + 6 = 2 ^ 32 := rfl
      have := u32_lt tipHeight
      rcases hEnds with ⟨hAmount, _⟩ | ⟨hCoop | ⟨_, hClaimable, _⟩ | hSum, _⟩
      · cases hAmount
      · cases hCoop
      · cases hClaimable
      · omega

/-- A pass is safe for every store and all other answers just when the tip it is told stays 2017
blocks clear of the end of the `u32` range. -/
theorem passSafe_iff_tip (answer : Except String UInt32) :
    (∀ input store, input.Alone → input.chain.tipHeight = answer → PassSafe input store) ↔
      ∀ tipHeight, answer = .ok tipHeight → tipHeight.toNat + 2017 < 2 ^ 32 := by
  constructor
  · rintro hSafe tipHeight rfl
    by_contra hTip
    exact lateClose_unsafe (not_lt.mp hTip) (hSafe _ _ (lateInput_alone _) rfl)
  · intro hTip input store hAlone hAnswer
    exact {
      evidence := completesOnEvidence_of_tip hAlone (fun tipHeight h => hTip tipHeight (hAnswer ▸ h)) store
      errors := fun pass record tipChanged tipHeight pass' e h => reconcileOneRecord_error hAlone h
      queries := reconcileCloseRecords_queries input store }

/-- At the last tip of the range the late close is completed 2022 blocks too early. -/
theorem lateClose_unsafe_lastTip :
    (lateInput (.ok 4294967295)).Alone ∧ ¬ PassSafe (lateInput (.ok 4294967295)) (soloStore lateClose) :=
  ⟨lateInput_alone _, lateClose_unsafe (by decide)⟩

end WalletCore.CloseRecords
