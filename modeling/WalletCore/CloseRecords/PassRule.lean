import WalletCore.CloseRecords.Reconcile

/-! # The invariant rule of a pass

A pass changes the store in few ways: other tasks use it while a question is awaited, the
safety net turns entries of the funding map into records, and each round upserts the facts
it was told and perhaps a completion. A property that all of these keep holds after the
whole pass. The facts of a round were told by the chain, about a record that some earlier
state of the same pass held.
-/

namespace WalletCore.CloseRecords

open Lib

section Told

variable (input : PassInput) (record : CloseRecord)

/-- A transaction that a round may report: the funding spender, or a known one with its height. -/
inductive Told : CloseRecordTx → Prop
  | discovered {txo : CloseOutpoint} {n m : Nat} {spender : String} {status : Option UInt32} {role : CloseTxRole}
      (hTxo : record.fundingTxo = some txo) (hRole : role = .closing ∨ role = .commitment)
      (hSpender : input.chain.outspend n txo.txid txo.vout = .ok (some spender))
      (hStatus : status = none ∨ input.chain.txConfirmedHeight m spender = .ok status) :
      Told { txid := spender, role := role, feeSats := none, confirmedAtHeight := status }
  | filled {tx : CloseRecordTx} {m : Nat} {height : UInt32} (hMem : tx ∈ record.txs)
      (hHeight : input.chain.txConfirmedHeight m tx.txid = .ok (some height)) :
      Told { tx with confirmedAtHeight := some height }

theorem withBudget_ok {α : Type} {pass pass' : Pass} {query : Nat → Except String (Option α)} {answer : Option α}
    (h : withBudget input pass query = (pass', .ok answer)) : answer = none ∨ ∃ n, query n = .ok answer := by
  rw [withBudget] at h
  split at h
  · cases h
    exact .inl rfl
  · exact .inr ⟨pass.queries, congrArg Prod.snd h⟩

theorem discoverCloseTx_told {pass pass' : Pass} {txs : List CloseRecordTx}
    (h : discoverCloseTx input pass record = (pass', .ok txs)) : ∀ tx ∈ txs, Told input record tx := by
  intro tx hTx
  unfold discoverCloseTx at h
  split at h
  · cases h
    cases hTx
  · rename_i txo hTxo
    obtain ⟨hTxo, _⟩ := Option.filter_eq_some_iff.mp hTxo
    split at h
    · cases h
    · cases h
      cases hTx
    · rename_i hSpender
      split at h
      · cases h
      · rename_i hStatus
        cases h
        rw [List.mem_singleton] at hTx
        subst hTx
        rcases withBudget_ok input hSpender with hNone | ⟨n, hSpender⟩
        · cases hNone
        · have hRole : ∀ c : CloseType, (if c = .coop then CloseTxRole.closing else .commitment) = .closing ∨
              (if c = .coop then CloseTxRole.closing else .commitment) = .commitment := by
            intro c
            split
            · exact .inl rfl
            · exact .inr rfl
          rcases withBudget_ok input hStatus with hNone | ⟨m, hStatus⟩
          · exact .discovered (m := 0) hTxo (hRole _) hSpender (.inl hNone)
          · exact .discovered hTxo (hRole _) hSpender (.inr hStatus)

theorem fillHeights_told {pass pass' : Pass} {txs filled : List CloseRecordTx} (hTxs : ∀ tx ∈ txs, tx ∈ record.txs)
    (h : fillHeights input pass txs = (pass', .ok filled)) : ∀ tx ∈ filled, Told input record tx := by
  induction txs generalizing pass pass' filled with
  | nil =>
    cases h
    intro tx hTx
    cases hTx
  | cons known rest ih =>
    rw [List.forall_mem_cons] at hTxs
    rw [fillHeights] at h
    split at h
    · exact ih hTxs.2 h
    · split at h
      · cases h
      · rename_i hStatus
        split at h
        · cases h
        · rename_i hRest
          split at h
          · cases h
            rw [List.forall_mem_cons]
            refine ⟨?_, ih hTxs.2 hRest⟩
            rcases withBudget_ok input hStatus with hNone | ⟨m, hHeight⟩
            · cases hNone
            · exact .filled hTxs.1 hHeight
          · cases h
            exact ih hTxs.2 hRest

theorem collectFacts_told {pass pass' : Pass} {facts : CloseRecord} {tipChanged : Bool}
    (h : collectFacts input pass record tipChanged = (pass', .ok facts)) :
    ∃ factTxs, facts = factsRecord record factTxs ∧ ∀ tx ∈ factTxs, Told input record tx := by
  rw [collectFacts] at h
  split at h
  · cases h
  · rename_i pass₁ discovered hDiscovered
    split at h
    · cases h
    · rename_i pass₂ filled hFilled
      cases h
      refine ⟨_, rfl, ?_⟩
      intro tx hTx
      rcases List.mem_append.mp hTx with hTx | hTx
      · exact discoverCloseTx_told input record hDiscovered tx hTx
      · split at hFilled
        · exact fillHeights_told input record (fun _ h => h) hFilled tx hTx
        · cases hFilled
          cases hTx

end Told

/-- What a pass needs to keep `P`. `Known` holds of the records and `Listed` of the safety-net
entries that a state with `P` holds. -/
structure PassRule (input : PassInput) (P : CloseRecordStore → Prop) (Known : CloseRecord → Prop)
    (Listed : String → FundingTxoEntry → Prop) : Prop where
  tip : ∀ store tipHeight, P store → P (store.setLastTipHeight tipHeight)
  meanwhile : ∀ n, ∀ op ∈ input.meanwhile n, ∀ store, P store → P (op.apply store)
  known : ∀ store record, P store → store.get record.channelId = some record → Known record
  listed : ∀ store channelId txo, P store → store.fundingTxos.lookup channelId = some txo → Listed channelId txo
  net : ∀ store channelId txo, P store → Listed channelId txo → P (safetyNetStep input store channelId txo)
  facts : ∀ store record factTxs, P store → Known record → store.get record.channelId ≠ none →
    (∀ tx ∈ factTxs, Told input record tx) → P (store.upsert (factsRecord record factTxs))
  complete : ∀ store record factTxs resolution, P store → Known record → store.get record.channelId ≠ none →
    (∀ tx ∈ factTxs, Told input record tx) →
    P (store.upsert (completionRecord (factsRecord record factTxs) input.nowMs resolution))

/-! ## Rounds keep the stored records -/

theorem RecordsKept.get_ne_none {old new : CloseRecordStore} (h : RecordsKept old.records new.records)
    {channelId : String} (hGet : old.get channelId ≠ none) : new.get channelId ≠ none := by
  obtain ⟨record, hRecord⟩ := Option.ne_none_iff_exists'.mp hGet
  obtain ⟨record', hRecord', _⟩ := h channelId record hRecord
  exact Option.ne_none_iff_exists'.mpr ⟨record', hRecord'⟩

theorem Asked.kept {input : PassInput} {pass pass' : Pass} (h : Asked input pass pass') :
    RecordsKept pass.store.records pass'.store.records := by
  induction h with
  | refl => exact .refl _
  | tail _ hStep ih =>
    obtain ⟨_, rfl⟩ := hStep
    exact ih.trans (applyOps_kept _ _)

theorem storeFacts_kept (pass : Pass) (facts : CloseRecord) :
    RecordsKept pass.store.records (storeFacts pass facts).store.records := by
  rw [storeFacts]
  split
  · exact .refl _
  · exact upsert_kept _ _

theorem completeRecord_kept (input : PassInput) (pass : Pass) (record facts : CloseRecord) (tipHeight : UInt32) :
    RecordsKept pass.store.records (completeRecord input pass record facts tipHeight).store.records := by
  rw [completeRecord]
  split
  · exact .refl _
  · split
    · exact upsert_kept _ _
    · exact .refl _

theorem reconcileOneRecord_kept (input : PassInput) (pass : Pass) (record : CloseRecord) (tipChanged : Bool)
    (tipHeight : UInt32) : RecordsKept pass.store.records
      (reconcileOneRecord input pass record tipChanged tipHeight).1.store.records := by
  have hFacts := (collectFacts_asked input pass record tipChanged).kept
  rw [reconcileOneRecord]
  split
  · rename_i h
    rw [h] at hFacts
    exact hFacts
  · rename_i pass' facts h
    rw [h] at hFacts
    have hStored := hFacts.trans (storeFacts_kept pass' facts)
    split
    · exact hStored.trans (completeRecord_kept input _ record facts tipHeight)
    · exact hStored

/-! ## The rule -/

namespace PassRule

variable {input : PassInput} {P : CloseRecordStore → Prop} {Known : CloseRecord → Prop}
  {Listed : String → FundingTxoEntry → Prop} (rule : PassRule input P Known Listed)

include rule

theorem applyOps (n : Nat) {store : CloseRecordStore} (h : P store) :
    P (CloseRecords.applyOps (input.meanwhile n) store) := by
  exact List.foldlRecOn (input.meanwhile n) _ h fun store hStore op hOp => rule.meanwhile n op hOp store hStore

theorem asked {pass pass' : Pass} (hAsked : Asked input pass pass') (h : P pass.store) : P pass'.store := by
  induction hAsked with
  | refl => exact h
  | tail _ hStep ih =>
    obtain ⟨_, rfl⟩ := hStep
    exact rule.applyOps _ ih

theorem reconcileOneRecord {pass : Pass} {record : CloseRecord} (tipChanged : Bool) (tipHeight : UInt32)
    (h : P pass.store) (hKnown : Known record) (hHeld : pass.store.get record.channelId ≠ none) :
    P (CloseRecords.reconcileOneRecord input pass record tipChanged tipHeight).1.store := by
  have hAsked := collectFacts_asked input pass record tipChanged
  have hCollected := rule.asked hAsked h
  have hStillHeld := hAsked.kept.get_ne_none hHeld
  rw [CloseRecords.reconcileOneRecord]
  split
  · rename_i hFacts
    rw [hFacts] at hCollected
    exact hCollected
  · rename_i pass' facts hFacts
    rw [hFacts] at hCollected hStillHeld
    obtain ⟨factTxs, rfl, hTold⟩ := collectFacts_told input record hFacts
    have hStored : P (storeFacts pass' (factsRecord record factTxs)).store := by
      rw [storeFacts]
      split
      · exact hCollected
      · exact rule.facts _ record factTxs hCollected hKnown hStillHeld hTold
    have hStoredHeld := (storeFacts_kept pass' (factsRecord record factTxs)).get_ne_none hStillHeld
    split
    · dsimp only
      rw [completeRecord]
      split
      · exact hStored
      · split
        · exact rule.complete _ record factTxs _ hStored hKnown hStoredHeld hTold
        · exact hStored
    · exact hStored

theorem processRecords (tipChanged : Bool) (tipHeight : UInt32) {pass : Pass} {records : List CloseRecord}
    (h : P pass.store) (hKnown : ∀ record ∈ records, Known record)
    (hHeld : ∀ record ∈ records, pass.store.get record.channelId ≠ none) :
    P (CloseRecords.processRecords input tipChanged tipHeight pass records).store := by
  induction records generalizing pass with
  | nil => exact h
  | cons record rest ih =>
    rw [List.forall_mem_cons] at hKnown hHeld
    have hOne := rule.reconcileOneRecord tipChanged tipHeight h hKnown.1 hHeld.1
    have hKept := reconcileOneRecord_kept input pass record tipChanged tipHeight
    rw [CloseRecords.processRecords]
    split
    · rename_i hRound
      rw [hRound] at hOne hKept
      split
      · exact hOne
      · split
        · exact hOne
        · exact ih hOne hKnown.2 fun record' hMem => hKept.get_ne_none (hHeld.2 record' hMem)
    · rename_i hRound
      rw [hRound] at hOne hKept
      split
      · exact hOne
      · exact ih hOne hKnown.2 fun record' hMem => hKept.get_ne_none (hHeld.2 record' hMem)

theorem safetyNet {store : CloseRecordStore} {fundingMap : FundingTxos} (h : P store)
    (hListed : ∀ channelId txo, fundingMap.lookup channelId = some txo → Listed channelId txo) :
    P (CloseRecords.safetyNet input store fundingMap) := by
  refine List.foldlRecOn (input.fundingOrder.arrange fundingMap.toPairs) _ h ?_
  intro store hStore entry hEntry
  refine rule.net store entry.1 entry.2 hStore (hListed _ _ ?_)
  exact (StringMap.mem_toPairs _ _ _).mp ((input.fundingOrder.perm _).mem_iff.mp hEntry)

theorem reconcileAtTip {store : CloseRecordStore} {pendingRecords : List CloseRecord} {fundingMap : FundingTxos}
    (tipHeight : UInt32) (h : P store)
    (hListed : ∀ channelId txo, fundingMap.lookup channelId = some txo → Listed channelId txo) :
    P (CloseRecords.reconcileAtTip input store pendingRecords fundingMap tipHeight).store := by
  have hTip := rule.tip store tipHeight h
  rw [CloseRecords.reconcileAtTip]
  dsimp only
  split
  · exact hTip
  · generalize hStore : (if decide (store.lastTipHeight ≠ some tipHeight) = true then
      CloseRecords.safetyNet input (store.setLastTipHeight tipHeight) fundingMap
      else store.setLastTipHeight tipHeight) = netted
    have hNetted : P netted := by
      rw [← hStore]
      split
      · exact rule.safetyNet hTip hListed
      · exact hTip
    have hStored : ∀ record ∈ pendingSnapshot input.recordOrder netted.records,
        netted.get record.channelId = some record := fun record hRecord => ((mem_pendingSnapshot _ _ _).mp hRecord).1
    refine rule.processRecords _ tipHeight hNetted ?_ ?_
    · exact fun record hRecord => rule.known netted record hNetted (hStored record hRecord)
    · exact fun record hRecord => Option.ne_none_iff_exists'.mpr ⟨record, hStored record hRecord⟩

theorem reconcileCloseRecords {store : CloseRecordStore} (h : P store) :
    P (CloseRecords.reconcileCloseRecords input store).store := by
  have hListed := fun channelId txo => rule.listed store channelId txo h
  have hMeanwhile := rule.applyOps 0 h
  rw [CloseRecords.reconcileCloseRecords]
  dsimp only
  split
  · exact h
  · split
    · exact hMeanwhile
    · exact rule.reconcileAtTip _ hMeanwhile hListed

end PassRule

end WalletCore.CloseRecords
