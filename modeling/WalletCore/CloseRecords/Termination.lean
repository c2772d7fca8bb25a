import WalletCore.CloseRecords.SpendTruth

/-! # When a pending close terminates

The terminal rules read the first close transaction a record heard of, while discovery
appends the confirmed one behind it. This module says exactly when a late pass with
error-free answers completes the record.
-/

namespace WalletCore.CloseRecords

open Lib

/-! ## The answers of a late pass -/

namespace SpendTruth

/-- Error-free answers of a chain that has settled. -/
structure Tells (truth : SpendTruth) (input : PassInput) : Prop where
  spender : ∀ n, input.chain.outspend n truth.fundingTxo.txid truth.fundingTxo.vout = .ok (some truth.spender)
  outspends : ∀ n txid vout, ∃ spender, input.chain.outspend n txid vout = .ok spender
  heights : ∀ n txid, input.chain.txConfirmedHeight n txid = .ok (truth.conf txid)

/-- The questions a round asks about a record with a funding output. -/
def questions (record : CloseRecord) : Nat :=
  (if record.hasConfirmedCloseTx then 0 else 2) + record.txs.countP fun tx => tx.confirmedAtHeight.isNone

variable (truth : SpendTruth)

def discoveredTx (record : CloseRecord) : CloseRecordTx where
  txid := truth.spender
  role := if record.closeType = .coop then .closing else .commitment
  feeSats := none
  confirmedAtHeight := some truth.height

def discovered (record : CloseRecord) : List CloseRecordTx :=
  if record.hasConfirmedCloseTx then [] else [truth.discoveredTx record]

def toldTx (tx : CloseRecordTx) : CloseRecordTx := { tx with confirmedAtHeight := truth.conf tx.txid }

def filled (txs : List CloseRecordTx) : List CloseRecordTx :=
  txs.filterMap fun tx =>
    if tx.confirmedAtHeight.isSome then none
    else (truth.conf tx.txid).map fun height => { tx with confirmedAtHeight := some height }

variable {truth} {input : PassInput} (hTells : truth.Tells input)

theorem withBudget_of_budget {α : Type} {pass : Pass} (query : Nat → Except String (Option α))
    (h : pass.budget ≠ 0) : withBudget input pass query = (ask input pass, query pass.queries) := if_neg h

include hTells

theorem discoverCloseTx_tells {pass : Pass} {record : CloseRecord}
    (hTxo : record.fundingTxo = some truth.fundingTxo)
    (hBudget : (if record.hasConfirmedCloseTx then 0 else 2) ≤ pass.budget) :
    ∃ pass', discoverCloseTx input pass record = (pass', .ok (truth.discovered record)) ∧
      pass'.queries = pass.queries + if record.hasConfirmedCloseTx then 0 else 2 := by
  rw [discoverCloseTx, discovered, hTxo]
  cases hConfirmed : record.hasConfirmedCloseTx with
  | true => exact ⟨pass, rfl, rfl⟩
  | false =>
    rw [hConfirmed, if_neg Bool.false_ne_true] at hBudget
    have hFirst : pass.budget ≠ 0 := by omega
    have hSecond : (ask input pass).budget ≠ 0 := by
      simp only [ask]
      omega
    refine ⟨ask input (ask input pass), ?_, rfl⟩
    simp only [Option.filter_some, Bool.not_false, if_true, withBudget_of_budget _ hFirst, hTells.spender,
      withBudget_of_budget _ hSecond, hTells.heights, truth.confirmed]
    rfl

theorem fillHeights_tells {pass : Pass} {txs : List CloseRecordTx}
    (hBudget : (txs.countP fun tx => tx.confirmedAtHeight.isNone) ≤ pass.budget) :
    ∃ pass', fillHeights input pass txs = (pass', .ok (truth.filled txs)) ∧
      pass'.queries = pass.queries + txs.countP fun tx => tx.confirmedAtHeight.isNone := by
  induction txs generalizing pass with
  | nil => exact ⟨pass, rfl, rfl⟩
  | cons tx rest ih =>
    rw [List.countP_cons] at hBudget ⊢
    rw [fillHeights, filled, List.filterMap_cons]
    cases hHeight : tx.confirmedAtHeight with
    | some height =>
      rw [hHeight] at hBudget
      obtain ⟨pass', hRest, hQueries⟩ := @ih pass hBudget
      exact ⟨pass', hRest, hQueries⟩
    | none =>
      rw [hHeight] at hBudget
      simp only [Option.isNone_none, if_true] at hBudget ⊢
      have hFirst : pass.budget ≠ 0 := by omega
      have hLeft : (rest.countP fun tx => tx.confirmedAtHeight.isNone) ≤ (ask input pass).budget := by
        simp only [ask]
        omega
      obtain ⟨pass', hRest, hQueries⟩ := ih hLeft
      simp only [Option.isSome_none, Bool.false_eq_true, if_false, withBudget_of_budget _ hFirst, hTells.heights, hRest]
      refine ⟨pass', ?_, ?_⟩
      · cases truth.conf tx.txid <;> rfl
      · rw [hQueries]
        simp only [ask]
        omega

theorem collectFacts_tells {pass : Pass} {record : CloseRecord}
    (hTxo : record.fundingTxo = some truth.fundingTxo) (hBudget : questions record ≤ pass.budget) :
    ∃ pass', collectFacts input pass record true =
        (pass', .ok (factsRecord record (truth.discovered record ++ truth.filled record.txs))) ∧
      pass'.queries = pass.queries + questions record := by
  rw [questions] at hBudget ⊢
  obtain ⟨pass₁, hFirst, hQueries₁⟩ := discoverCloseTx_tells hTells hTxo (by omega : _ ≤ pass.budget)
  have hSum := (discoverCloseTx_asked input pass record).budget_add_queries
  rw [hFirst] at hSum
  have hLeft : (record.txs.countP fun tx => tx.confirmedAtHeight.isNone) ≤ pass₁.budget := by
    simp only at hSum
    omega
  obtain ⟨pass₂, hSecond, hQueries₂⟩ := fillHeights_tells hTells hLeft
  refine ⟨pass₂, ?_, by omega⟩
  simp only [collectFacts, hFirst, if_true, hSecond]

end SpendTruth

/-! ## The record after the merge -/

theorem mergeTx_append {txs : List CloseRecordTx} {tx : CloseRecordTx} (h : tx.txid ∉ txs.map CloseRecordTx.txid)
    (rest : List CloseRecordTx) : mergeTx (txs ++ rest) tx = txs ++ mergeTx rest tx := by
  induction txs with
  | nil => rfl
  | cons existing others ih =>
    rw [List.map_cons, List.mem_cons, not_or] at h
    rw [List.cons_append, mergeTx, if_neg (Ne.symm h.1), ih h.2, List.cons_append]

namespace SpendTruth

variable {truth : SpendTruth}

theorem TxOk.toldTx_eq {tx : CloseRecordTx} (h : truth.TxOk tx) (hHeight : tx.confirmedAtHeight.isSome = true) :
    truth.toldTx tx = tx := by
  obtain ⟨height, hHeight⟩ := Option.isSome_iff_exists.mp hHeight
  rw [toldTx, h.height height hHeight, ← hHeight]

/-- A transaction as it was, or already with the height the chain knows. -/
def Partly (truth : SpendTruth) (tx tx' : CloseRecordTx) : Prop := tx' = tx ∨ tx' = truth.toldTx tx

theorem fillTx_told {existing tx : CloseRecordTx} (hOk : truth.TxOk existing)
    (hFee : tx.feeSats = none ∨ tx.feeSats = existing.feeSats)
    (hHeight : tx.confirmedAtHeight = truth.conf existing.txid) : fillTx existing tx = truth.toldTx existing := by
  have hFees : existing.feeSats.or tx.feeSats = existing.feeSats := by
    rcases hFee with hFee | hFee <;> rw [hFee]
    · exact Option.or_none
    · exact Option.or_self
  have hHeights : existing.confirmedAtHeight.or tx.confirmedAtHeight = truth.conf existing.txid := by
    rw [hHeight]
    cases hExisting : existing.confirmedAtHeight with
    | none => rfl
    | some height => exact (hOk.height height hExisting).symm
  rw [fillTx, toldTx, hFees, hHeights]

theorem TxOk.told {tx : CloseRecordTx} (h : truth.TxOk tx) : truth.TxOk (truth.toldTx tx) := ⟨.refl _, h.spends⟩

theorem fillTx_partly {tx tx' : CloseRecordTx} (hOk : truth.TxOk tx) (h : truth.Partly tx tx') :
    fillTx tx' (truth.toldTx tx) = truth.toldTx tx := by
  rcases h with rfl | rfl
  · exact fillTx_told hOk (.inr rfl) rfl
  · exact fillTx_told hOk.told (.inr rfl) rfl

theorem mergeTxs_filled {txs txs' : List CloseRecordTx} (hPartly : List.Forall₂ truth.Partly txs txs')
    (hTxs : ∀ tx ∈ txs, truth.TxOk tx) (before after : List CloseRecordTx)
    (hNodup : ((before ++ txs).map CloseRecordTx.txid).Nodup) :
    mergeTxs (before ++ txs' ++ after) (truth.filled txs) = before ++ txs.map truth.toldTx ++ after := by
  induction hPartly generalizing before with
  | nil => rfl
  | @cons tx tx' rest rest' hTx hRest ih =>
    rw [List.forall_mem_cons] at hTxs
    have hId : tx'.txid = (truth.toldTx tx).txid := by rcases hTx with rfl | rfl <;> rfl
    have hNew : (truth.toldTx tx).txid ∉ before.map CloseRecordTx.txid := by
      rw [List.map_append, List.nodup_append] at hNodup
      exact fun hMem => hNodup.2.2 _ hMem tx.txid List.mem_cons_self rfl
    -- The first transaction joins the settled front.
    have hFront := ih hTxs.2 (before ++ [truth.toldTx tx]) (by simpa [toldTx] using hNodup)
    have hFinish : before ++ (tx :: rest).map truth.toldTx ++ after =
        before ++ [truth.toldTx tx] ++ rest.map truth.toldTx ++ after := by simp
    have hAssoc : before ++ truth.toldTx tx :: rest' ++ after =
        before ++ [truth.toldTx tx] ++ rest' ++ after := by simp
    rw [hFinish, ← hFront, ← hAssoc]
    by_cases hFilled : tx.confirmedAtHeight = none ∧ ∃ height, truth.conf tx.txid = some height
    · obtain ⟨hHeight, height, hConf⟩ := hFilled
      have hHead : truth.filled (tx :: rest) = truth.toldTx tx :: truth.filled rest := by
        simp [filled, toldTx, hHeight, hConf]
      have hMerge : mergeTx (before ++ tx' :: rest' ++ after) (truth.toldTx tx) =
          before ++ truth.toldTx tx :: rest' ++ after := by
        rw [List.append_assoc, mergeTx_append hNew, List.cons_append, mergeTx,
          if_pos hId, fillTx_partly hTxs.1 hTx, List.append_assoc]
        rfl
      rw [hHead, mergeTxs, List.foldl_cons, hMerge, mergeTxs]
    · -- Nothing to fill in: the chain knows no height, or the record had it.
      have hSame : truth.toldTx tx = tx := by
        cases hHeight : tx.confirmedAtHeight with
        | some height => exact hTxs.1.toldTx_eq (hHeight ▸ rfl)
        | none =>
          have hConf : truth.conf tx.txid = none := by
            by_contra hConf
            exact hFilled ⟨hHeight, Option.ne_none_iff_exists'.mp hConf⟩
          rw [toldTx, hConf, ← hHeight]
      have hHead : truth.filled (tx :: rest) = truth.filled rest := by
        rw [filled, List.filterMap_cons]
        split
        · rfl
        · rename_i hSome
          split at hSome
          · cases hSome
          · rename_i hNone
            obtain ⟨height, hConf, _⟩ := Option.map_eq_some_iff.mp hSome
            rw [Bool.not_eq_true, Option.isSome_eq_false_iff, Option.isNone_iff_eq_none] at hNone
            exact absurd ⟨hNone, height, hConf⟩ hFilled
      have hTx' : tx' = truth.toldTx tx := by
        rcases hTx with rfl | rfl
        · exact hSame.symm
        · rfl
      rw [hHead, hTx']

/-- The transactions of the record as the chain knows them, with the spender if it was missing. -/
def toldTxs (truth : SpendTruth) (record : CloseRecord) : List CloseRecordTx :=
  record.txs.map truth.toldTx ++
    if record.hasConfirmedCloseTx = false ∧ truth.spender ∉ record.txs.map CloseRecordTx.txid then
      [truth.discoveredTx record]
    else []

theorem mergeTx_discovered {record : CloseRecord} {txs : List CloseRecordTx} (hTxs : ∀ tx ∈ txs, truth.TxOk tx)
    (hSpender : truth.spender ∈ txs.map CloseRecordTx.txid) :
    List.Forall₂ truth.Partly txs (mergeTx txs (truth.discoveredTx record)) := by
  induction txs with
  | nil => cases hSpender
  | cons existing rest ih =>
    rw [List.forall_mem_cons] at hTxs
    rw [mergeTx]
    split
    · rename_i hId
      refine .cons (.inr ?_) (List.forall₂_same.mpr fun _ _ => .inl rfl)
      refine fillTx_told hTxs.1 (.inl rfl) ?_
      rw [show existing.txid = truth.spender from hId, truth.confirmed]
      rfl
    · rename_i hId
      refine .cons (.inl rfl) (ih hTxs.2 ?_)
      rw [List.map_cons, List.mem_cons] at hSpender
      exact hSpender.resolve_left (Ne.symm hId)

theorem mergeTxs_told {record : CloseRecord} (h : truth.RecordOk record) :
    mergeTxs record.txs (truth.discovered record ++ truth.filled record.txs) = truth.toldTxs record := by
  have hNodup : (([] ++ record.txs).map CloseRecordTx.txid).Nodup := h.nodup
  have hSame : List.Forall₂ truth.Partly record.txs record.txs := List.forall₂_same.mpr fun _ _ => .inl rfl
  rw [discovered, toldTxs]
  cases hConfirmed : record.hasConfirmedCloseTx with
  | true =>
    have hFilled := mergeTxs_filled hSame h.txs [] [] hNodup
    simpa using hFilled
  | false =>
    by_cases hSpender : truth.spender ∈ record.txs.map CloseRecordTx.txid
    · have hDiscovered : List.Forall₂ truth.Partly record.txs (mergeTx record.txs (truth.discoveredTx record)) :=
        mergeTx_discovered h.txs hSpender
      have hFilled := mergeTxs_filled hDiscovered h.txs [] [] hNodup
      rw [if_neg Bool.false_ne_true, if_neg (fun hAnd => hAnd.2 hSpender)]
      simpa [mergeTxs] using hFilled
    · have hAppend : mergeTx record.txs (truth.discoveredTx record) = record.txs ++ [truth.discoveredTx record] := by
        simpa [mergeTx] using mergeTx_append hSpender []
      have hFilled := mergeTxs_filled hSame h.txs [] [truth.discoveredTx record] hNodup
      rw [if_neg Bool.false_ne_true, if_pos ⟨rfl, hSpender⟩]
      simpa [mergeTxs, hAppend] using hFilled

/-! ## What the completion rules see -/

theorem TxOk.close_height {tx : CloseRecordTx} (h : truth.TxOk tx) (hClose : tx.role.isClose = true)
    {height : UInt32} (hHeight : tx.confirmedAtHeight = some height) : height = truth.height := by
  have hConf := h.height height hHeight
  rcases h.spends hClose with hSpender | hNone
  · rw [hSpender, truth.confirmed] at hConf
    exact (Option.some.inj hConf).symm
  · rw [hNone] at hConf
    cases hConf

/-- The first close transaction of the record is the one that confirmed; a record without one gets it. -/
def FirstCloseIsSpender (truth : SpendTruth) (record : CloseRecord) : Prop :=
  match record.txs.find? fun tx => tx.role.isClose with
  | some tx => tx.txid = truth.spender
  | none => truth.spender ∉ record.txs.map CloseRecordTx.txid

theorem discoveredTx_isClose (record : CloseRecord) : (truth.discoveredTx record).role.isClose = true := by
  rw [discoveredTx]
  dsimp only
  split <;> rfl

theorem find_toldTxs (record : CloseRecord) : ((truth.toldTxs record).find? fun tx => tx.role.isClose) =
    ((record.txs.find? fun tx => tx.role.isClose).map truth.toldTx).or
      (if record.hasConfirmedCloseTx = false ∧ truth.spender ∉ record.txs.map CloseRecordTx.txid then
        some (truth.discoveredTx record) else none) := by
  rw [toldTxs, List.find?_append, List.find?_map]
  congr 1
  split
  · rw [List.find?_singleton, if_pos (discoveredTx_isClose record)]
  · rfl

theorem closeHeight_spender {record merged : CloseRecord} (hTxs : merged.txs = truth.toldTxs record)
    (hFirst : truth.FirstCloseIsSpender record) : closeHeight merged = some truth.height := by
  rw [closeHeight, hTxs, find_toldTxs]
  rw [FirstCloseIsSpender] at hFirst
  split at hFirst
  · rename_i tx hFind
    rw [hFind, Option.map_some, Option.some_or, Option.bind_some, toldTx, hFirst]
    exact truth.confirmed
  · rename_i hFind
    have hConfirmed : record.hasConfirmedCloseTx = false := by
      rw [CloseRecord.hasConfirmedCloseTx, List.any_eq_false]
      intro tx hTx
      simp [Bool.eq_false_of_not_eq_true (List.find?_eq_none.mp hFind tx hTx)]
    rw [hFind, if_pos ⟨hConfirmed, hFirst⟩]
    rfl

theorem closeHeight_superseded {record merged : CloseRecord} (h : truth.RecordOk record)
    (hTxs : merged.txs = truth.toldTxs record) (hFirst : ¬ truth.FirstCloseIsSpender record) :
    closeHeight merged = none := by
  rw [closeHeight, hTxs, find_toldTxs]
  rw [FirstCloseIsSpender] at hFirst
  split at hFirst
  · rename_i tx hFind
    have hOk := h.txs tx (List.mem_of_find?_eq_some hFind)
    have hClose : tx.role.isClose = true := by simpa using List.find?_some hFind
    rw [hFind, Option.map_some, Option.some_or, Option.bind_some, toldTx]
    exact (hOk.spends hClose).resolve_left hFirst
  · rename_i hFind
    rw [hFind, if_neg (fun hAnd => hFirst hAnd.2)]
    rfl

theorem filled_ok {txs : List CloseRecordTx} (hTxs : ∀ tx ∈ txs, truth.TxOk tx) :
    ∀ tx ∈ truth.filled txs, truth.TxOk tx := by
  intro tx hTx
  obtain ⟨known, hKnown, hSome⟩ := List.mem_filterMap.mp hTx
  split at hSome
  · cases hSome
  · obtain ⟨height, hConf, rfl⟩ := Option.map_eq_some_iff.mp hSome
    refine ⟨?_, (hTxs known hKnown).spends⟩
    rintro _ ⟨⟩
    exact hConf

/-- A timelock expiry this pass derives is the confirmation height plus the timelock. -/
def derivedClaimable (truth : SpendTruth) (record : CloseRecord) : Option UInt32 :=
  if record.claimableAtHeight = none ∧ record.closeType ≠ .coop ∧ record.initiator ≠ .remote then
    record.timelockBlocks.map fun timelock => truth.height + timelock
  else none

theorem deriveClaimable_told {record : CloseRecord} (h : truth.RecordOk record) :
    deriveClaimable record (truth.discovered record ++ truth.filled record.txs) = truth.derivedClaimable record := by
  have hFound : (((truth.discovered record ++ truth.filled record.txs) ++ record.txs).find?
      fun tx => tx.role.isClose && tx.confirmedAtHeight.isSome).bind CloseRecordTx.confirmedAtHeight =
      some truth.height := by
    rw [discovered]
    cases hConfirmed : record.hasConfirmedCloseTx with
    | false =>
      rw [if_neg Bool.false_ne_true, List.cons_append, List.cons_append, List.find?_cons_of_pos]
      · rfl
      · rw [discoveredTx_isClose]
        rfl
    | true =>
      obtain ⟨tx, hTx, hTest⟩ := List.any_eq_true.mp hConfirmed
      rw [if_pos rfl]
      cases hFind : (([] ++ truth.filled record.txs) ++ record.txs).find?
          fun (tx : CloseRecordTx) => tx.role.isClose && tx.confirmedAtHeight.isSome with
      | none => exact absurd hTest (List.find?_eq_none.mp hFind tx (List.mem_append_right _ hTx))
      | some found =>
        have hFoundOk : truth.TxOk found := by
          rcases List.mem_append.mp (List.mem_of_find?_eq_some hFind) with hMem | hMem
          · exact filled_ok h.txs found hMem
          · exact h.txs found hMem
        have hFoundTest := List.find?_some hFind
        rw [Bool.and_eq_true] at hFoundTest
        obtain ⟨height, hHeight⟩ := Option.isSome_iff_exists.mp hFoundTest.2
        rw [Option.bind_some, hHeight, hFoundOk.close_height hFoundTest.1 hHeight]
  rw [deriveClaimable, derivedClaimable]
  split
  · rw [hFound]
    cases record.timelockBlocks <;> rfl
  · rfl

end SpendTruth

/-! ## One round -/

theorem completionOf_isSome (input : PassInput) (n : Nat) (tipHeight : UInt32) (current : CloseRecord) :
    (completionOf input n tipHeight current).isSome = true ↔
      hasReceipt input n tipHeight current = true ∨
      (claimGate tipHeight current = true ∧ deepConf tipHeight (closeHeight current) = true ∧
        (current.expectedAmountSats = some 0 ∨ terminalRule tipHeight current = true)) := by
  rw [completionOf]
  cases hasReceipt input n tipHeight current <;> cases claimGate tipHeight current <;>
    cases deepConf tipHeight (closeHeight current) <;> cases terminalRule tipHeight current <;>
    by_cases hAmount : current.expectedAmountSats = some 0 <;> simp [hAmount]

theorem mergedFacts_txs (record : CloseRecord) (factTxs : List CloseRecordTx) :
    (mergedFacts record (factsRecord record factTxs)).txs = mergeTxs record.txs factTxs := by
  rw [mergedFacts]
  split
  · rename_i h
    rw [show factTxs = [] from h.1]
    rfl
  · rfl

theorem mergedFacts_claimableAtHeight (record : CloseRecord) (factTxs : List CloseRecordTx) :
    (mergedFacts record (factsRecord record factTxs)).claimableAtHeight =
      (deriveClaimable record factTxs).or record.claimableAtHeight := by
  rw [mergedFacts]
  split
  · rename_i h
    rw [show deriveClaimable record factTxs = none from h.2]
    rfl
  · rfl

theorem reconcileOneRecord_completed_iff {input : PassInput} (hAlone : input.Alone) {pass pass' : Pass}
    {record : CloseRecord} {factTxs : List CloseRecordTx} {tipHeight : UInt32}
    (hFacts : collectFacts input pass record true = (pass', .ok (factsRecord record factTxs)))
    (hGet : pass.store.get record.channelId = some record) (hPending : record.completedAtMs = none)
    (hSweep : record.channelId ∉ input.pendingSweepChannels) :
    (∃ after, (reconcileOneRecord input pass record true tipHeight).1.store.get record.channelId = some after ∧
        after.completedAtMs ≠ none) ↔
      (completionOf input pass'.queries tipHeight (mergedFacts record (factsRecord record factTxs))).isSome = true := by
  rw [← collectFacts_store hAlone hFacts] at hGet
  have hStored := storeFacts_get record (factsRecord record factTxs) rfl hGet
  have hQueries : (storeFacts pass' (factsRecord record factTxs)).queries = pass'.queries := by
    rw [storeFacts]
    split <;> rfl
  simp only [reconcileOneRecord, hFacts, if_true]
  rw [completeRecord, hStored, Option.getD_some, mergedFacts_channelId, if_neg hSweep, hQueries]
  cases completionOf input pass'.queries tipHeight (mergedFacts record (factsRecord record factTxs)) with
  | none =>
    rw [hStored]
    constructor
    · rintro ⟨after, hAfter, hDone⟩
      cases hAfter
      exact absurd ((mergedFacts_completedAtMs record factTxs).trans hPending) hDone
    · intro h
      cases h
  | some resolution =>
    refine iff_of_true ⟨_, (get_upsert _ _ _).trans (if_pos rfl), ?_⟩ rfl
    rw [show (completionRecord (factsRecord record factTxs) input.nowMs resolution).channelId = record.channelId
      from rfl, hStored]
    rw [show (mergeCloseRecords (mergedFacts record (factsRecord record factTxs))
      (completionRecord (factsRecord record factTxs) input.nowMs resolution)).completedAtMs =
        (mergedFacts record (factsRecord record factTxs)).completedAtMs.or (some input.nowMs) from rfl,
      mergedFacts_completedAtMs, hPending]
    exact Option.some_ne_none _

namespace SpendTruth

variable {truth : SpendTruth}

/-- Late enough for every rule: six blocks after the longest timelock and after a known expiry. -/
structure Late (truth : SpendTruth) (record : CloseRecord) (tipHeight : UInt32) : Prop where
  height : truth.height.toNat + 2016 + 6 ≤ tipHeight.toNat
  claimable : ∀ claimable, record.claimableAtHeight = some claimable → claimable.toNat + 6 ≤ tipHeight.toNat

/-- A timelock expiry derived in this very pass has passed too. -/
def TimelockPast (truth : SpendTruth) (record : CloseRecord) (tipHeight : UInt32) : Prop :=
  ∀ claimable, truth.derivedClaimable record = some claimable → claimable ≤ tipHeight

/-- Our own wallet has seen one of the transactions confirm deeply. -/
def WalletReceipt (truth : SpendTruth) (wallet : String → Bool) (record : CloseRecord) (tipHeight : UInt32) : Prop :=
  ∃ tx ∈ truth.toldTxs record, isReceiptRole tx.role = true ∧
    deepConf tipHeight (truth.conf tx.txid) = true ∧ wallet tx.txid = true

theorem toldTxs_height {record : CloseRecord} {tx : CloseRecordTx} (hTx : tx ∈ truth.toldTxs record) :
    tx.confirmedAtHeight = truth.conf tx.txid := by
  rcases List.mem_append.mp hTx with hTx | hTx
  · obtain ⟨known, _, rfl⟩ := List.mem_map.mp hTx
    rfl
  · split at hTx
    · rw [List.mem_singleton] at hTx
      subst hTx
      exact truth.confirmed.symm
    · cases hTx

theorem hasReceipt_told {input : PassInput} {n : Nat} {tipHeight : UInt32} {record merged : CloseRecord}
    (hTxs : merged.txs = truth.toldTxs record) :
    hasReceipt input n tipHeight merged = true ↔
      truth.WalletReceipt (input.txConfirmedInWallet n) record tipHeight := by
  rw [hasReceipt, hTxs, List.any_eq_true]
  constructor
  · rintro ⟨tx, hTx, hTest⟩
    rw [Bool.and_eq_true, Bool.and_eq_true, toldTxs_height hTx] at hTest
    exact ⟨tx, hTx, hTest.1.1, hTest.1.2, hTest.2⟩
  · rintro ⟨tx, hTx, hRole, hDeep, hWallet⟩
    refine ⟨tx, hTx, ?_⟩
    rw [toldTxs_height hTx, hRole, hDeep, hWallet]
    rfl

theorem deepConf_late {record : CloseRecord} {tipHeight : UInt32} (h : truth.Late record tipHeight) :
    deepConf tipHeight (some truth.height) = true := by
  have hHeight := h.height
  have hPos := truth.height_pos
  have hTip := u32_lt tipHeight
  have hLe : truth.height ≤ tipHeight := by
    rw [UInt32.le_iff_toNat_le]
    omega
  rw [deepConf, Option.any_some, decide_eq_true_eq, confirmations, saturatingSub, if_pos hLe, UInt32.le_iff_toNat_le,
    UInt32.toNat_add, UInt32.toNat_sub_of_le _ _ hLe, show finalityConfs.toNat = 6 from rfl, UInt32.toNat_one]
  omega

theorem terminalRule_late {record merged : CloseRecord} {tipHeight : UInt32} (h : truth.Late record tipHeight)
    (hHeight : closeHeight merged = some truth.height) : terminalRule tipHeight merged = true := by
  have hLate := h.height
  have hTip := u32_lt tipHeight
  rw [terminalRule, hHeight, Option.any_some, Bool.or_eq_true, decide_eq_true_eq]
  right
  rw [UInt32.le_iff_toNat_le, UInt32.toNat_add, UInt32.toNat_add, show finalityConfs.toNat = 6 from rfl,
    show maxTimelockBlocks.toNat = 2016 from rfl]
  omega

theorem claimGate_told {record merged : CloseRecord} {tipHeight : UInt32} (h : truth.Late record tipHeight)
    (hClaimable : merged.claimableAtHeight = (truth.derivedClaimable record).or record.claimableAtHeight) :
    claimGate tipHeight merged = true ↔ truth.TimelockPast record tipHeight := by
  rw [claimGate, hClaimable, TimelockPast]
  cases hDerived : truth.derivedClaimable record with
  | some claimable => simp
  | none =>
    rw [Option.none_or]
    refine iff_of_true ?_ (fun _ hNone => by cases hNone)
    cases hKnown : record.claimableAtHeight with
    | none => rfl
    | some claimable =>
      rw [Option.all_some, decide_eq_true_eq, UInt32.le_iff_toNat_le]
      have := h.claimable claimable hKnown
      omega

theorem reconcileOneRecord_late {input : PassInput} (hAlone : input.Alone) (hTells : truth.Tells input) {pass : Pass}
    {record : CloseRecord} {tipHeight : UInt32} (hOk : truth.RecordOk record)
    (hTxo : record.fundingTxo = some truth.fundingTxo) (hGet : pass.store.get record.channelId = some record)
    (hPending : record.completedAtMs = none) (hSweep : record.channelId ∉ input.pendingSweepChannels)
    (hLate : truth.Late record tipHeight) (hBudget : questions record ≤ pass.budget) :
    (∃ after, (reconcileOneRecord input pass record true tipHeight).1.store.get record.channelId = some after ∧
        after.completedAtMs ≠ none) ↔
      truth.WalletReceipt (input.txConfirmedInWallet (pass.queries + questions record)) record tipHeight ∨
        (truth.FirstCloseIsSpender record ∧ truth.TimelockPast record tipHeight) := by
  obtain ⟨pass', hFacts, hQueries⟩ := collectFacts_tells hTells hTxo hBudget
  have hTxs := (mergedFacts_txs record _).trans (mergeTxs_told hOk)
  have hClaimable := mergedFacts_claimableAtHeight record (truth.discovered record ++ truth.filled record.txs)
  rw [deriveClaimable_told hOk] at hClaimable
  rw [reconcileOneRecord_completed_iff hAlone hFacts hGet hPending hSweep, completionOf_isSome, hasReceipt_told hTxs,
    claimGate_told hLate hClaimable, hQueries]
  refine or_congr Iff.rfl ?_
  by_cases hFirst : truth.FirstCloseIsSpender record
  · have hHeight := closeHeight_spender hTxs hFirst
    rw [hHeight, deepConf_late hLate, terminalRule_late hLate hHeight]
    simp [hFirst]
  · rw [closeHeight_superseded hOk hTxs hFirst]
    simp [hFirst, deepConf]

/-! ## The whole pass -/

section ErrorFree

variable {input : PassInput} (hTells : truth.Tells input)

include hTells

theorem discoverCloseTx_ok (pass : Pass) (record : CloseRecord) :
    ∃ pass' txs, discoverCloseTx input pass record = (pass', .ok txs) := by
  have hQuery : ∀ {α : Type} (p : Pass) (query : Nat → Except String (Option α)),
      (∀ n, ∃ a, query n = .ok a) → ∃ p' a, withBudget input p query = (p', .ok a) := by
    intro α p query hOk
    rw [withBudget]
    split
    · exact ⟨_, _, rfl⟩
    · obtain ⟨a, ha⟩ := hOk p.queries
      exact ⟨_, a, by rw [ha]⟩
  rw [discoverCloseTx]
  split
  · exact ⟨_, _, rfl⟩
  · rename_i txo _
    obtain ⟨p₁, a₁, h₁⟩ := hQuery pass (fun n => input.chain.outspend n txo.txid txo.vout)
      fun n => hTells.outspends n _ _
    rw [h₁]
    cases a₁ with
    | none => exact ⟨_, _, rfl⟩
    | some spender =>
      obtain ⟨p₂, a₂, h₂⟩ := hQuery p₁ (fun n => input.chain.txConfirmedHeight n spender)
        fun n => ⟨_, hTells.heights n spender⟩
      simp only [h₂]
      exact ⟨_, _, rfl⟩

theorem fillHeights_ok (pass : Pass) (txs : List CloseRecordTx) :
    ∃ pass' filled, fillHeights input pass txs = (pass', .ok filled) := by
  induction txs generalizing pass with
  | nil => exact ⟨_, _, rfl⟩
  | cons tx rest ih =>
    rw [fillHeights]
    split
    · exact ih pass
    · rw [withBudget]
      by_cases hBudget : pass.budget = 0
      · obtain ⟨pass', filled, hRest⟩ := ih pass
        simp only [hBudget, if_true, hRest]
        exact ⟨_, _, rfl⟩
      · obtain ⟨pass', filled, hRest⟩ := ih (ask input pass)
        simp only [hBudget, if_false, hTells.heights, hRest]
        cases truth.conf tx.txid <;> exact ⟨_, _, rfl⟩

theorem reconcileOneRecord_ok (pass : Pass) (record : CloseRecord) (tipHeight : UInt32) :
    ∃ pass', reconcileOneRecord input pass record true tipHeight = (pass', .ok ()) := by
  obtain ⟨pass₁, discovered, hDiscovered⟩ := discoverCloseTx_ok hTells pass record
  obtain ⟨pass₂, filled, hFilled⟩ := fillHeights_ok hTells pass₁ record.txs
  simp only [reconcileOneRecord, collectFacts, hDiscovered, if_true, hFilled]
  exact ⟨_, rfl⟩

/-- Without errors a pass that still has budget goes on to the next record. -/
theorem processRecords_append (tipHeight : UInt32) (pass : Pass) (before after : List CloseRecord)
    (hBudget : (processRecords input true tipHeight pass before).budget ≠ 0) :
    processRecords input true tipHeight pass (before ++ after) =
      processRecords input true tipHeight (processRecords input true tipHeight pass before) after := by
  induction before generalizing pass with
  | nil => rfl
  | cons record rest ih =>
    obtain ⟨pass', hRound⟩ := reconcileOneRecord_ok hTells pass record tipHeight
    rw [processRecords, hRound] at hBudget
    rw [List.cons_append, processRecords, processRecords, hRound]
    dsimp only at hBudget ⊢
    split at hBudget
    · rename_i hZero
      exact absurd hZero hBudget
    · rename_i hLeft
      rw [if_neg hLeft, if_neg hLeft]
      exact ih pass' hBudget

end ErrorFree

/-- The pass as it comes to the record: all newer pending records have had their rounds. -/
structure Reaches (input : PassInput) (store : CloseRecordStore) (record : CloseRecord) (tipHeight : UInt32)
    (before after : List CloseRecord) : Prop where
  newTip : input.chain.tipHeight = .ok tipHeight ∧ store.lastTipHeight ≠ some tipHeight
  order : pendingSnapshot input.recordOrder (netted input store tipHeight).records = before ++ record :: after
  budget : questions record ≤
    (processRecords input true tipHeight (.start (netted input store tipHeight)) before).budget
  goesOn : (processRecords input true tipHeight (.start (netted input store tipHeight)) before).budget ≠ 0

/-- How many questions the pass has asked when it decides about the record. -/
def asked (input : PassInput) (store : CloseRecordStore) (record : CloseRecord) (tipHeight : UInt32)
    (before : List CloseRecord) : Nat :=
  (processRecords input true tipHeight (.start (netted input store tipHeight)) before).queries + questions record

theorem netted_get {input : PassInput} {store : CloseRecordStore} {tipHeight : UInt32} {channelId : String}
    {record : CloseRecord} (h : store.get channelId = some record) :
    (netted input store tipHeight).get channelId = some record := by
  rcases safetyNet_get input (store.setLastTipHeight tipHeight) store.fundingTxos channelId with hGet | ⟨hNone, _⟩
  · exact hGet.trans h
  · exact absurd (hNone.symm.trans h) (Option.some_ne_none record).symm

theorem reconcileCloseRecords_late {input : PassInput} (hAlone : input.Alone) (hTells : truth.Tells input)
    {store : CloseRecordStore} {record : CloseRecord} {tipHeight : UInt32} (hOk : truth.RecordOk record)
    (hTxo : record.fundingTxo = some truth.fundingTxo) (hGet : store.get record.channelId = some record)
    (hPending : record.completedAtMs = none) (hSweep : record.channelId ∉ input.pendingSweepChannels)
    (hLate : truth.Late record tipHeight) {before after : List CloseRecord}
    (hReaches : Reaches input store record tipHeight before after) :
    (∃ final, (reconcileCloseRecords input store).store.get record.channelId = some final ∧
        final.completedAtMs ≠ none) ↔
      truth.WalletReceipt (input.txConfirmedInWallet (asked input store record tipHeight before)) record tipHeight ∨
        (truth.FirstCloseIsSpender record ∧ truth.TimelockPast record tipHeight) := by
  have hListed : pendingSnapshot input.recordOrder store.records ≠ [] :=
    List.ne_nil_of_mem ((mem_pendingSnapshot _ store record).mpr ⟨hGet, hPending⟩)
  have hNodup := pendingSnapshot_nodup input.recordOrder (netted input store tipHeight)
  rw [hReaches.order, List.map_append, List.map_cons, List.nodup_append, List.nodup_cons] at hNodup
  have hBefore : record.channelId ∉ before.map CloseRecord.channelId := fun hMem =>
    hNodup.2.2 _ hMem _ List.mem_cons_self rfl
  have hHeld := (processRecords_get_ne hAlone true tipHeight (.start (netted input store tipHeight)) before
    hBefore).trans (netted_get hGet)
  have hRound := reconcileOneRecord_late hAlone hTells hOk hTxo hHeld hPending hSweep hLate hReaches.budget
  rw [reconcileCloseRecords_newTip hAlone hListed hReaches.newTip.1 hReaches.newTip.2, hReaches.order,
    processRecords_append hTells _ _ _ _ hReaches.goesOn]
  rw [asked, ← hRound]
  generalize processRecords input true tipHeight (.start (netted input store tipHeight)) before = pass
  obtain ⟨pass', hEq⟩ := reconcileOneRecord_ok hTells pass record tipHeight
  have hAfter : (processRecords input true tipHeight pass (record :: after)).store.get record.channelId =
      (reconcileOneRecord input pass record true tipHeight).1.store.get record.channelId := by
    rw [processRecords, hEq]
    dsimp only
    split
    · rfl
    · exact processRecords_get_ne hAlone _ _ _ after hNodup.2.1.1
  rw [hAfter]

/-- After every history of true signals and passes, a late pass with error-free answers and budget left
for a pending record with a funding output completes it just when our wallet has a receipt, or the
first close transaction the record heard of is the one that confirmed and no timelock is left. -/
theorem lateness_completes_iff (truth : SpendTruth) (start : CloseRecordStore) (hStart : truth.StoreOk start)
    (history : List Op) (hHistory : ∀ op ∈ history, truth.AdmitsOp op) (record : CloseRecord)
    (hGet : (runOps history start).get truth.channelId = some record) (hPending : record.completedAtMs = none)
    (hTxo : record.fundingTxo ≠ none) (input : PassInput) (hAlone : input.Alone) (hTells : truth.Tells input)
    (hSweep : truth.channelId ∉ input.pendingSweepChannels) (tipHeight : UInt32)
    (hLate : truth.Late record tipHeight) (before after : List CloseRecord)
    (hReaches : Reaches input (runOps history start) record tipHeight before after) :
    (∃ final, (reconcileCloseRecords input (runOps history start)).store.get truth.channelId = some final ∧
        final.completedAtMs ≠ none) ↔
      truth.WalletReceipt (input.txConfirmedInWallet (asked input (runOps history start) record tipHeight before))
          record tipHeight ∨
        (truth.FirstCloseIsSpender record ∧ truth.TimelockPast record tipHeight) := by
  have hOk := (runOps_ok history hHistory hStart).record record hGet
  have hId : record.channelId = truth.channelId := (runOps history start).keyed _ record hGet
  obtain ⟨txo, hTxo⟩ := Option.ne_none_iff_exists'.mp hTxo
  cases hOk.fundingTxo txo hTxo
  rw [← hId] at hGet hSweep ⊢
  exact reconcileCloseRecords_late hAlone hTells hOk hTxo hGet hPending hSweep hLate hReaches

/-! ## A superseded commitment -/

/-- The counterparty's commitment spent the funding output at height 100. -/
def theirs : SpendTruth where
  channelId := "c"
  fundingTxo := ⟨"f", 0⟩
  conf txid := if txid = "theirs" then some 100 else none
  spender := "theirs"
  height := 100
  confirmed := rfl
  height_pos := by decide

/-- The record of a force close before any transaction is known. -/
def closedRecord : CloseRecord :=
  { CloseRecord.skeleton "c" 0 with fundingTxo := some ⟨"f", 0⟩, closeType := .force }

/-- The first pass at height 2122, six blocks after the longest timelock. -/
def settledInput : PassInput where
  chain := {
    tipHeight := .ok 2122
    outspend := fun _ _ _ => .ok (some "theirs")
    txConfirmedHeight := fun _ txid => .ok (theirs.conf txid) }
  txConfirmedInWallet _ _ := false
  openChannelIds := []
  pendingSweepChannels := []
  nowMs := 1
  recordOrder := .keep _
  fundingOrder := .keep _
  meanwhile _ := []

theorem settledInput_tells : theirs.Tells settledInput :=
  ⟨fun _ => rfl, fun _ _ _ => ⟨_, rfl⟩, fun _ _ => rfl⟩

theorem soloStore_closed_ok : theirs.StoreOk (soloStore closedRecord) where
  record record h := by
    rw [show (soloStore closedRecord).get theirs.channelId = some closedRecord from soloStore_get closedRecord] at h
    cases h
    exact ⟨fun _ hTx => absurd hTx List.not_mem_nil, List.nodup_nil, .refl _⟩
  entry txo h := by cases h

theorem reaches_solo {store : CloseRecordStore} {record : CloseRecord}
    (hRecords : store.records = Finmap.singleton "c" record) (hFunding : store.fundingTxos = ∅)
    (hTip : store.lastTipHeight = none) (hPending : record.completedAtMs = none) (hQuestions : questions record ≤ 8) :
    Reaches settledInput store record 2122 [] [] where
  newTip := ⟨rfl, hTip ▸ (Option.some_ne_none 2122).symm⟩
  order := by
    rw [netted_of_empty hFunding, show (store.setLastTipHeight 2122).records = store.records from rfl, hRecords,
      pendingSnapshot_singleton _ _ hPending]
    rfl
  budget := hQuestions
  goesOn := (by decide : (8 : Nat) ≠ 0)

/-- Without a broadcast of our own the close terminates. -/
theorem lateness_completes_iff_closedRecord :
    ∃ final, (reconcileCloseRecords settledInput (runOps [] (soloStore closedRecord))).store.get "c" = some final ∧
      final.completedAtMs ≠ none :=
  (lateness_completes_iff theirs (soloStore closedRecord) soloStore_closed_ok [] (fun _ h => absurd h List.not_mem_nil)
    closedRecord (soloStore_get closedRecord) rfl (Option.some_ne_none _) settledInput (fun _ => rfl)
    settledInput_tells List.not_mem_nil 2122 ⟨by decide, fun _ h => by cases h⟩ [] []
    (reaches_solo rfl rfl rfl rfl (by decide))).mpr
      (.inr ⟨List.not_mem_nil, fun _ h => by cases h⟩)

/-- Our own commitment went out first and lost against the counterparty's. -/
def ourBroadcast : List Op := [.direct (.commitmentBroadcast "c" "ours" 0 5)]

def supersededRecord : CloseRecord :=
  { closedRecord with
    txs := [{ txid := "ours", role := .commitment, feeSats := some 0, confirmedAtHeight := none }] }

theorem ourBroadcast_records : (runOps ourBroadcast (soloStore closedRecord)).records =
    Finmap.singleton "c" supersededRecord :=
  StringMap.insert_singleton "c" closedRecord supersededRecord

/-- The superseded close stays pending at height 2122, and a later pass would see the same record. -/
theorem supersededRecord_stays_pending :
    theirs.StoreOk (soloStore closedRecord) ∧ (∀ op ∈ ourBroadcast, theirs.AdmitsOp op) ∧
    (runOps ourBroadcast (soloStore closedRecord)).get "c" = some supersededRecord ∧
    supersededRecord.completedAtMs = none ∧ supersededRecord.fundingTxo = some theirs.fundingTxo ∧
    settledInput.Alone ∧ theirs.Tells settledInput ∧ "c" ∉ settledInput.pendingSweepChannels ∧
    theirs.Late supersededRecord 2122 ∧
    Reaches settledInput (runOps ourBroadcast (soloStore closedRecord)) supersededRecord 2122 [] [] ∧
    ¬ ∃ final, (reconcileCloseRecords settledInput (runOps ourBroadcast (soloStore closedRecord))).store.get "c" =
        some final ∧ final.completedAtMs ≠ none := by
  have hHistory : ∀ op ∈ ourBroadcast, theirs.AdmitsOp op :=
    List.forall_mem_singleton.mpr fun _ => .inr rfl
  have hGet : (runOps ourBroadcast (soloStore closedRecord)).get "c" = some supersededRecord := by
    rw [CloseRecordStore.get, ourBroadcast_records]
    exact Finmap.lookup_singleton_eq
  have hLate : theirs.Late supersededRecord 2122 := ⟨by decide, fun _ h => by cases h⟩
  have hReaches : Reaches settledInput (runOps ourBroadcast (soloStore closedRecord)) supersededRecord 2122 [] [] :=
    reaches_solo ourBroadcast_records rfl rfl rfl (by decide)
  have hOk := (runOps_ok ourBroadcast hHistory soloStore_closed_ok).record supersededRecord hGet
  refine ⟨soloStore_closed_ok, hHistory, hGet, rfl, rfl, fun _ => rfl, settledInput_tells, List.not_mem_nil, hLate,
    hReaches, ?_⟩
  intro hDone
  rcases (reconcileCloseRecords_late (fun _ => rfl) settledInput_tells hOk rfl hGet rfl List.not_mem_nil hLate
    hReaches).mp hDone with ⟨_, _, _, _, hWallet⟩ | ⟨hFirst, _⟩
  · cases hWallet
  · exact absurd (show "ours" = "theirs" from hFirst) (by decide)

end SpendTruth

end WalletCore.CloseRecords
