import WalletCore.CloseRecords.Evidence

/-! # What a record says about the chain

The funding output of a channel is spent once: of all transactions that spend it only one
confirms. A record collects such transactions from broadcast signals and from the chain,
in the order it hears of them. Whatever the order, no history of true signals and of passes
puts a wrong height or a foreign close transaction into it.
-/

namespace WalletCore.CloseRecords

open Lib

/-- What the chain says in the end about one channel. -/
structure SpendTruth where
  channelId : String
  fundingTxo : CloseOutpoint
  conf : String → Option UInt32
  spender : String
  height : UInt32
  confirmed : conf spender = some height
  /-- The genesis block spends nothing. -/
  height_pos : 0 < height.toNat

namespace SpendTruth

variable (truth : SpendTruth)

/-- A transaction of the funding output: it is the confirmed spender or it never confirms. -/
def Spends (txid : String) : Prop := txid = truth.spender ∨ truth.conf txid = none

structure TxOk (tx : CloseRecordTx) : Prop where
  height : SetOnce tx.confirmedAtHeight (truth.conf tx.txid)
  spends : tx.role.isClose = true → truth.Spends tx.txid

structure RecordOk (record : CloseRecord) : Prop where
  txs : ∀ tx ∈ record.txs, truth.TxOk tx
  nodup : (record.txs.map CloseRecordTx.txid).Nodup
  fundingTxo : SetOnce record.fundingTxo (some truth.fundingTxo)

structure StoreOk (store : CloseRecordStore) : Prop where
  record : ∀ record, store.get truth.channelId = some record → truth.RecordOk record
  entry : ∀ txo, store.fundingTxos.lookup truth.channelId = some txo → txo.outpoint = truth.fundingTxo

/-- Signals that tell the truth about the channel; about other channels they may say anything. -/
def Admits : StoreOp → Prop
  | .commitmentBroadcast channelId txid _ _ => channelId = truth.channelId → truth.Spends txid
  | .sweepTx _ _ _ => True
  | .channelClosed channelId _ eventFundingTxo _ _ =>
    channelId = truth.channelId → SetOnce eventFundingTxo (some truth.fundingTxo)
  | .recordFundingTxo channelId entry => channelId = truth.channelId → entry.outpoint = truth.fundingTxo
  | .removeFundingTxo _ => True
  | .upsert _ | .absorbRemote _ _ => False

/-- An earlier pass may meet errors, missing answers and unconfirmed spenders, but no height it is
told is ever taken back. -/
structure AdmitsPass (input : PassInput) : Prop where
  meanwhile : ∀ n, ∀ op ∈ input.meanwhile n, truth.Admits op
  heights : ∀ n txid height, input.chain.txConfirmedHeight n txid = .ok (some height) →
    truth.conf txid = some height
  spends : ∀ n txid, input.chain.outspend n truth.fundingTxo.txid truth.fundingTxo.vout = .ok (some txid) →
    truth.Spends txid

def AdmitsOp : Op → Prop
  | .direct op => truth.Admits op
  | .reconcile input => truth.AdmitsPass input

end SpendTruth

/-! ## Every history keeps the record true -/

theorem mergeTx_txids (txs : List CloseRecordTx) (tx : CloseRecordTx) :
    (mergeTx txs tx).map CloseRecordTx.txid =
      if tx.txid ∈ txs.map CloseRecordTx.txid then txs.map CloseRecordTx.txid
      else txs.map CloseRecordTx.txid ++ [tx.txid] := by
  induction txs with
  | nil => rfl
  | cons existing rest ih =>
    rw [mergeTx, List.map_cons]
    by_cases hId : existing.txid = tx.txid
    · rw [if_pos hId, if_pos (hId ▸ List.mem_cons_self)]
      rfl
    · rw [if_neg hId, List.map_cons, ih]
      simp only [List.mem_cons, Ne.symm hId, false_or]
      split <;> rfl

theorem mergeTx_nodup {txs : List CloseRecordTx} (h : (txs.map CloseRecordTx.txid).Nodup) (tx : CloseRecordTx) :
    ((mergeTx txs tx).map CloseRecordTx.txid).Nodup := by
  rw [mergeTx_txids]
  split
  · exact h
  · rename_i hNew
    rw [List.nodup_append]
    refine ⟨h, List.nodup_singleton _, ?_⟩
    intro a ha b hb hEq
    rw [List.mem_singleton] at hb
    exact hNew (hb ▸ hEq ▸ ha)

theorem mergeTxs_nodup {base : List CloseRecordTx} (h : (base.map CloseRecordTx.txid).Nodup)
    (incoming : List CloseRecordTx) : ((mergeTxs base incoming).map CloseRecordTx.txid).Nodup :=
  List.foldlRecOn incoming mergeTx (motive := fun txs => (txs.map CloseRecordTx.txid).Nodup) h
    fun _ hTxs tx _ => mergeTx_nodup hTxs tx

theorem setOnce_or_of {α : Type} {a b c : Option α} (ha : SetOnce a c) (hb : SetOnce b c) : SetOnce (a.or b) c := by
  intro v h
  cases a with
  | none => exact hb v h
  | some a => exact ha v h

theorem setOnce_none {α : Type} (a : Option α) : SetOnce none a := fun _ h => by cases h

namespace SpendTruth

variable {truth : SpendTruth}

theorem fillTx_ok {existing tx : CloseRecordTx} (hId : existing.txid = tx.txid) (hExisting : truth.TxOk existing)
    (hTx : truth.TxOk tx) : truth.TxOk (fillTx existing tx) where
  height := setOnce_or_of hExisting.height (by
    rw [show (fillTx existing tx).txid = tx.txid from hId]
    exact hTx.height)
  spends := hExisting.spends

theorem mergeTxs_ok {base incoming : List CloseRecordTx} (hBase : ∀ tx ∈ base, truth.TxOk tx)
    (hIncoming : ∀ tx ∈ incoming, truth.TxOk tx) : ∀ tx ∈ mergeTxs base incoming, truth.TxOk tx :=
  mergeTxs_forall (fun _ _ hId h h' => fillTx_ok hId h h') hBase hIncoming

/-- What an incoming record must say about the channel to be merged into a true one. -/
structure IncomingOk (truth : SpendTruth) (incoming : CloseRecord) : Prop where
  txs : ∀ tx ∈ incoming.txs, truth.TxOk tx
  fundingTxo : SetOnce incoming.fundingTxo (some truth.fundingTxo)

theorem mergeCloseRecords_ok {base incoming : CloseRecord} (hBase : truth.RecordOk base)
    (hIncoming : truth.IncomingOk incoming) : truth.RecordOk (mergeCloseRecords base incoming) where
  txs := mergeTxs_ok hBase.txs hIncoming.txs
  nodup := mergeTxs_nodup hBase.nodup incoming.txs
  fundingTxo := setOnce_or_of hBase.fundingTxo hIncoming.fundingTxo

theorem upsert_ok {store : CloseRecordStore} (h : truth.StoreOk store) {incoming : CloseRecord}
    (hIncoming : incoming.channelId = truth.channelId → truth.IncomingOk incoming)
    (hNodup : incoming.channelId = truth.channelId →
      store.get truth.channelId ≠ none ∨ (incoming.txs.map CloseRecordTx.txid).Nodup) :
    truth.StoreOk (store.upsert incoming) where
  record := by
    intro record hRecord
    rw [get_upsert] at hRecord
    split at hRecord
    · rename_i hId
      cases hRecord
      rw [← hId]
      split
      · rename_i existing hExisting
        exact mergeCloseRecords_ok (h.record existing hExisting) (hIncoming hId.symm)
      · rename_i hNone
        have hOk := hIncoming hId.symm
        exact ⟨hOk.txs, (hNodup hId.symm).resolve_left (absurd (hId ▸ hNone)), hOk.fundingTxo⟩
    · exact h.record record hRecord
  entry := h.entry

theorem removeFundingTxo_ok {store : CloseRecordStore} (h : truth.StoreOk store) (channelId : String) :
    truth.StoreOk (store.removeFundingTxo channelId) where
  record := by
    rw [get_removeFundingTxo]
    exact h.record
  entry := by
    intro txo hTxo
    rw [CloseRecordStore.removeFundingTxo] at hTxo
    split at hTxo
    · exact h.entry txo hTxo
    · change Finmap.lookup truth.channelId (store.fundingTxos.erase channelId) = some txo at hTxo
      rw [StringMap.lookup_erase_eq] at hTxo
      split at hTxo
      · cases hTxo
      · exact h.entry txo hTxo

theorem recordFundingTxo_ok {store : CloseRecordStore} (h : truth.StoreOk store) {channelId : String}
    {entry : FundingTxoEntry} (hEntry : channelId = truth.channelId → entry.outpoint = truth.fundingTxo) :
    truth.StoreOk (store.recordFundingTxo channelId entry) where
  record := by
    intro record hRecord
    rw [CloseRecordStore.get, recordFundingTxo_records] at hRecord
    exact h.record record hRecord
  entry := by
    intro txo hTxo
    rw [CloseRecordStore.recordFundingTxo] at hTxo
    split at hTxo
    · exact h.entry txo hTxo
    · change Finmap.lookup truth.channelId (store.fundingTxos.insert channelId entry) = some txo at hTxo
      rw [StringMap.lookup_insert_eq] at hTxo
      split at hTxo
      · rename_i hId
        cases hTxo
        exact hEntry hId.symm
      · exact h.entry txo hTxo

theorem channelClosedRecord_ok {store : CloseRecordStore} (h : truth.StoreOk store)
    {classification : ClosureClassification} {eventFundingTxo : Option CloseOutpoint}
    {lastLocalBalanceSats : Option UInt64} {nowMs : UInt64}
    (hEvent : SetOnce eventFundingTxo (some truth.fundingTxo)) :
    truth.IncomingOk (channelClosedRecord (store.fundingTxos.lookup truth.channelId) truth.channelId classification
      eventFundingTxo lastLocalBalanceSats nowMs) where
  txs tx hTx := by cases hTx
  fundingTxo := by
    refine setOnce_or_of hEvent ?_
    intro txo hTxo
    obtain ⟨entry, hEntry, rfl⟩ := Option.map_eq_some_iff.mp hTxo
    rw [h.entry entry hEntry]

theorem apply_ok {op : StoreOp} (hOp : truth.Admits op) {store : CloseRecordStore} (h : truth.StoreOk store) :
    truth.StoreOk (op.apply store) := by
  cases op with
  | upsert incoming => exact hOp.elim
  | absorbRemote remoteBytes nowMs => exact hOp.elim
  | recordFundingTxo channelId entry => exact recordFundingTxo_ok h hOp
  | removeFundingTxo channelId => exact removeFundingTxo_ok h channelId
  | channelClosed channelId classification eventFundingTxo lastLocalBalanceSats nowMs =>
    rw [StoreOp.apply, onChannelClosed]
    split
    · exact removeFundingTxo_ok h channelId
    · refine removeFundingTxo_ok (upsert_ok h ?_ ?_) channelId
      · intro hId
        cases (show channelId = truth.channelId from hId)
        exact channelClosedRecord_ok h (hOp rfl)
      · exact fun _ => .inr List.nodup_nil
  | commitmentBroadcast channelId txid feeSats nowMs =>
    refine upsert_ok h (fun hId => ⟨?_, setOnce_none _⟩) fun _ => .inr (List.nodup_singleton _)
    exact List.forall_mem_singleton.mpr ⟨setOnce_none _, fun _ => hOp hId⟩
  | sweepTx txid channelIds nowMs =>
    refine List.foldlRecOn channelIds _ h ?_
    intro acc hAcc channelId _
    refine upsert_ok hAcc (fun _ => ⟨?_, setOnce_none _⟩) fun _ => .inr (List.nodup_singleton _)
    exact List.forall_mem_singleton.mpr ⟨setOnce_none _, fun hRole => absurd hRole Bool.false_ne_true⟩

theorem told_ok {input : PassInput} (hInput : truth.AdmitsPass input) {record : CloseRecord}
    (hRecord : truth.RecordOk record) {tx : CloseRecordTx} (hTold : Told input record tx) : truth.TxOk tx := by
  cases hTold with
  | discovered hTxo hRole hSpender hStatus =>
    cases hRecord.fundingTxo _ hTxo
    refine ⟨?_, fun _ => hInput.spends _ _ hSpender⟩
    intro height hHeight
    rcases hStatus with hNone | hStatus
    · exact absurd (hNone.symm.trans hHeight) (Option.some_ne_none height).symm
    · exact hInput.heights _ _ height (hStatus.trans (congrArg _ hHeight))
  | filled hMem hHeight =>
    refine ⟨?_, (hRecord.txs _ hMem).spends⟩
    intro height hEq
    cases hEq
    exact hInput.heights _ _ _ hHeight

theorem passRule_ok {input : PassInput} (hInput : truth.AdmitsPass input) :
    PassRule input truth.StoreOk (fun record => record.channelId = truth.channelId → truth.RecordOk record)
      (fun channelId txo => channelId = truth.channelId → txo.outpoint = truth.fundingTxo) where
  tip _ _ h := ⟨h.record, h.entry⟩
  meanwhile n op hOp _ h := apply_ok (hInput.meanwhile n op hOp) h
  known store record h hGet hId := h.record record (hId ▸ hGet)
  listed store channelId txo h hTxo hId := h.entry txo (hId ▸ hTxo)
  net store channelId txo h hTxo := by
    rw [safetyNetStep]
    split
    · exact h
    · split
      · exact removeFundingTxo_ok h channelId
      · refine removeFundingTxo_ok (upsert_ok h (fun hId => ⟨?_, ?_⟩) ?_) channelId
        · exact fun tx hTx => absurd hTx List.not_mem_nil
        · rw [show (safetyNetRecord channelId txo input.nowMs).fundingTxo = some txo.outpoint from rfl, hTxo hId]
          exact .refl _
        · exact fun _ => .inr List.nodup_nil
  facts store record factTxs h hKnown hHeld hTold :=
    upsert_ok h (fun hId => ⟨fun tx hTx => told_ok hInput (hKnown hId) (hTold tx hTx), setOnce_none _⟩)
      fun hId => .inl (hId ▸ hHeld)
  complete store record factTxs resolution h _ _ _ :=
    upsert_ok h (fun _ => ⟨fun tx hTx => absurd hTx List.not_mem_nil, setOnce_none _⟩)
      fun _ => .inr List.nodup_nil

theorem runOps_ok (ops : List Op) (hOps : ∀ op ∈ ops, truth.AdmitsOp op) {store : CloseRecordStore}
    (h : truth.StoreOk store) : truth.StoreOk (runOps ops store) := by
  refine List.foldlRecOn ops _ h ?_
  intro acc hAcc op hOp
  cases op with
  | direct op => exact apply_ok (hOps _ hOp) hAcc
  | reconcile input => exact (passRule_ok (hOps _ hOp)).reconcileCloseRecords hAcc

end SpendTruth

end WalletCore.CloseRecords
