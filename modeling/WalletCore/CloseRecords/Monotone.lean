import WalletCore.CloseRecords.PassRule

/-! # Close-record facts are monotone

All writers reach the records map through one merge, whose base is the stored record. So
whatever they say, in whatever order, and with other tasks working between the questions
of a reconcile pass, a stored record only gains facts.
-/

namespace WalletCore.CloseRecords

open Lib

theorem safetyNetStep_kept (input : PassInput) (store : CloseRecordStore) (channelId : String)
    (txo : FundingTxoEntry) : RecordsKept store.records (safetyNetStep input store channelId txo).records := by
  rw [safetyNetStep]
  split
  · exact .refl _
  · split
    · rw [removeFundingTxo_records]
      exact .refl _
    · rw [removeFundingTxo_records]
      exact upsert_kept _ _

theorem passRule_kept (input : PassInput) (old : Records) :
    PassRule input (fun store => RecordsKept old store.records) (fun _ => True) (fun _ _ => True) where
  tip _ _ h := h
  meanwhile _ op _ store h := h.trans (op.apply_kept store)
  known _ _ _ _ := trivial
  listed _ _ _ _ _ := trivial
  net store channelId txo h _ := h.trans (safetyNetStep_kept input store channelId txo)
  facts store _ _ h _ _ _ := h.trans (upsert_kept store _)
  complete store _ _ _ h _ _ _ := h.trans (upsert_kept store _)

theorem reconcileCloseRecords_kept (input : PassInput) (store : CloseRecordStore) :
    RecordsKept store.records (reconcileCloseRecords input store).store.records :=
  (passRule_kept input store.records).reconcileCloseRecords (.refl _)

/-! ## Whole runs -/

inductive Op where
  | direct (op : StoreOp)
  | reconcile (input : PassInput)

def Op.apply : Op → CloseRecordStore → CloseRecordStore
  | .direct op, store => op.apply store
  | .reconcile input, store => (reconcileCloseRecords input store).store

def runOps (ops : List Op) (store : CloseRecordStore) : CloseRecordStore :=
  ops.foldl (fun acc op => op.apply acc) store

theorem Op.apply_kept (op : Op) (store : CloseRecordStore) :
    RecordsKept store.records (op.apply store).records := by
  cases op with
  | direct op => exact op.apply_kept store
  | reconcile input => exact reconcileCloseRecords_kept input store

/-- Between any two points of any run, every stored record keeps its facts. -/
theorem runOps_recordsKept (store : CloseRecordStore) (before after : List Op) :
    RecordsKept (runOps before store).records (runOps (before ++ after) store).records := by
  rw [runOps, runOps, List.foldl_append]
  exact recordsKept_foldl CloseRecordStore.records _ (fun acc op => op.apply_kept acc) after _

end WalletCore.CloseRecords
