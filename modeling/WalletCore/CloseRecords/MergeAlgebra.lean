import WalletCore.CloseRecords.Record
import WalletCore.Lib.KeyedUnion

/-! # The algebra of the merge

Per field the merge keeps the first value, the last known one, the least, the greatest or the strongest,
and the transactions are united by txid. Each of these is associative and idempotent, so the merge is,
and a side that is merged again is absorbed. The direction decides between two values of one field, never
whether it has one.
-/

namespace WalletCore.CloseRecords

open Lib

/-! ## Transactions -/

abbrev DistinctTxids (txs : List CloseRecordTx) : Prop := DistinctKeys CloseRecordTx.txid txs

theorem fillTx_filling : Filling CloseRecordTx.txid fillTx where
  key_fill _ _ := rfl
  assoc x y z := by simp only [fillTx, Option.or_assoc]
  idem x := by simp only [fillTx, Option.or_self]

theorem mergeTx_eq (txs : List CloseRecordTx) (tx : CloseRecordTx) :
    mergeTx txs tx = upsertBy CloseRecordTx.txid fillTx txs tx := by
  induction txs with
  | nil => rfl
  | cons existing rest ih => rw [mergeTx, upsertBy, ih]

theorem mergeTxs_eq (base incoming : List CloseRecordTx) :
    mergeTxs base incoming = unionBy CloseRecordTx.txid fillTx base incoming := by
  have h : mergeTx = upsertBy CloseRecordTx.txid fillTx := by
    funext txs tx
    exact mergeTx_eq txs tx
  rw [mergeTxs, unionBy, h]

theorem mergeTxs_self {txs : List CloseRecordTx} (h : DistinctTxids txs) : mergeTxs txs txs = txs := by
  rw [mergeTxs_eq, fillTx_filling.unionBy_self h]

/-- Only the middle list has to be free of repeated txids. -/
theorem mergeTxs_assoc (first : List CloseRecordTx) {second : List CloseRecordTx} (h : DistinctTxids second)
    (third : List CloseRecordTx) :
    mergeTxs (mergeTxs first second) third = mergeTxs first (mergeTxs second third) := by
  simp only [mergeTxs_eq]
  exact fillTx_filling.unionBy_assoc first h third

theorem mergeTxs_distinct {base : List CloseRecordTx} (h : DistinctTxids base) (incoming : List CloseRecordTx) :
    DistinctTxids (mergeTxs base incoming) := by
  rw [mergeTxs_eq]
  exact fillTx_filling.distinct_unionBy h incoming

theorem mem_txids_mergeTxs (base incoming : List CloseRecordTx) (txid : String) :
    txid ∈ (mergeTxs base incoming).map CloseRecordTx.txid ↔
      txid ∈ base.map CloseRecordTx.txid ∨ txid ∈ incoming.map CloseRecordTx.txid := by
  rw [mergeTxs_eq]
  exact fillTx_filling.mem_keys_unionBy base incoming txid

theorem isSome_mergeTxs {α : Type} (field : CloseRecordTx → Option α)
    (hField : ∀ existing tx, field (fillTx existing tx) = (field existing).or (field tx))
    (base incoming : List CloseRecordTx) (txid : String) :
    (∃ tx ∈ mergeTxs base incoming, tx.txid = txid ∧ (field tx).isSome = true) ↔
      (∃ tx ∈ base, tx.txid = txid ∧ (field tx).isSome = true) ∨
        ∃ tx ∈ incoming, tx.txid = txid ∧ (field tx).isSome = true := by
  rw [mergeTxs_eq]
  refine fillTx_filling.exists_unionBy ?_ base incoming txid
  intro existing tx _
  rw [hField, Option.isSome_or, Bool.or_eq_true]

/-! ## Single fields -/

theorem closeType_assoc (a b c : CloseType) :
    (if c ≠ .unknown then c else if b ≠ .unknown then b else a) =
      if (if c ≠ .unknown then c else b) ≠ .unknown then (if c ≠ .unknown then c else b) else a := by
  cases c <;> rfl

theorem initiator_assoc (a b c : Initiator) :
    (if c ≠ .unknown then c else if b ≠ .unknown then b else a) =
      if (if c ≠ .unknown then c else b) ≠ .unknown then (if c ≠ .unknown then c else b) else a := by
  cases c <;> rfl

theorem mergeResolution_self (resolution : Option Resolution) : mergeResolution resolution resolution = resolution := by
  rcases resolution with _ | _ | _ <;> rfl

theorem mergeResolution_comm (a b : Option Resolution) : mergeResolution a b = mergeResolution b a := by
  rcases a with _ | _ | _ <;> rcases b with _ | _ | _ <;> rfl

theorem mergeResolution_assoc (a b c : Option Resolution) :
    mergeResolution (mergeResolution a b) c = mergeResolution a (mergeResolution b c) := by
  rcases a with _ | _ | _ <;> rcases b with _ | _ | _ <;> rcases c with _ | _ | _ <;> rfl

theorem u64_min_def (a b : UInt64) : min a b = if a ≤ b then a else b := rfl

theorem u64_max_def (a b : UInt64) : max a b = if a ≤ b then b else a := rfl

theorem u64_min_self (a : UInt64) : min a a = a := by
  rw [u64_min_def, ite_self]

theorem u64_max_self (a : UInt64) : max a a = a := by
  rw [u64_max_def, ite_self]

theorem u64_min_comm (a b : UInt64) : min a b = min b a := by
  simp only [u64_min_def]
  grind

theorem u64_max_comm (a b : UInt64) : max a b = max b a := by
  simp only [u64_max_def]
  grind

theorem u64_min_assoc (a b c : UInt64) : min (min a b) c = min a (min b c) := by
  simp only [u64_min_def]
  grind

theorem u64_max_assoc (a b c : UInt64) : max (max a b) c = max a (max b c) := by
  simp only [u64_max_def]
  grind

theorem extras_union_self (extras : JsonMap) : extras ∪ extras = extras := by
  apply Finmap.ext_lookup
  intro key
  by_cases hKey : key ∈ extras
  · exact Finmap.lookup_union_left hKey
  · exact Finmap.lookup_union_right hKey

/-! ## Records -/

theorem mergeCloseRecords_self {record : CloseRecord} (h : DistinctTxids record.txs) :
    mergeCloseRecords record record = record := by
  simp only [mergeCloseRecords, Option.or_self, mergeTxs_self h, mergeResolution_self, u64_min_self, u64_max_self,
    extras_union_self, ite_self]

theorem mergeCloseRecords_assoc (a : CloseRecord) {b : CloseRecord} (h : DistinctTxids b.txs) (c : CloseRecord) :
    mergeCloseRecords (mergeCloseRecords a b) c = mergeCloseRecords a (mergeCloseRecords b c) := by
  simp only [mergeCloseRecords, Option.or_assoc, mergeTxs_assoc _ h, mergeResolution_assoc, u64_min_assoc, u64_max_assoc,
    Finmap.union_assoc, closeType_assoc, initiator_assoc]
  -- Only the instances that decide the two tests still name the records.
  rfl

/-- What was merged last is absorbed when it comes again. -/
theorem mergeCloseRecords_absorb_incoming (a : CloseRecord) {b : CloseRecord} (h : DistinctTxids b.txs) :
    mergeCloseRecords (mergeCloseRecords a b) b = mergeCloseRecords a b := by
  rw [mergeCloseRecords_assoc a h, mergeCloseRecords_self h]

theorem mergeCloseRecords_absorb_base {a : CloseRecord} (h : DistinctTxids a.txs) (b : CloseRecord) :
    mergeCloseRecords a (mergeCloseRecords a b) = mergeCloseRecords a b := by
  rw [← mergeCloseRecords_assoc a h, mergeCloseRecords_self h]

/-- Two records that agree on everything but the choice between two values of one field. -/
structure SameShape (x y : CloseRecord) : Prop where
  txids : ∀ txid, txid ∈ x.txs.map CloseRecordTx.txid ↔ txid ∈ y.txs.map CloseRecordTx.txid
  fees : ∀ txid, (∃ tx ∈ x.txs, tx.txid = txid ∧ tx.feeSats.isSome = true) ↔
    ∃ tx ∈ y.txs, tx.txid = txid ∧ tx.feeSats.isSome = true
  heights : ∀ txid, (∃ tx ∈ x.txs, tx.txid = txid ∧ tx.confirmedAtHeight.isSome = true) ↔
    ∃ tx ∈ y.txs, tx.txid = txid ∧ tx.confirmedAtHeight.isSome = true
  createdAtMs : x.createdAtMs = y.createdAtMs
  schemaVersion : x.schemaVersion = y.schemaVersion
  verified : x.resolution = some .verified ↔ y.resolution = some .verified
  resolution : x.resolution.isSome = y.resolution.isSome
  fundingTxo : x.fundingTxo.isSome = y.fundingTxo.isSome
  closureReason : x.closureReason.isSome = y.closureReason.isSome
  expectedAmountSats : x.expectedAmountSats.isSome = y.expectedAmountSats.isSome
  timelockBlocks : x.timelockBlocks.isSome = y.timelockBlocks.isSome
  claimableAtHeight : x.claimableAtHeight.isSome = y.claimableAtHeight.isSome
  completedAtMs : x.completedAtMs.isSome = y.completedAtMs.isSome

theorem isSome_or_comm {α : Type} (a b : Option α) : (a.or b).isSome = (b.or a).isSome := by
  rw [Option.isSome_or, Option.isSome_or, Bool.or_comm]

theorem mergeCloseRecords_sameShape (a b : CloseRecord) :
    SameShape (mergeCloseRecords a b) (mergeCloseRecords b a) where
  txids txid := by
    simp only [mergeCloseRecords, mem_txids_mergeTxs]
    exact or_comm
  fees txid := by
    have h := isSome_mergeTxs CloseRecordTx.feeSats fun _ _ => rfl
    simp only [mergeCloseRecords, h]
    exact or_comm
  heights txid := by
    have h := isSome_mergeTxs CloseRecordTx.confirmedAtHeight fun _ _ => rfl
    simp only [mergeCloseRecords, h]
    exact or_comm
  createdAtMs := u64_min_comm _ _
  schemaVersion := u64_max_comm _ _
  verified := by rw [mergeCloseRecords, mergeCloseRecords, mergeResolution_comm]
  resolution := by rw [mergeCloseRecords, mergeCloseRecords, mergeResolution_comm]
  fundingTxo := isSome_or_comm _ _
  closureReason := isSome_or_comm _ _
  expectedAmountSats := isSome_or_comm _ _
  timelockBlocks := isSome_or_comm _ _
  claimableAtHeight := isSome_or_comm _ _
  completedAtMs := isSome_or_comm _ _

theorem merge_algebra (a b c : CloseRecord) (ha : DistinctTxids a.txs) (hb : DistinctTxids b.txs) :
    mergeCloseRecords a a = a ∧
    mergeCloseRecords (mergeCloseRecords a b) c = mergeCloseRecords a (mergeCloseRecords b c) ∧
    mergeCloseRecords (mergeCloseRecords a b) b = mergeCloseRecords a b ∧
    mergeCloseRecords a (mergeCloseRecords a b) = mergeCloseRecords a b ∧
    DistinctTxids (mergeCloseRecords a b).txs ∧
    (∀ txid, txid ∈ (mergeCloseRecords a b).txs.map CloseRecordTx.txid ↔
      txid ∈ a.txs.map CloseRecordTx.txid ∨ txid ∈ b.txs.map CloseRecordTx.txid) ∧
    SameShape (mergeCloseRecords a b) (mergeCloseRecords b a) := by
  refine ⟨mergeCloseRecords_self ha, mergeCloseRecords_assoc a hb c, mergeCloseRecords_absorb_incoming a hb,
    mergeCloseRecords_absorb_base ha b, mergeTxs_distinct ha b.txs, ?_, mergeCloseRecords_sameShape a b⟩
  intro txid
  exact mem_txids_mergeTxs a.txs b.txs txid

def ourFacts : CloseRecord :=
  { CloseRecord.skeleton "c" 5 with
    closeType := .force
    txs := [{ txid := "t", role := .commitment, feeSats := some 300, confirmedAtHeight := none }] }

def theirFacts : CloseRecord :=
  { CloseRecord.skeleton "c" 9 with
    closeType := .coop
    txs := [{ txid := "t", role := .closing, feeSats := none, confirmedAtHeight := some 100 },
      { txid := "s", role := .sweep, feeSats := none, confirmedAtHeight := none }] }

theorem twoDevices_merge :
    mergeCloseRecords (mergeCloseRecords ourFacts theirFacts) theirFacts = mergeCloseRecords ourFacts theirFacts ∧
    SameShape (mergeCloseRecords ourFacts theirFacts) (mergeCloseRecords theirFacts ourFacts) ∧
    (mergeCloseRecords ourFacts theirFacts).closeType ≠ (mergeCloseRecords theirFacts ourFacts).closeType := by
  have hOurs : DistinctTxids ourFacts.txs := by simp [DistinctKeys, ourFacts]
  have hTheirs : DistinctTxids theirFacts.txs := by simp [DistinctKeys, theirFacts]
  obtain ⟨-, -, hAbsorb, -, -, -, hShape⟩ := merge_algebra ourFacts theirFacts ourFacts hOurs hTheirs
  exact ⟨hAbsorb, hShape, by decide⟩

end WalletCore.CloseRecords
