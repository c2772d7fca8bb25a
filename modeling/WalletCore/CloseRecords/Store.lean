import WalletCore.CloseRecords.Codec

/-! # The close-record store

The in-memory maps are the read model; each change is mirrored to two local files.
A local write may fail, which the code logs and otherwise ignores. The file system
carries the outcome of each of its writes, so that every pattern of failures is one
file system.
-/

namespace WalletCore.CloseRecords

open Lib

/-! ## Local files -/

structure Files where
  records : Option Bytes
  fundingTxos : Option Bytes

structure KvStore extends Files where
  /-- Whether the n-th write of this file system fails. -/
  fails : Nat → Bool
  writes : Nat
  /-- The files as they were before each write, newest first: what a crash could have left behind. -/
  past : List Files

namespace KvStore

def writeRecords (kv : KvStore) (bytes : Bytes) : KvStore :=
  { kv with
    records := if kv.fails kv.writes then kv.records else some bytes
    writes := kv.writes + 1
    past := kv.toFiles :: kv.past }

def writeFundingTxos (kv : KvStore) (bytes : Bytes) : KvStore :=
  { kv with
    fundingTxos := if kv.fails kv.writes then kv.fundingTxos else some bytes
    writes := kv.writes + 1
    past := kv.toFiles :: kv.past }

end KvStore

/-- The in-memory maps over their local mirror. Every writer inserts a record under its own
channel id, so the map is keyed by construction. -/
structure CloseRecordStore where
  records : Records
  keyed : Keyed records
  fundingTxos : FundingTxos
  kvStore : KvStore
  lastTipHeight : Option UInt32

/-- The maps a fresh process reads; corruption degrades to empty. -/
def loadRecords (files : Files) (nowMs : UInt64) : Records :=
  match files.records.bind Bytes.fromSlice with
  | some raw => decodeRecordsMap raw nowMs
  | none => ∅

theorem loadRecords_keyed (files : Files) (nowMs : UInt64) : Keyed (loadRecords files nowMs) := by
  unfold loadRecords
  split
  · exact decodeRecordsMap_keyed _ _
  · intro key record h
    cases h

def loadFundingTxos (files : Files) : FundingTxos :=
  ((files.fundingTxos.bind Bytes.fromSlice).bind decodeFundingTxos).getD ∅

namespace CloseRecordStore

def new (kvStore : KvStore) (nowMs : UInt64) : CloseRecordStore where
  records := loadRecords kvStore.toFiles nowMs
  keyed := loadRecords_keyed kvStore.toFiles nowMs
  fundingTxos := loadFundingTxos kvStore.toFiles
  kvStore := kvStore
  lastTipHeight := none

def get (store : CloseRecordStore) (channelId : String) : Option CloseRecord :=
  store.records.lookup channelId

end CloseRecordStore

/-- Create or merge: the existing record is the base. -/
def mergeInto (records : Records) (channelId : String) (incoming : CloseRecord) : Records :=
  records.insert channelId <|
    match records.lookup channelId with
    | some existing => mergeCloseRecords existing incoming
    | none => incoming

def mergeMapInto (records remote : Records) : Records :=
  remote.toPairs.foldl (fun acc entry => mergeInto acc entry.1 entry.2) records

theorem mergeInto_keyed {records : Records} (h : Keyed records) {channelId : String} {incoming : CloseRecord}
    (hId : incoming.channelId = channelId) : Keyed (mergeInto records channelId incoming) := by
  intro key record hRecord
  rw [mergeInto, StringMap.lookup_insert_eq] at hRecord
  split at hRecord
  · rename_i hKey
    cases hRecord
    split
    · rename_i existing hExisting
      exact (h _ existing hExisting).trans hKey.symm
    · exact hId.trans hKey.symm
  · exact h key record hRecord

theorem foldl_mergeInto_keyed (entries : List (String × CloseRecord)) {records : Records}
    (h : Keyed records) (hEntries : ∀ entry ∈ entries, entry.2.channelId = entry.1) :
    Keyed (entries.foldl (fun acc entry => mergeInto acc entry.1 entry.2) records) := by
  induction entries generalizing records with
  | nil => exact h
  | cons entry rest ih =>
    rw [List.forall_mem_cons] at hEntries
    exact ih (mergeInto_keyed h hEntries.1) hEntries.2

theorem mergeMapInto_keyed {records remote : Records} (h : Keyed records) (hRemote : Keyed remote) :
    Keyed (mergeMapInto records remote) :=
  foldl_mergeInto_keyed remote.toPairs h fun entry hEntry =>
    hRemote entry.1 entry.2 ((StringMap.mem_toPairs _ _ _).mp hEntry)

def encodeRecords (records : Records) : Bytes := .ofJson (encodeRecordsMap records)

namespace CloseRecordStore

def persistRecordsLocally (store : CloseRecordStore) : CloseRecordStore :=
  { store with kvStore := store.kvStore.writeRecords (encodeRecords store.records) }

def persistFundingTxos (store : CloseRecordStore) : CloseRecordStore :=
  { store with kvStore := store.kvStore.writeFundingTxos (.ofJson (encodeFundingTxos store.fundingTxos)) }

def upsert (store : CloseRecordStore) (incoming : CloseRecord) : CloseRecordStore :=
  persistRecordsLocally { store with
    records := mergeInto store.records incoming.channelId incoming
    keyed := mergeInto_keyed store.keyed rfl }

/-- The remote map of a fetched blob; bytes that do not parse count as no records. -/
def remoteMap (remoteBytes : Bytes) (nowMs : UInt64) : Records :=
  match remoteBytes.fromSlice with
  | some raw => decodeRecordsMap raw nowMs
  | none => ∅

theorem remoteMap_keyed (remoteBytes : Bytes) (nowMs : UInt64) : Keyed (remoteMap remoteBytes nowMs) := by
  unfold remoteMap
  split
  · exact decodeRecordsMap_keyed _ _
  · intro key record h
    cases h

/-- Folds a remote map into the local one, base local. The merged bytes it hands back are
`encodeRecords` of the result. -/
def absorbRemote (store : CloseRecordStore) (remoteBytes : Bytes) (nowMs : UInt64) : CloseRecordStore :=
  persistRecordsLocally { store with
    records := mergeMapInto store.records (remoteMap remoteBytes nowMs)
    keyed := mergeMapInto_keyed store.keyed (remoteMap_keyed remoteBytes nowMs) }

def recordFundingTxo (store : CloseRecordStore) (channelId : String) (entry : FundingTxoEntry) :
    CloseRecordStore :=
  if store.fundingTxos.lookup channelId = some entry then store
  else persistFundingTxos { store with fundingTxos := store.fundingTxos.insert channelId entry }

def removeFundingTxo (store : CloseRecordStore) (channelId : String) : CloseRecordStore :=
  if store.fundingTxos.lookup channelId = none then store
  else persistFundingTxos { store with fundingTxos := store.fundingTxos.erase channelId }

def setLastTipHeight (store : CloseRecordStore) (height : UInt32) : CloseRecordStore :=
  { store with lastTipHeight := some height }

end CloseRecordStore

theorem get_upsert (store : CloseRecordStore) (incoming : CloseRecord) (channelId : String) :
    (store.upsert incoming).get channelId =
      if channelId = incoming.channelId then
        some (match store.get incoming.channelId with
          | some existing => mergeCloseRecords existing incoming
          | none => incoming)
      else store.get channelId :=
  StringMap.lookup_insert_eq _ _ _ _

/-! ## Event-side signals -/

structure ClosureClassification where
  description : String
  closeType : CloseType
  initiator : Initiator
  hasOnchainTx : Bool
deriving DecidableEq, Repr

def FundingTxoEntry.outpoint (entry : FundingTxoEntry) : CloseOutpoint := ⟨entry.txid, entry.vout⟩

/-- The record a `ChannelClosed` event builds from its own facts and the safety-net entry. -/
def channelClosedRecord (mapEntry : Option FundingTxoEntry) (channelId : String)
    (classification : ClosureClassification) (eventFundingTxo : Option CloseOutpoint)
    (lastLocalBalanceSats : Option UInt64) (nowMs : UInt64) : CloseRecord :=
  { CloseRecord.skeleton channelId nowMs with
    fundingTxo := eventFundingTxo.or (mapEntry.map FundingTxoEntry.outpoint)
    closeType := classification.closeType
    initiator := classification.initiator
    closureReason := some classification.description
    expectedAmountSats := lastLocalBalanceSats
    timelockBlocks := mapEntry.bind FundingTxoEntry.timelockBlocks }

def onChannelClosed (store : CloseRecordStore) (channelId : String) (classification : ClosureClassification)
    (eventFundingTxo : Option CloseOutpoint) (lastLocalBalanceSats : Option UInt64) (nowMs : UInt64) :
    CloseRecordStore :=
  let mapEntry := store.fundingTxos.lookup channelId
  -- No on-chain close and nothing to watch: no record, and no entry to resurrect one.
  if classification.hasOnchainTx = false ∧ store.get channelId = none then
    store.removeFundingTxo channelId
  else
    (store.upsert (channelClosedRecord mapEntry channelId classification eventFundingTxo
      lastLocalBalanceSats nowMs)).removeFundingTxo channelId

def onCommitmentBroadcast (store : CloseRecordStore) (channelId txid : String) (feeSats nowMs : UInt64) :
    CloseRecordStore :=
  store.upsert { CloseRecord.skeleton channelId nowMs with
    closeType := .force
    txs := [{ txid := txid, role := .commitment, feeSats := some feeSats, confirmedAtHeight := none }] }

def sweepRecord (channelId txid : String) (nowMs : UInt64) : CloseRecord :=
  { CloseRecord.skeleton channelId nowMs with
    txs := [{ txid := txid, role := .sweep, feeSats := none, confirmedAtHeight := none }] }

/-- `channelIds` lists the set in the order it is iterated. -/
def recordSweepTx (store : CloseRecordStore) (txid : String) (channelIds : List String) (nowMs : UInt64) :
    CloseRecordStore :=
  channelIds.foldl (fun acc channelId => acc.upsert (sweepRecord channelId txid nowMs)) store

/-! ## Operations as data -/

inductive StoreOp where
  | upsert (incoming : CloseRecord)
  | absorbRemote (remoteBytes : Bytes) (nowMs : UInt64)
  | recordFundingTxo (channelId : String) (entry : FundingTxoEntry)
  | removeFundingTxo (channelId : String)
  | channelClosed (channelId : String) (classification : ClosureClassification)
      (eventFundingTxo : Option CloseOutpoint) (lastLocalBalanceSats : Option UInt64) (nowMs : UInt64)
  | commitmentBroadcast (channelId txid : String) (feeSats nowMs : UInt64)
  | sweepTx (txid : String) (channelIds : List String) (nowMs : UInt64)

def StoreOp.apply : StoreOp → CloseRecordStore → CloseRecordStore
  | .upsert incoming, store => store.upsert incoming
  | .absorbRemote remoteBytes nowMs, store => store.absorbRemote remoteBytes nowMs
  | .recordFundingTxo channelId entry, store => store.recordFundingTxo channelId entry
  | .removeFundingTxo channelId, store => store.removeFundingTxo channelId
  | .channelClosed channelId classification eventFundingTxo lastLocalBalanceSats nowMs, store =>
    onChannelClosed store channelId classification eventFundingTxo lastLocalBalanceSats nowMs
  | .commitmentBroadcast channelId txid feeSats nowMs, store =>
    onCommitmentBroadcast store channelId txid feeSats nowMs
  | .sweepTx txid channelIds nowMs, store => recordSweepTx store txid channelIds nowMs

def applyOps (ops : List StoreOp) (store : CloseRecordStore) : CloseRecordStore :=
  ops.foldl (fun acc op => op.apply acc) store

/-! ## What a later map keeps of an earlier one -/

/-- No record leaves the map and each keeps its facts. -/
def RecordsKept (old new : Records) : Prop :=
  ∀ channelId record, old.lookup channelId = some record →
    ∃ record', new.lookup channelId = some record' ∧ record.Keeps record'

theorem RecordsKept.refl (records : Records) : RecordsKept records records :=
  fun _ record h => ⟨record, h, .refl record⟩

theorem RecordsKept.trans {a b c : Records} (h : RecordsKept a b) (h' : RecordsKept b c) :
    RecordsKept a c := by
  intro channelId record hRecord
  obtain ⟨record', hRecord', hKeeps⟩ := h channelId record hRecord
  obtain ⟨record'', hRecord'', hKeeps'⟩ := h' channelId record' hRecord'
  exact ⟨record'', hRecord'', hKeeps.trans hKeeps'⟩

theorem recordsKept_foldl {α σ : Type} (records : σ → Records) (round : σ → α → σ)
    (h : ∀ state item, RecordsKept (records state) (records (round state item))) (items : List α) (state : σ) :
    RecordsKept (records state) (records (items.foldl round state)) := by
  induction items generalizing state with
  | nil => exact .refl _
  | cons item rest ih => exact (h state item).trans (ih (round state item))

theorem mergeInto_kept (records : Records) (channelId : String) (incoming : CloseRecord) :
    RecordsKept records (mergeInto records channelId incoming) := by
  intro key record h
  rw [mergeInto, StringMap.lookup_insert_eq]
  split
  · rename_i hKey
    subst hKey
    rw [h]
    exact ⟨_, rfl, mergeCloseRecords_keeps record incoming⟩
  · exact ⟨record, h, .refl record⟩

theorem mergeMapInto_kept (records remote : Records) : RecordsKept records (mergeMapInto records remote) :=
  recordsKept_foldl (fun acc => acc) (fun acc (entry : String × CloseRecord) => mergeInto acc entry.1 entry.2)
    (fun acc entry => mergeInto_kept acc entry.1 entry.2) remote.toPairs records

theorem upsert_kept (store : CloseRecordStore) (incoming : CloseRecord) :
    RecordsKept store.records (store.upsert incoming).records :=
  mergeInto_kept _ _ _

@[simp] theorem recordFundingTxo_records (store : CloseRecordStore) (channelId : String)
    (entry : FundingTxoEntry) : (store.recordFundingTxo channelId entry).records = store.records := by
  rw [CloseRecordStore.recordFundingTxo]
  split <;> rfl

@[simp] theorem removeFundingTxo_records (store : CloseRecordStore) (channelId : String) :
    (store.removeFundingTxo channelId).records = store.records := by
  rw [CloseRecordStore.removeFundingTxo]
  split <;> rfl

theorem get_removeFundingTxo (store : CloseRecordStore) (removed channelId : String) :
    (store.removeFundingTxo removed).get channelId = store.get channelId := by
  rw [CloseRecordStore.get, removeFundingTxo_records, CloseRecordStore.get]

theorem StoreOp.apply_kept (op : StoreOp) (store : CloseRecordStore) :
    RecordsKept store.records (op.apply store).records := by
  cases op with
  | upsert incoming => exact upsert_kept store incoming
  | absorbRemote remoteBytes nowMs => exact mergeMapInto_kept _ _
  | recordFundingTxo channelId entry =>
    rw [StoreOp.apply, recordFundingTxo_records]
    exact .refl _
  | removeFundingTxo channelId =>
    rw [StoreOp.apply, removeFundingTxo_records]
    exact .refl _
  | channelClosed channelId classification eventFundingTxo lastLocalBalanceSats nowMs =>
    rw [StoreOp.apply, onChannelClosed]
    split
    · rw [removeFundingTxo_records]
      exact .refl _
    · rw [removeFundingTxo_records]
      exact upsert_kept store _
  | commitmentBroadcast channelId txid feeSats nowMs => exact upsert_kept store _
  | sweepTx txid channelIds nowMs =>
    exact recordsKept_foldl CloseRecordStore.records _ (fun acc _ => upsert_kept acc _) channelIds store

theorem applyOps_kept (ops : List StoreOp) (store : CloseRecordStore) :
    RecordsKept store.records (applyOps ops store).records :=
  recordsKept_foldl CloseRecordStore.records _ (fun acc op => op.apply_kept acc) ops store

end WalletCore.CloseRecords
