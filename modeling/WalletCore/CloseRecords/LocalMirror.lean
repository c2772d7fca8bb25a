import WalletCore.Lib.Mirror
import WalletCore.CloseRecords.SafetyNet

/-! # The local mirror under concurrent calls

`upsert`, `absorb_remote` and the two funding-map calls each take their lock for the update,
take it again to encode, and write without it. So their steps interleave, and both local
files are mirrors in the sense of the library.
-/

namespace WalletCore.CloseRecords

open Lib Lib.Mirror

/-! ## The records file -/

/-- A records map as the store can hold it: keyed, and told apart by the wire form. -/
structure WireRecords where
  records : Records
  keyed : Keyed records
  encodable : AllEncodable records

inductive RecordsCall where
  | upsert (incoming : CloseRecord) (hEncodable : incoming.Encodable)
  | absorbRemote (remoteBytes : Bytes) (nowMs : UInt64)

theorem remoteMap_encodable (remoteBytes : Bytes) (nowMs : UInt64) :
    AllEncodable (CloseRecordStore.remoteMap remoteBytes nowMs) := by
  unfold CloseRecordStore.remoteMap
  split
  · exact decodeRecordsMap_encodable _ _
  · intro key record h
    cases h

theorem mergeMapInto_encodable {records remote : Records} (h : AllEncodable records) (hRemote : AllEncodable remote) :
    AllEncodable (mergeMapInto records remote) := by
  refine List.foldlRecOn remote.toPairs _ h ?_
  intro acc hAcc entry hEntry
  exact mergeInto_encodable hAcc (hRemote entry.1 entry.2 ((StringMap.mem_toPairs _ _ _).mp hEntry))

def updateRecords : RecordsCall → WireRecords → Option WireRecords
  | .upsert incoming hEncodable, value => some {
      records := mergeInto value.records incoming.channelId incoming
      keyed := mergeInto_keyed value.keyed rfl
      encodable := mergeInto_encodable value.encodable hEncodable }
  | .absorbRemote remoteBytes nowMs, value => some {
      records := mergeMapInto value.records (CloseRecordStore.remoteMap remoteBytes nowMs)
      keyed := mergeMapInto_keyed value.keyed (CloseRecordStore.remoteMap_keyed remoteBytes nowMs)
      encodable := mergeMapInto_encodable value.encodable (remoteMap_encodable remoteBytes nowMs) }

def recordsFile (file : Option Bytes) : Files := { records := file, fundingTxos := none }

/-- The clock only dates records whose file entry has no date. -/
def recordsCodec (nowMs : UInt64) : Codec WireRecords Bytes where
  encode value := encodeRecords value.records
  load file := {
    records := loadRecords (recordsFile file) nowMs
    keyed := loadRecords_keyed _ nowMs
    encodable := loadRecords_encodable _ nowMs }
  load_encode value := by
    obtain ⟨records, keyed, encodable⟩ := value
    have hLoad : loadRecords (recordsFile (some (encodeRecords records))) nowMs = records :=
      loadRecords_encode rfl keyed encodable nowMs
    congr

/-! ## The funding file -/

inductive FundingCall where
  | record (channelId : String) (entry : FundingTxoEntry)
  | remove (channelId : String)

def updateFunding : FundingCall → FundingTxos → Option FundingTxos
  | .record channelId entry, map =>
    if map.lookup channelId = some entry then none else some (map.insert channelId entry)
  | .remove channelId, map => if map.lookup channelId = none then none else some (map.erase channelId)

def fundingCodec : Codec FundingTxos Bytes where
  encode map := .ofJson (encodeFundingTxos map)
  load file := loadFundingTxos { records := none, fundingTxos := file }
  load_encode _ := loadFundingTxos_encode rfl

/-! ## One call at a time -/

/-- Undisturbed, the three steps of an upsert are the store's own. -/
theorem exec_upsert (store : CloseRecordStore) (hStore : AllEncodable store.records) (incoming : CloseRecord)
    (hEncodable : incoming.Encodable) (nowMs : UInt64)
    (hWrites : store.kvStore.fails store.kvStore.writes = false) (taken onFile : Nat) :
    ∃ w', exec (step (recordsCodec nowMs) updateRecords)
        { memory := ⟨store.records, store.keyed, hStore⟩, file := store.kvStore.records, calls := [],
          taken := taken, onFile := onFile } [.update (.upsert incoming hEncodable), .encode 0, .write 0] = some w' ∧
      w'.memory.records = (store.upsert incoming).records ∧ w'.file = (store.upsert incoming).kvStore.records := by
  refine ⟨_, rfl, rfl, ?_⟩
  simp [CloseRecordStore.upsert, CloseRecordStore.persistRecordsLocally, KvStore.writeRecords, hWrites, recordsCodec]

/-! ## All interleavings -/

/-- Whatever the interleaving, if no write replaces a newer snapshot by an older one, both files hold
the maps in memory once all calls have returned. -/
theorem files_catch_up (nowMs : UInt64) :
    (∀ w acts w', Loaded (recordsCodec nowMs) w →
      Along (step (recordsCodec nowMs) updateRecords) InOrder w acts →
      exec (step (recordsCodec nowMs) updateRecords) w acts = some w' → w'.calls = [] →
      loadRecords (recordsFile w'.file) nowMs = w'.memory.records) ∧
    (∀ w acts w', Loaded fundingCodec w → Along (step fundingCodec updateFunding) InOrder w acts →
      exec (step fundingCodec updateFunding) w acts = some w' → w'.calls = [] →
      loadFundingTxos { records := none, fundingTxos := w'.file } = w'.memory) := by
  constructor
  · intro w acts w' hLoaded hOrder hRun hDone
    exact congrArg WireRecords.records (load_file_eq_memory hLoaded hOrder hRun hDone)
  · intro w acts w' hLoaded hOrder hRun hDone
    exact load_file_eq_memory hLoaded hOrder hRun hDone

def emptyWorld : World WireRecords Bytes where
  memory := (recordsCodec 0).load none
  file := none
  calls := []
  taken := 0
  onFile := 0

theorem bare_encodable (channelId : String) : (CloseRecord.skeleton channelId 0).Encodable :=
  skeleton_encodable rfl fun _ h => by cases h

/-- Two upserts; the second changes the map before the first has written. -/
def inTurn : List (Act RecordsCall) :=
  [.update (.upsert (CloseRecord.skeleton "a" 0) (bare_encodable "a")), .encode 0,
    .update (.upsert (CloseRecord.skeleton "b" 0) (bare_encodable "b")), .write 0, .encode 0, .write 0]

/-- The same with the funding map. -/
def fundingInTurn : List (Act FundingCall) :=
  [.update (.record "a" ⟨"t", 0, none⟩), .encode 0, .update (.record "b" ⟨"t", 1, none⟩), .write 0, .encode 0, .write 0]

def emptyFunding : World FundingTxos Bytes where
  memory := fundingCodec.load none
  file := none
  calls := []
  taken := 0
  onFile := 0

theorem files_catch_up_inTurn :
    (∃ w', exec (step (recordsCodec 0) updateRecords) emptyWorld inTurn = some w' ∧
      (w'.memory.records.lookup "a").isSome ∧ (w'.memory.records.lookup "b").isSome ∧
      loadRecords (recordsFile w'.file) 0 = w'.memory.records) ∧
    ∃ w', exec (step fundingCodec updateFunding) emptyFunding fundingInTurn = some w' ∧
      (w'.memory.lookup "a").isSome ∧ (w'.memory.lookup "b").isSome ∧
      loadFundingTxos { records := none, fundingTxos := w'.file } = w'.memory := by
  obtain ⟨hRecords, hFunding⟩ := files_catch_up 0
  constructor
  · refine ⟨_, rfl, by decide, by decide, ?_⟩
    exact hRecords emptyWorld inTurn _ ⟨rfl, rfl, rfl, rfl⟩ (by decide) rfl rfl
  · refine ⟨_, rfl, by decide, by decide, ?_⟩
    exact hFunding emptyFunding fundingInTurn _ ⟨rfl, rfl, rfl, rfl⟩ (by decide) rfl rfl

/-- Two upserts; the one that encoded first writes last. -/
def overtaken : List (Act RecordsCall) :=
  [.update (.upsert (CloseRecord.skeleton "a" 0) (bare_encodable "a")), .encode 0,
    .update (.upsert (CloseRecord.skeleton "b" 0) (bare_encodable "b")), .encode 1, .write 1, .write 0]

/-- After both calls have returned the file lacks the second record. -/
theorem overtaken_falls_behind :
    Loaded (recordsCodec 0) emptyWorld ∧
    ∃ w', exec (step (recordsCodec 0) updateRecords) emptyWorld overtaken = some w' ∧ w'.calls = [] ∧
      loadRecords (recordsFile w'.file) 0 ≠ w'.memory.records := by
  refine ⟨⟨rfl, rfl, rfl, rfl⟩, _, Eq.refl _, Eq.refl _, ?_⟩
  intro hEq
  have hFile : loadRecords (recordsFile (some (encodeRecords (mergeInto ∅ "a" (CloseRecord.skeleton "a" 0))))) 0 =
      mergeInto ∅ "a" (CloseRecord.skeleton "a" 0) :=
    loadRecords_encode rfl (mergeInto_keyed (fun _ _ h => by cases h) rfl)
      (mergeInto_encodable (fun _ _ h => by cases h) (bare_encodable "a")) 0
  have hSecond := congrArg (fun records : Records => (records.lookup "b").isSome) (hFile.symm.trans hEq)
  exact absurd hSecond (by decide)

end WalletCore.CloseRecords
