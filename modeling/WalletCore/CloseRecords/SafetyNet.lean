import WalletCore.CloseRecords.PassRule

/-! # The safety net on disk

Before a channel closes, the funding-txo file tells where its close will show up; after
the close the record does. The record and the removal of the entry are two writes, each of
which may fail, and a crash may come after either. This module follows both files through
all their states: as long as no entry leaves the disk before a record of its channel is
there, a close that was listed once is found after any restart.
-/

namespace WalletCore.CloseRecords

open Lib

def Carries (records : Records) (channelId : String) : Prop :=
  ∃ record, records.lookup channelId = some record ∧ record.fundingTxo ≠ none

namespace Files

def Listed (files : Files) (channelId : String) : Prop := (loadFundingTxos files).lookup channelId ≠ none

def Recorded (files : Files) (channelId : String) : Prop :=
  ∀ nowMs, (loadRecords files nowMs).lookup channelId ≠ none

/-- A restart from these files finds the close: through its record or through its entry. -/
def Safe (files : Files) (channelId : String) : Prop :=
  files.Listed channelId ∨ ∀ nowMs, Carries (loadRecords files nowMs) channelId

end Files

def KvStore.states (kv : KvStore) : List Files := kv.toFiles :: kv.past

def DropsAfterRecord (new old : Files) : Prop :=
  ∀ channelId, old.Listed channelId → ¬ new.Listed channelId → old.Recorded channelId

/-- No write takes an entry off the disk while the disk has no record of its channel. -/
def RecordFirst (states : List Files) : Prop := states.IsChain DropsAfterRecord

/-- From the first state that lists a channel on, every state is safe for it. -/
def NetHolds : List Files → Prop
  | [] => True
  | files :: older =>
    NetHolds older ∧ ∀ channelId, (∃ earlier ∈ files :: older, earlier.Listed channelId) → files.Safe channelId

/-- The store over its files, where `disk` is the records map that a restart would read. -/
structure NetInv (store : CloseRecordStore) (disk : Records) : Prop where
  load : ∀ nowMs, loadRecords store.kvStore.toFiles nowMs = disk
  kept : ∀ channelId, Carries disk channelId → Carries store.records channelId
  carries : ∀ channelId, store.fundingTxos.lookup channelId ≠ none ∨ store.kvStore.Listed channelId →
    ∀ record, store.records.lookup channelId = some record ∨ disk.lookup channelId = some record →
      record.fundingTxo ≠ none
  dropped : ∀ channelId, store.kvStore.Listed channelId → store.fundingTxos.lookup channelId = none →
    Carries store.records channelId
  holds : NetHolds store.kvStore.states

/-! ## The two writes -/

theorem NetHolds.cons {files : Files} {states : List Files} (h : NetHolds states)
    (hNew : ∀ channelId, files.Listed channelId → files.Safe channelId)
    (hOld : ∀ old older, states = old :: older → ∀ channelId, old.Safe channelId → files.Safe channelId) :
    NetHolds (files :: states) := by
  refine ⟨h, ?_⟩
  rintro channelId ⟨earlier, hMem, hListed⟩
  rcases List.mem_cons.mp hMem with rfl | hMem
  · exact hNew channelId hListed
  · cases states with
    | nil => cases hMem
    | cons old older => exact hOld old older rfl channelId (h.2 channelId ⟨earlier, hMem, hListed⟩)

theorem loadRecords_encode {files : Files} {records : Records} (hFile : files.records = some (encodeRecords records))
    (hKeyed : Keyed records) (hEncodable : AllEncodable records) (nowMs : UInt64) :
    loadRecords files nowMs = records := by
  rw [loadRecords, hFile]
  exact decodeRecordsMap_encode records hKeyed hEncodable nowMs

theorem loadFundingTxos_encode {files : Files} {fundingTxos : FundingTxos}
    (hFile : files.fundingTxos = some (.ofJson (encodeFundingTxos fundingTxos))) :
    loadFundingTxos files = fundingTxos := by
  rw [loadFundingTxos, hFile, Option.bind_some, Bytes.fromSlice_ofJson, Option.bind_some, decodeFundingTxos_encode]
  rfl

section Writes

variable {store : CloseRecordStore} {disk : Records}

theorem NetInv.persist_failed (h : NetInv store disk) {kv : KvStore} (hFiles : kv.toFiles = store.kvStore.toFiles)
    (hPast : kv.past = store.kvStore.toFiles :: store.kvStore.past) :
    NetInv { store with kvStore := kv } disk where
  load nowMs := (congrArg (loadRecords · nowMs) hFiles).trans (h.load nowMs)
  kept := h.kept
  carries channelId hListed := h.carries channelId (by rwa [hFiles] at hListed)
  dropped channelId hListed := h.dropped channelId (by rwa [hFiles] at hListed)
  holds := by
    change NetHolds (kv.toFiles :: kv.past)
    rw [hFiles, hPast]
    refine h.holds.cons (fun _ hListed => .inl hListed) ?_
    intro old older hStates channelId hSafe
    cases hStates
    exact hSafe

/-- The records file may be written at any time: memory carries all that the file did. -/
theorem NetInv.persistRecordsLocally (h : NetInv store disk) (hEncodable : AllEncodable store.records) :
    ∃ disk', NetInv store.persistRecordsLocally disk' := by
  cases hFails : store.kvStore.fails store.kvStore.writes with
  | true =>
    refine ⟨disk, h.persist_failed ?_ rfl⟩
    simp [KvStore.writeRecords, hFails]
  | false =>
    have hFile : store.persistRecordsLocally.kvStore.records = some (encodeRecords store.records) := by
      simp [CloseRecordStore.persistRecordsLocally, KvStore.writeRecords, hFails]
    have hLoad : ∀ nowMs, loadRecords store.persistRecordsLocally.kvStore.toFiles nowMs = store.records :=
      loadRecords_encode hFile store.keyed hEncodable
    refine ⟨store.records, hLoad, fun _ hCarries => hCarries, ?_, h.dropped, ?_⟩
    · intro channelId hListed record hRecord
      exact h.carries channelId hListed record (.inl (hRecord.elim id id))
    · refine h.holds.cons (fun _ hListed => .inl hListed) ?_
      intro old older hStates channelId hSafe
      cases hStates
      rcases hSafe with hListed | hCarries
      · exact .inl hListed
      · refine .inr fun nowMs => ?_
        rw [hLoad nowMs]
        exact h.kept channelId (h.load nowMs ▸ hCarries nowMs)

/-- The funding file may be written if what it drops is recorded on disk. -/
theorem NetInv.persistFundingTxos (h : NetInv store disk)
    (hDrops : DropsAfterRecord store.persistFundingTxos.kvStore.toFiles store.kvStore.toFiles) :
    NetInv store.persistFundingTxos disk := by
  cases hFails : store.kvStore.fails store.kvStore.writes with
  | true =>
    refine h.persist_failed ?_ rfl
    simp [KvStore.writeFundingTxos, hFails]
  | false =>
    have hFile : store.persistFundingTxos.kvStore.fundingTxos =
        some (.ofJson (encodeFundingTxos store.fundingTxos)) := by
      simp [CloseRecordStore.persistFundingTxos, KvStore.writeFundingTxos, hFails]
    have hLoad : loadFundingTxos store.persistFundingTxos.kvStore.toFiles = store.fundingTxos :=
      loadFundingTxos_encode hFile
    have hListed : ∀ channelId, store.persistFundingTxos.kvStore.Listed channelId ↔
        store.fundingTxos.lookup channelId ≠ none := by
      intro channelId
      exact iff_of_eq (congrArg (fun m => Finmap.lookup channelId m ≠ none) hLoad)
    refine ⟨h.load, h.kept, ?_, ?_, ?_⟩
    · intro channelId hEither
      refine h.carries channelId (.inl ?_)
      rcases hEither with hMem | hMem
      · exact hMem
      · exact (hListed channelId).mp hMem
    · intro channelId hMem hNone
      exact absurd hNone ((hListed channelId).mp hMem)
    · refine h.holds.cons (fun _ hNew => .inl hNew) ?_
      intro old older hStates channelId hSafe
      cases hStates
      by_cases hNew : store.persistFundingTxos.kvStore.Listed channelId
      · exact .inl hNew
      · refine .inr fun nowMs => ?_
        rcases hSafe with hOld | hCarries
        · -- The entry is dropped, so the disk has a record, which carries the funding output.
          obtain ⟨record, hRecord⟩ := Option.ne_none_iff_exists'.mp (hDrops channelId hOld hNew nowMs)
          refine ⟨record, hRecord, h.carries channelId (.inr hOld) record (.inr ?_)⟩
          exact h.load nowMs ▸ hRecord
        · exact hCarries nowMs

end Writes

theorem loadRecords_encodable (files : Files) (nowMs : UInt64) : AllEncodable (loadRecords files nowMs) := by
  unfold loadRecords
  split
  · exact decodeRecordsMap_encodable _ _
  · intro key record h
    cases h

/-! ## The operations -/

/-- The invariant, as long as no write so far dropped an unrecorded channel. -/
structure NetOk (store : CloseRecordStore) : Prop where
  encodable : AllEncodable store.records
  inv : RecordFirst store.kvStore.states → ∃ disk, NetInv store disk

theorem carries_of_kept {old new : Records} (h : RecordsKept old new) {channelId : String}
    (hCarries : Carries old channelId) : Carries new channelId := by
  obtain ⟨record, hRecord, hTxo⟩ := hCarries
  obtain ⟨txo, hTxo⟩ := Option.ne_none_iff_exists'.mp hTxo
  obtain ⟨record', hRecord', hKeeps⟩ := h channelId record hRecord
  exact ⟨record', hRecord', Option.ne_none_iff_exists'.mpr ⟨txo, hKeeps.fundingTxo txo hTxo⟩⟩

theorem mergeInto_encodable {records : Records} (h : AllEncodable records) {channelId : String}
    {incoming : CloseRecord} (hIncoming : incoming.Encodable) : AllEncodable (mergeInto records channelId incoming) := by
  intro key record hRecord
  rw [mergeInto, StringMap.lookup_insert_eq] at hRecord
  split at hRecord
  · cases hRecord
    split
    · rename_i existing hExisting
      exact mergeCloseRecords_encodable (h _ existing hExisting) hIncoming
    · exact hIncoming
  · exact h key record hRecord

/-- A record that starts a listed channel must bring its funding output. -/
theorem NetOk.upsert {store : CloseRecordStore} (h : NetOk store) {incoming : CloseRecord}
    (hEncodable : incoming.Encodable)
    (hFirst : store.get incoming.channelId = none → store.fundingTxos.lookup incoming.channelId ≠ none →
      incoming.fundingTxo ≠ none) : NetOk (store.upsert incoming) := by
  have hMerged : AllEncodable (mergeInto store.records incoming.channelId incoming) :=
    mergeInto_encodable h.encodable hEncodable
  refine ⟨hMerged, ?_⟩
  intro hOrder
  obtain ⟨disk, hInv⟩ := h.inv hOrder.tail
  refine NetInv.persistRecordsLocally ⟨hInv.load, ?_, ?_, ?_, hInv.holds⟩ hMerged
  · exact fun channelId hCarries => carries_of_kept (mergeInto_kept _ _ _) (hInv.kept channelId hCarries)
  · intro channelId hListed record hRecord
    rcases hRecord with hRecord | hRecord
    · change (mergeInto store.records incoming.channelId incoming).lookup channelId = some record at hRecord
      rw [mergeInto, StringMap.lookup_insert_eq] at hRecord
      split at hRecord
      · rename_i hId
        subst hId
        cases hRecord
        split
        · rename_i existing hExisting
          have hTxo := hInv.carries _ hListed existing (.inl hExisting)
          obtain ⟨txo, hTxo⟩ := Option.ne_none_iff_exists'.mp hTxo
          exact Option.ne_none_iff_exists'.mpr ⟨txo, setOnce_or _ _ txo hTxo⟩
        · rename_i hNone
          by_cases hMemory : store.fundingTxos.lookup incoming.channelId = none
          · obtain ⟨record, hRecord, _⟩ := hInv.dropped _ (hListed.resolve_left (absurd hMemory)) hMemory
            rw [hNone] at hRecord
            cases hRecord
          · exact hFirst hNone hMemory
      · exact hInv.carries channelId hListed record (.inl hRecord)
    · exact hInv.carries channelId hListed record (.inr hRecord)
  · exact fun channelId hListed hNone => carries_of_kept (mergeInto_kept _ _ _) (hInv.dropped channelId hListed hNone)

theorem NetOk.removeFundingTxo {store : CloseRecordStore} (h : NetOk store) {channelId : String}
    (hHeld : store.get channelId ≠ none) : NetOk (store.removeFundingTxo channelId) := by
  rw [CloseRecordStore.removeFundingTxo]
  split
  · exact h
  · rename_i hMemory
    refine ⟨h.encodable, fun hOrder => ?_⟩
    obtain ⟨disk, hInv⟩ := h.inv hOrder.tail
    refine ⟨disk, NetInv.persistFundingTxos ?_ hOrder.rel⟩
    have hErase : ∀ key, (store.fundingTxos.erase channelId).lookup key ≠ none → store.fundingTxos.lookup key ≠ none := by
      intro key hKey
      rw [StringMap.lookup_erase_eq] at hKey
      split at hKey
      · exact absurd rfl hKey
      · exact hKey
    refine ⟨hInv.load, hInv.kept, ?_, ?_, hInv.holds⟩
    · exact fun key hListed => hInv.carries key (hListed.imp (hErase key) id)
    · intro key hListed hNone
      change (store.fundingTxos.erase channelId).lookup key = none at hNone
      rw [StringMap.lookup_erase_eq] at hNone
      split at hNone
      · rename_i hKey
        subst hKey
        obtain ⟨record, hRecord⟩ := Option.ne_none_iff_exists'.mp hHeld
        exact ⟨record, hRecord, hInv.carries key (.inl hMemory) record (.inl hRecord)⟩
      · exact hInv.dropped key hListed hNone

theorem get_upsert_ne_none (store : CloseRecordStore) {incoming : CloseRecord} {channelId : String}
    (h : incoming.channelId = channelId) : (store.upsert incoming).get channelId ≠ none := by
  rw [get_upsert, if_pos h.symm]
  exact Option.some_ne_none _

/-- No record of the channel, in memory or on disk, lacks its funding output. -/
def RecordsCarry (store : CloseRecordStore) (channelId : String) : Prop :=
  (∀ record, store.get channelId = some record → record.fundingTxo ≠ none) ∧
    ∀ nowMs record, (loadRecords store.kvStore.toFiles nowMs).lookup channelId = some record →
      record.fundingTxo ≠ none

theorem NetOk.recordFundingTxo {store : CloseRecordStore} (h : NetOk store) {channelId : String}
    (entry : FundingTxoEntry) (hCarry : RecordsCarry store channelId) :
    NetOk (store.recordFundingTxo channelId entry) := by
  rw [CloseRecordStore.recordFundingTxo]
  split
  · exact h
  · refine ⟨h.encodable, fun hOrder => ?_⟩
    obtain ⟨disk, hInv⟩ := h.inv hOrder.tail
    refine ⟨disk, NetInv.persistFundingTxos ?_ hOrder.rel⟩
    refine ⟨hInv.load, hInv.kept, ?_, ?_, hInv.holds⟩
    · intro key hListed record hRecord
      change (store.fundingTxos.insert channelId entry).lookup key ≠ none ∨ _ at hListed
      rw [StringMap.lookup_insert_eq] at hListed
      by_cases hKey : key = channelId
      · subst hKey
        rcases hRecord with hRecord | hRecord
        · exact hCarry.1 record hRecord
        · exact hCarry.2 0 record (hInv.load 0 ▸ hRecord)
      · rw [if_neg hKey] at hListed
        exact hInv.carries key hListed record hRecord
    · intro key hListed hNone
      change (store.fundingTxos.insert channelId entry).lookup key = none at hNone
      rw [StringMap.lookup_insert_eq] at hNone
      split at hNone
      · cases hNone
      · exact hInv.dropped key hListed hNone

theorem NetOk.restart {store : CloseRecordStore} (h : NetOk store) (nowMs : UInt64) :
    NetOk (.new store.kvStore nowMs) := by
  refine ⟨loadRecords_encodable _ nowMs, fun hOrder => ?_⟩
  obtain ⟨disk, hInv⟩ := h.inv hOrder
  have hRecords : (CloseRecordStore.new store.kvStore nowMs).records = disk := hInv.load nowMs
  refine ⟨disk, hInv.load, ?_, ?_, ?_, hInv.holds⟩
  · exact fun _ hCarries => hRecords ▸ hCarries
  · intro channelId hListed record hRecord
    refine hInv.carries channelId (.inr (hListed.elim id id)) record (.inr ?_)
    exact hRecord.elim (fun hRecord => hRecords ▸ hRecord) id
  · exact fun channelId hListed hNone => absurd hNone hListed

theorem NetOk.onChannelClosed {store : CloseRecordStore} (h : NetOk store) (channelId : String)
    {classification : ClosureClassification} (hOnchain : classification.hasOnchainTx = true)
    (eventFundingTxo : Option CloseOutpoint) (lastLocalBalanceSats : Option UInt64) (nowMs : UInt64) :
    NetOk (CloseRecords.onChannelClosed store channelId classification eventFundingTxo lastLocalBalanceSats nowMs) := by
  rw [CloseRecords.onChannelClosed, if_neg (fun hNot => absurd (hNot.1.symm.trans hOnchain) Bool.false_ne_true)]
  refine NetOk.removeFundingTxo (h.upsert ?_ ?_) ?_
  · exact skeleton_encodable rfl fun tx hTx => absurd hTx List.not_mem_nil
  · intro _ hMemory
    obtain ⟨entry, hEntry⟩ := Option.ne_none_iff_exists'.mp hMemory
    change (eventFundingTxo.or ((store.fundingTxos.lookup channelId).map FundingTxoEntry.outpoint)) ≠ none
    rw [show store.fundingTxos.lookup channelId = some entry from hEntry]
    cases eventFundingTxo <;> exact Option.some_ne_none _
  · exact get_upsert_ne_none store rfl

theorem told_encodable {input : PassInput} {record : CloseRecord} (hRecord : record.Encodable)
    {factTxs : List CloseRecordTx} (hTold : ∀ tx ∈ factTxs, Told input record tx) :
    (factsRecord record factTxs).Encodable := by
  refine skeleton_encodable rfl ?_
  intro tx hTx
  cases hTold tx hTx with
  | discovered _ hRole => rcases hRole with rfl | rfl <;> rfl
  | @filled known _ _ hMem _ => exact hRecord.roles known hMem

theorem netOk_passRule {input : PassInput} (hAlone : ∀ n, input.meanwhile n = []) :
    PassRule input NetOk CloseRecord.Encodable (fun _ _ => True) where
  tip _ _ h := ⟨h.encodable, fun hOrder =>
    (h.inv hOrder).imp fun _ hInv => ⟨hInv.load, hInv.kept, hInv.carries, hInv.dropped, hInv.holds⟩⟩
  meanwhile n op hOp := by
    rw [hAlone n] at hOp
    cases hOp
  known _ record h hGet := h.encodable _ record hGet
  listed _ _ _ _ _ := trivial
  net store channelId txo h _ := by
    rw [safetyNetStep]
    split
    · exact h
    · split
      · rename_i hHeld
        exact h.removeFundingTxo (Option.isSome_iff_ne_none.mp hHeld)
      · refine NetOk.removeFundingTxo (h.upsert ?_ fun _ _ => Option.some_ne_none _) ?_
        · exact skeleton_encodable rfl fun tx hTx => absurd hTx List.not_mem_nil
        · exact get_upsert_ne_none store rfl
  facts store record factTxs h hKnown hHeld hTold :=
    h.upsert (told_encodable hKnown hTold) fun hNone => absurd hNone hHeld
  complete store record factTxs resolution h hKnown hHeld hTold :=
    h.upsert (skeleton_encodable rfl fun tx hTx => absurd hTx List.not_mem_nil) fun hNone => absurd hNone hHeld

/-! ## Whole runs -/

inductive NetOp where
  | recordFundingTxo (channelId : String) (entry : FundingTxoEntry)
  | channelClosed (channelId : String) (classification : ClosureClassification)
      (eventFundingTxo : Option CloseOutpoint) (lastLocalBalanceSats : Option UInt64) (nowMs : UInt64)
  | reconcile (input : PassInput)
  /-- A crash or an exit; what the process had not written is gone. -/
  | restart (nowMs : UInt64)

def NetOp.apply : NetOp → CloseRecordStore → CloseRecordStore
  | .recordFundingTxo channelId entry, store => store.recordFundingTxo channelId entry
  | .channelClosed channelId classification eventFundingTxo lastLocalBalanceSats nowMs, store =>
    onChannelClosed store channelId classification eventFundingTxo lastLocalBalanceSats nowMs
  | .reconcile input, store => (reconcileCloseRecords input store).store
  | .restart nowMs, store => .new store.kvStore nowMs

/-- On-chain closes and passes that no other task disturbs. -/
def NetOp.Allowed : NetOp → Prop
  | .recordFundingTxo _ _ => True
  | .channelClosed _ classification _ _ _ => classification.hasOnchainTx = true
  | .reconcile input => ∀ n, input.meanwhile n = []
  | .restart _ => True

/-- The funding output of a channel is listed only while no record of it lacks one. -/
def NetOp.ListsInTime (store : CloseRecordStore) : NetOp → Prop
  | .recordFundingTxo channelId _ => RecordsCarry store channelId
  | _ => True

/-- The file system of a new install; any of its writes may fail. -/
def freshKv (fails : Nat → Bool) : KvStore :=
  { records := none, fundingTxos := none, fails := fails, writes := 0, past := [] }

inductive NetRun : CloseRecordStore → Prop
  | install (fails : Nat → Bool) (nowMs : UInt64) : NetRun (.new (freshKv fails) nowMs)
  | step {store : CloseRecordStore} (op : NetOp) (hRun : NetRun store) (hAllowed : op.Allowed)
      (hLists : op.ListsInTime store) : NetRun (op.apply store)

theorem install_ok (fails : Nat → Bool) (nowMs : UInt64) : NetOk (.new (freshKv fails) nowMs) := by
  have hUnlisted : ∀ channelId, ¬ (freshKv fails).toFiles.Listed channelId := fun _ h => h rfl
  refine ⟨loadRecords_encodable _ nowMs, fun _ => ⟨∅, fun _ => rfl, ?_, ?_, ?_, ?_⟩⟩
  · rintro channelId ⟨record, hRecord, _⟩
    cases hRecord
  · exact fun channelId hListed => absurd (hListed.elim id id) (hUnlisted channelId)
  · exact fun channelId hListed => absurd hListed (hUnlisted channelId)
  · refine ⟨trivial, ?_⟩
    rintro channelId ⟨earlier, hMem, hListed⟩
    rw [List.mem_singleton.mp hMem] at hListed
    exact absurd hListed (hUnlisted channelId)

theorem NetRun.ok {store : CloseRecordStore} (h : NetRun store) : NetOk store := by
  induction h with
  | install fails nowMs => exact install_ok fails nowMs
  | step op _ hAllowed hLists ih =>
    cases op with
    | recordFundingTxo channelId entry => exact ih.recordFundingTxo entry hLists
    | channelClosed channelId classification eventFundingTxo lastLocalBalanceSats nowMs =>
      exact ih.onChannelClosed channelId hAllowed eventFundingTxo lastLocalBalanceSats nowMs
    | reconcile input => exact (netOk_passRule hAllowed).reconcileCloseRecords ih
    | restart nowMs => exact ih.restart nowMs

/-- In every run that lists funding outputs in time, and whose writes never drop an entry before the
record of its channel is on disk, every state of the files is safe for every channel listed so far. -/
theorem netRun_holds {store : CloseRecordStore} (hRun : NetRun store)
    (hOrder : RecordFirst store.kvStore.states) : NetHolds store.kvStore.states := by
  obtain ⟨disk, hInv⟩ := hRun.ok.inv hOrder
  exact hInv.holds

/-! ## A close that is lost -/

def fundingEntry : FundingTxoEntry := { txid := "f", vout := 0, timelockBlocks := some 144 }

/-- The channel is listed on disk, which takes the first write. -/
def listedStore (fails : Nat → Bool) : CloseRecordStore :=
  NetOp.apply (.recordFundingTxo "c" fundingEntry) (.new (freshKv fails) 0)

def forceClose : ClosureClassification :=
  { description := "force", closeType := .force, initiator := .remote, hasOnchainTx := true }

/-- Its force close makes two more writes: the record, then the funding map without the entry. -/
def closedStore (fails : Nat → Bool) : CloseRecordStore :=
  NetOp.apply (.channelClosed "c" forceClose (some ⟨"f", 0⟩) none 1) (listedStore fails)

theorem closedStore_run (fails : Nat → Bool) : NetRun (closedStore fails) := by
  have hListed : NetRun (listedStore fails) := by
    refine .step (.recordFundingTxo "c" fundingEntry) (.install fails 0) trivial ⟨?_, ?_⟩
    · intro record h
      cases h
    · intro nowMs record h
      cases h
  exact .step (.channelClosed "c" forceClose (some ⟨"f", 0⟩) none 1) hListed rfl trivial

theorem listedStore_listed {fails : Nat → Bool} (h : fails 0 = false) : (listedStore fails).kvStore.Listed "c" := by
  have hFile : (listedStore fails).kvStore.fundingTxos =
      some (.ofJson (encodeFundingTxos ((∅ : FundingTxos).insert "c" fundingEntry))) := by
    change (if fails 0 = true then none else _) = _
    rw [h]
    rfl
  rw [Files.Listed, loadFundingTxos_encode hFile, StringMap.lookup_insert_eq]
  exact Option.some_ne_none _

theorem closedStore_unlisted {fails : Nat → Bool} (h : fails 2 = false) : ¬ (closedStore fails).kvStore.Listed "c" := by
  have hFile : (closedStore fails).kvStore.fundingTxos =
      some (.ofJson (encodeFundingTxos (((∅ : FundingTxos).insert "c" fundingEntry).erase "c"))) := by
    change (if fails 2 = true then _ else _) = _
    rw [h]
    rfl
  rw [Files.Listed, loadFundingTxos_encode hFile, StringMap.lookup_erase_eq]
  exact fun hNone => hNone rfl

/-- When the record's write fails and the removal's succeeds, a restart finds nothing of the close. -/
theorem closedStore_lost :
    NetRun (closedStore fun n => n = 1) ∧
    (listedStore fun n => n = 1).kvStore.toFiles ∈ (closedStore fun n => n = 1).kvStore.past ∧
    (listedStore fun n => n = 1).kvStore.Listed "c" ∧
    (∃ record, (closedStore fun n => n = 1).get "c" = some record ∧ record.completedAtMs = none) ∧
    ¬ (closedStore fun n => n = 1).kvStore.Safe "c" := by
  refine ⟨closedStore_run _, List.mem_cons_of_mem _ List.mem_cons_self, listedStore_listed rfl, ?_, ?_⟩
  · exact ⟨channelClosedRecord (some fundingEntry) "c" forceClose (some ⟨"f", 0⟩) none 1, rfl, rfl⟩
  · rintro (hListed | hCarries)
    · exact closedStore_unlisted rfl hListed
    · obtain ⟨record, hRecord, _⟩ := hCarries 0
      cases hRecord

/-- When all three writes succeed, the record is on disk before the entry leaves it. -/
theorem closedStore_recordFirst : RecordFirst (closedStore fun _ => false).kvStore.states := by
  let record := channelClosedRecord (some fundingEntry) "c" forceClose (some ⟨"f", 0⟩) none 1
  let recorded := (listedStore fun _ => false).upsert record
  have hStates : (closedStore fun _ => false).kvStore.states =
      [(closedStore fun _ => false).kvStore.toFiles, recorded.kvStore.toFiles,
        (listedStore fun _ => false).kvStore.toFiles, (freshKv fun _ => false).toFiles] := rfl
  have hListed : loadFundingTxos recorded.kvStore.toFiles = (∅ : FundingTxos).insert "c" fundingEntry :=
    loadFundingTxos_encode rfl
  have hRecorded : ∀ nowMs, loadRecords recorded.kvStore.toFiles nowMs = mergeInto ∅ "c" record :=
    loadRecords_encode rfl recorded.keyed (mergeInto_encodable (fun _ _ h => by cases h)
      (skeleton_encodable rfl fun _ h => by cases h))
  rw [hStates, RecordFirst, List.isChain_cons_cons, List.isChain_cons_cons, List.isChain_cons_cons]
  refine ⟨?_, ?_, ?_, .singleton _⟩
  · intro channelId hOld _ nowMs
    rw [Files.Listed, hListed, StringMap.lookup_insert_eq] at hOld
    rw [hRecorded, mergeInto, StringMap.lookup_insert_eq]
    split at hOld
    · rename_i hKey
      rw [if_pos hKey]
      exact Option.some_ne_none _
    · exact absurd rfl hOld
  · exact fun channelId hOld hNew => absurd hOld hNew
  · exact fun channelId hOld _ => absurd rfl hOld

theorem netRun_holds_closedStore : NetHolds (closedStore fun _ => false).kvStore.states :=
  netRun_holds (closedStore_run _) closedStore_recordFirst

end WalletCore.CloseRecords
