import WalletCore.Restore.Newest
import WalletCore.Vss.Bootable
import WalletCore.Vss.Retention

/-! # What was reported is restored

The reports to the channel manager, the server and a restore on an empty device, taken together: once an
update of a channel was reported as backed up, every restore that runs through leaves that update or a
later one on the device.
-/

namespace WalletCore.Restore

open Lib Vss

/-- The transport answers with what the server has, and lists all of it. -/
structure Faithful (transport : Transport) (server : Server) (listing : List (String × Nat)) : Prop where
  reads : Reads transport server
  stored : ∀ key, transport.getByStoredKey (transport.obfuscate key) = .ok (server key)
  listed : transport.listKeyVersions = .ok listing
  complete : ∀ storedKey, storedKey ∈ listing.map Prod.fst ↔
    ∃ key, transport.obfuscate key = storedKey ∧ (server key).isSome = true

/-- Only this key has copies of the channel. -/
def Sole (stack : Stack) (server : Server) (key localKey : String) : Prop :=
  ∀ other value version parsed, server other = some (value, version) → stack.deserializeMonitor value = some parsed →
    parsed.localKey = localKey → other = key

theorem not_monitorKey_of_fixed : ∀ key ∈ fixedRemoteKeys, isValidMonitorKey key = false := by decide +kernel

section

variable {transport : Transport} {stack : Stack} {server : Server} {listing : List (String × Nat)}
  {manifestKeys : List String} {listed : List ValidatedMonitor} {plan : RestorePlan} {key localKey : String}
  {bytes : Bytes} {version : Nat}

theorem writeAll_monitor (writes : List (StoreFile × Bytes)) {store : KvStore}
    (hOnly : ∀ write ∈ writes, write.1 = .monitor localKey → write.2 = bytes)
    (h : store.monitors.lookup localKey = some bytes ∨ StoreFile.monitor localKey ∈ writes.map Prod.fst) :
    (store.writeAll writes).monitors.lookup localKey = some bytes := by
  induction writes generalizing store with
  | nil => exact h.resolve_right (by simp)
  | cons write rest ih =>
    obtain ⟨hHere, hRest⟩ := List.forall_mem_cons.mp hOnly
    refine ih hRest ?_
    by_cases hFile : write.1 = .monitor localKey
    · left
      change (store.write write.2 write.1).monitors.lookup localKey = _
      rw [hFile, hHere hFile]
      exact Finmap.lookup_insert _
    · have hKept : (store.write write.2 write.1).monitors.lookup localKey = store.monitors.lookup localKey := by
        obtain ⟨file, value⟩ := write
        cases file with
        | monitor name =>
          refine Finmap.lookup_insert_of_ne _ fun hName => hFile ?_
          exact congrArg StoreFile.monitor hName.symm
        | manager | peers | other => rfl
      refine h.imp (fun hLookup => hKept.trans hLookup) fun hMem => ?_
      rw [List.map_cons, List.mem_cons] at hMem
      exact hMem.resolve_left (Ne.symm hFile)

/-- Every planned copy of the channel is the one under its key. -/
theorem Prepared.sole (h : Prepared transport stack listing manifestKeys listed plan)
    (hFaithful : Faithful transport server listing) (hSole : Sole stack server key localKey)
    (hHeld : server key = some (bytes, version)) {monitor : ValidatedMonitor} (hMonitor : monitor ∈ plan.monitors)
    (hLocal : monitor.localKey = localKey) : monitor.bytes = bytes := by
  rw [h.monitors, List.mem_append, List.mem_filter] at hMonitor
  have hSame : ∀ other, server other = some (monitor.bytes, monitor.version) →
      (∃ parsed, stack.deserializeMonitor monitor.bytes = some parsed ∧ monitor.localKey = parsed.localKey) →
      monitor.bytes = bytes := by
    rintro other hOther ⟨parsed, hParsed, hName⟩
    obtain rfl := hSole other _ _ parsed hOther hParsed (hName.symm.trans hLocal)
    cases hHeld.symm.trans hOther
    rfl
  obtain hListed | ⟨hAdopted, -⟩ := hMonitor
  · obtain ⟨hGet, hParsed⟩ := downloadMonitor_ok (h.downloaded monitor hListed)
    rw [hFaithful.reads] at hGet
    exact hSame _ (Except.ok.inj hGet) hParsed
  · obtain ⟨storedKey, hUnexplained, hFound⟩ := List.mem_filterMap.mp hAdopted
    obtain ⟨hGet, hParsed⟩ := adoptedMonitor_some hFound
    obtain ⟨other, rfl, -⟩ := (hFaithful.complete storedKey).mp (mem_unexplainedRemoteKeys.mp hUnexplained).1
    rw [hFaithful.stored] at hGet
    exact hSame _ (Except.ok.inj hGet) hParsed

/-- The copy under the key is fetched, listed or not. -/
theorem Faithful.fetched (h : Faithful transport server listing) (hSole : Sole stack server key localKey)
    (hKey : isValidMonitorKey key = true) (hHeld : server key = some (bytes, version)) {parsed : DeserializedMonitor}
    (hParsed : stack.deserializeMonitor bytes = some parsed) (hLocal : parsed.localKey = localKey) :
    Fetched transport listing manifestKeys (transport.obfuscate key) bytes := by
  by_cases hListed : key ∈ manifestKeys
  · exact .inl ⟨key, hListed, rfl, version, by rw [h.reads, hHeld]⟩
  · refine .inr ⟨mem_unexplainedRemoteKeys.mpr ⟨?_, fun other hExpected hSame => ?_⟩, version, by rw [h.stored, hHeld]⟩
    · rw [h.complete]
      exact ⟨key, rfl, by rw [hHeld]; rfl⟩
    · -- a key with the same stored name has the same blob, and so is the key
      have hOther : server other = some (bytes, version) := by
        have hStored := h.stored other
        rw [hSame, h.stored key] at hStored
        rw [← hHeld]
        exact (Except.ok.inj hStored).symm
      obtain rfl := hSole other _ _ parsed hOther hParsed hLocal
      rcases List.mem_append.mp hExpected with hFixed | hManifest
      · rw [not_monitorKey_of_fixed _ hFixed] at hKey
        cases hKey
      · exact hListed hManifest

theorem restored_of_held (hFaithful : Faithful transport server listing) (hSole : Sole stack server key localKey)
    (hKey : isValidMonitorKey key = true) (hHeld : server key = some (bytes, version)) {parsed : DeserializedMonitor}
    (hParsed : stack.deserializeMonitor bytes = some parsed) (hLocal : parsed.localKey = localKey) {adoptedCount : Nat}
    (hPlan : preparePlan transport stack listing = .ok (plan, adoptedCount)) (store : KvStore) :
    (store.writeAll plan.localWrites).monitors.lookup localKey = some bytes := by
  obtain ⟨manifest, listed, -, hPrepared⟩ := preparePlan_prepared hPlan
  obtain ⟨monitor, hMonitor, hName⟩ := hPrepared.kept (hFaithful.fetched hSole hKey hHeld hParsed hLocal) hParsed
  refine writeAll_monitor _ ?_ (.inr ?_)
  · intro write hWrite hFile
    rw [RestorePlan.localWrites, List.mem_append, List.mem_append] at hWrite
    rcases hWrite with (hManager | hCopy) | hPeers
    · cases hCm : plan.cm <;> simp [hCm] at hManager
      rw [hManager] at hFile
      cases hFile
    · obtain ⟨other, hOther, rfl⟩ := List.mem_map.mp hCopy
      exact hPrepared.sole hFaithful hSole hHeld hOther (StoreFile.monitor.inj hFile)
    · cases hPlanned : plan.peers <;> simp [hPlanned] at hPeers
      rw [hPeers] at hFile
      cases hFile
  · rw [RestorePlan.localWrites, List.map_append, List.map_append, List.map_map]
    refine List.mem_append_left _ (List.mem_append_right _ (List.mem_map.mpr ⟨monitor, hMonitor, ?_⟩))
    exact congrArg StoreFile.monitor (hName.trans hLocal)

end

/-- Once a monitor update has been reported as backed up, by whatever run of one client over any number of
sessions, both doors restore the channel: a restore that runs through leaves on the device the bytes of
that update or of one that was queued later. -/
theorem reported_update_restored (server : Server) (monitors archivedMonitors : StringMap LocalMonitor)
    (fencedFlag : Bool) (seed : Seed) (key : String) (hKey : isValidMonitorKey key = true) (acts : List Act)
    (hTends : Along World.step (fun w act => tendsKey key w act = true)
      (.start server monitors archivedMonitors fencedFlag seed) acts) (w : World)
    (hRun : exec World.step (.start server monitors archivedMonitors fencedFlag seed) acts = some w)
    (id : Nat) (write : MonitorWrite) (isNew : Bool) (hReported : .monitorUpdated id write isNew ∈ w.trace)
    (hWrite : write.vssKey = key) (fs : FileSystem) (wallets : Wallets) (raw words : String)
    (hWords : wallets.parseMnemonic raw = some words)
    (hParses : ∀ id' write' isNew', .queued id' write' isNew' ∈ w.trace → write'.vssKey = key →
      ∃ parsed, (wallets.node words).deserializeMonitor write'.bytes = some parsed ∧ parsed.localKey = write.localKey)
    (hSole : Sole (wallets.node words).toStack w.server key write.localKey) (transport : Transport)
    (listing : List (String × Nat)) (hFaithful : Faithful transport w.server listing) (plan : RestorePlan)
    (adoptedCount : Nat) (hPlan : preparePlan transport (wallets.node words).toStack listing = .ok (plan, adoptedCount))
    (nowMs : UInt64) (device : Device) :
    ∃ id' write' isNew', .queued id' write' isNew' ∈ w.trace ∧ write'.vssKey = key ∧ id ≤ id' ∧
      (runRestore fs wallets (some transport) raw nowMs).Clean
        (fun _ disk => disk.store.monitors.lookup write.localKey = some write'.bytes) device ∧
      (silentRecovery (wallets.node words) transport listing).Clean
        (fun _ disk => disk.store.monitors.lookup write.localKey = some write'.bytes) device := by
  obtain ⟨id', write', isNew', hQueued, hSame, hLater, hHeld⟩ :=
    (retained_run hKey hTends hRun).covered id write isNew hReported hWrite
  obtain ⟨⟨bytes, version⟩, hEntry, hBytes⟩ := Option.map_eq_some_iff.mp hHeld
  obtain rfl : bytes = write'.bytes := hBytes
  obtain ⟨parsed, hParsed, hLocal⟩ := hParses id' write' isNew' hQueued hSame
  have hRestored := restored_of_held hFaithful hSole hKey hEntry hParsed hLocal hPlan
  have hSome : listing ≠ [] := by
    rintro rfl
    have hListed := (hFaithful.complete (transport.obfuscate key)).mpr ⟨key, rfl, by rw [hEntry]; rfl⟩
    cases hListed
  refine ⟨id', write', isNew', hQueued, hSame, hLater, ?_, ?_⟩
  · refine Prog.clean_post (runRestore_writes nowMs hWords hFaithful.listed hSome hPlan) fun _ disk hStore => ?_
    rw [hStore]
    exact hRestored _
  · refine Prog.clean_post (silentRecovery_writes hPlan) fun _ disk hStore => ?_
    rw [hStore]
    exact hRestored _

/-! ## An update that was reported, and one that was not -/

/-- A channel with two states. -/
def sampleNode : Node where
  deserializeMonitor bytes :=
    if bytes = .raw [1] ∨ bytes = .raw [2] then some ⟨"monitor", ⟨Vector.replicate 32 0, 0⟩, "channel"⟩ else none
  byteLength _ := 32
  readManager _ _ := some []
  freshManager := .raw []
  funded_monitored := numberedNode.funded_monitored

/-- The first update is reported; the process ends while the put of the second is unanswered. -/
def reportedThenLost : List Act :=
  [.call (.queueMonitorWrite (sampleWrite [1]) true), .resume 0 calm, .deliver 0 .ok, .resume 0 calm, .resume 0 calm,
   .deliver 0 .ok, .resume 0 calm, .call (.queueMonitorWrite (sampleWrite [2]) false), .resume 1 calm, .deliver 1 .lost,
   .restart ⟨fun _ => none, ∅⟩]

/-- The server has a manager, and no channel yet. -/
def unchanneled : Server := fun key => if key = channelManagerVssKey then some (.raw [], 1) else none

def secondStored : Server :=
  Function.update (Function.update (Function.update unchanneled sampleKey (some (.raw [1], 1))) monitorManifestKey
    (some (manifestPayload [sampleKey], 1))) sampleKey (some (.raw [2], 2))

def secondListing : List (String × Nat) := [(channelManagerVssKey, 1), (sampleKey, 2), (monitorManifestKey, 1)]

def secondBackup : Transport where
  obfuscate := id
  listKeyVersions := .ok secondListing
  get key := .ok (secondStored key)
  getByStoredKey key := .ok (secondStored key)
  putManifest := .ok 2
  refetchManifest := .ok none
  putMany := .ok ()
  identifyLate _ := false
  downloadLate _ := false

theorem secondBackup_faithful : Faithful secondBackup secondStored secondListing := by
  refine ⟨fun _ => rfl, fun _ => rfl, rfl, fun storedKey => ?_⟩
  have hHas : (secondStored storedKey).isSome = true ↔
      storedKey = channelManagerVssKey ∨ storedKey = sampleKey ∨ storedKey = monitorManifestKey := by
    by_cases hSample : storedKey = sampleKey
    · simp [hSample, secondStored]
    · by_cases hManifest : storedKey = monitorManifestKey
      · subst hManifest
        decide +kernel
      · rw [secondStored, Function.update_of_ne hSample, Function.update_of_ne hManifest, Function.update_of_ne hSample,
          unchanneled]
        split <;> simp [*]
  change _ ↔ ∃ key, key = storedKey ∧ _
  simp [secondListing, hHas]

theorem secondBackup_plan : ∃ plan, preparePlan secondBackup sampleNode.toStack secondListing = .ok (plan, 0) :=
  ⟨⟨some 1, some (.raw [], 1), [⟨sampleKey, "monitor", .raw [2], 2, true⟩], none⟩, by rfl⟩

def sampleWallets : Wallets where
  parseMnemonic := some
  node _ := sampleNode
  parse_words _ _ _ := rfl

theorem reported_update_restored_second :
    ∃ w, exec World.step (.start unchanneled ∅ ∅ false ⟨fun _ => none, ∅⟩) reportedThenLost = some w ∧
      ∃ id write isNew, .queued id write isNew ∈ w.trace ∧ write.vssKey = sampleKey ∧ 0 ≤ id ∧
        (runRestore sortedFiles sampleWallets (some secondBackup) "words" 0).Clean
          (fun _ disk => disk.store.monitors.lookup "monitor" = some write.bytes) newWallet ∧
        (silentRecovery sampleNode secondBackup secondListing).Clean
          (fun _ disk => disk.store.monitors.lookup "monitor" = some write.bytes) newWallet := by
  obtain ⟨w, hRun⟩ : ∃ w, exec World.step (.start unchanneled ∅ ∅ false ⟨fun _ => none, ∅⟩) reportedThenLost = some w :=
    Option.isSome_iff_exists.mp (by decide +kernel)
  have hServer : w.server = secondStored := by
    funext key
    have hEnd : (exec World.step (.start unchanneled ∅ ∅ false ⟨fun _ => none, ∅⟩) reportedThenLost).map
        (fun w => w.server key) = some (secondStored key) := by with_unfolding_all rfl
    rw [hRun] at hEnd
    exact Option.some.inj hEnd
  have hTrace : .monitorUpdated 0 (sampleWrite [1]) true ∈ w.trace ∧ w.trace.filter (Event.queues sampleKey) =
      [.queued 1 (sampleWrite [2]) false, .queued 0 (sampleWrite [1]) true] := by
    have hEnd : (exec World.step (.start unchanneled ∅ ∅ false ⟨fun _ => none, ∅⟩) reportedThenLost).map (fun w =>
        decide (.monitorUpdated 0 (sampleWrite [1]) true ∈ w.trace ∧ w.trace.filter (Event.queues sampleKey) =
          [.queued 1 (sampleWrite [2]) false, .queued 0 (sampleWrite [1]) true])) = some true := by decide +kernel
    rw [hRun, Option.map_some, Option.some.injEq, decide_eq_true_eq] at hEnd
    exact hEnd
  obtain ⟨hReported, hQueued⟩ := hTrace
  obtain ⟨plan, hPlan⟩ := secondBackup_plan
  refine ⟨w, hRun, ?_⟩
  refine reported_update_restored unchanneled ∅ ∅ false ⟨fun _ => none, ∅⟩ sampleKey (by decide) reportedThenLost
    (by decide +kernel) w hRun 0 (sampleWrite [1]) true hReported rfl sortedFiles sampleWallets "words" "words" rfl ?_ ?_
    secondBackup secondListing (hServer ▸ secondBackup_faithful) plan 0 hPlan 0 newWallet
  · intro id write isNew hMem hKey
    have hFiltered : .queued id write isNew ∈ w.trace.filter (Event.queues sampleKey) :=
      List.mem_filter.mpr ⟨hMem, beq_iff_eq.mpr hKey⟩
    rw [hQueued, List.mem_cons, List.mem_singleton] at hFiltered
    rcases hFiltered with hSecond | hFirst
    · cases hSecond
      exact ⟨_, rfl, rfl⟩
    · cases hFirst
      exact ⟨_, rfl, rfl⟩
  · intro other value version parsed hOther hParsed _
    rw [hServer] at hOther
    by_contra hOtherKey
    rw [secondStored, Function.update_of_ne hOtherKey] at hOther
    by_cases hManifest : other = monitorManifestKey
    · rw [hManifest, Function.update_self] at hOther
      cases hOther
      cases hParsed
    · rw [Function.update_of_ne hManifest, Function.update_of_ne hOtherKey, unchanneled] at hOther
      split at hOther
      · cases hOther
        cases hParsed
      · cases hOther

end WalletCore.Restore
