import WalletCore.Restore.Startup

/-! # What a start knows about the remote blobs

The tracking set that a start hands to the store calls a key publishable only when the start has seen a blob
under exactly that key: in the listing, by a download that was verified, or by its own batch.
-/

namespace WalletCore.Restore

open Lib Vss

/-- What a start saw of a remote blob under the key; `device` is the state it leaves. -/
inductive StartEvidence (transport : Transport) (stack : Stack) (device : Device) (key : String) : Prop
  | listing (listing : List (String × Nat)) (version : Nat) (hListing : transport.listKeyVersions = .ok listing)
    (hKey : (transport.obfuscate key, version) ∈ listing)
  | download (listing : List (String × Nat)) (monitor : ValidatedMonitor)
    (hListing : transport.listKeyVersions = .ok listing) (hMonitor : Downloaded transport stack listing monitor)
    (hVerified : monitor.keyVerified = true) (hKey : monitor.vssKey = key)
  | batch (items : List (String × Bytes)) (listed : Option ManifestPut) (bytes : Bytes)
    (hSent : .batch items listed ∈ device.sent) (hAcked : transport.putMany = .ok ()) (hKey : (key, bytes) ∈ items)

/-- Every publishable key of the startup state is well formed and was seen remotely. -/
def StartupState.Evidenced (transport : Transport) (stack : Stack) (state : StartupState) (device : Device) : Prop :=
  ∀ key, state.monitorKeys.lookup key = some .publishable →
    isValidMonitorKey key = true ∧ StartEvidence transport stack device key

section

variable {transport : Transport} {stack : Stack}

theorem StartEvidence.mono {device device' : Device} {key : String} (h : StartEvidence transport stack device key)
    (hSent : ∀ sent ∈ device.sent, sent ∈ device'.sent) : StartEvidence transport stack device' key := by
  cases h with
  | listing listing version hListing hKey => exact .listing listing version hListing hKey
  | download listing monitor hListing hMonitor hVerified hKey =>
    exact .download listing monitor hListing hMonitor hVerified hKey
  | batch items listed bytes hBatch hAcked hKey => exact .batch items listed bytes (hSent _ hBatch) hAcked hKey

theorem silentRecovery_evidenced {node : Node} {listing : List (String × Nat)}
    (hListing : transport.listKeyVersions = .ok listing) (device : Device) :
    (silentRecovery node transport listing).wp (fun _ => True) (fun _ _ => True)
      (fun state device => state.Evidenced transport node.toStack device) device := by
  refine silentRecovery_returns ?_ device
  intro plan adoptedCount hPlan device key hKey
  obtain ⟨-, hPublishable⟩ := MonitorKeySet.publishable_of_fromParts hKey
  rw [decide_eq_true_eq, RestorePlan.publishableMonitorKeys, List.mem_toFinset, List.mem_map] at hPublishable
  obtain ⟨monitor, hMonitor, rfl⟩ := hPublishable
  obtain ⟨hMem, hVerified⟩ := List.mem_filter.mp hMonitor
  have hDownloaded := preparePlan_downloaded hPlan monitor hMem
  exact ⟨hDownloaded.valid, .download listing monitor hListing hDownloaded hVerified rfl⟩

theorem mem_derivedEntries {files : List (String × DeserializedMonitor × Bytes)} {key : String}
    (h : key ∈ ((files.map fun file => (file.2.1.derivedVssKey, file.2.2)).map Prod.fst).toFinset) :
    ∃ file ∈ files, key = file.2.1.derivedVssKey := by
  rw [List.mem_toFinset, List.map_map, List.mem_map] at h
  obtain ⟨file, hFile, rfl⟩ := h
  exact ⟨file, hFile, rfl⟩

theorem migrate_evidenced (store : KvStore) (files : List (String × DeserializedMonitor × Bytes)) (device : Device) :
    (migrate transport store (files.map fun file => (file.2.1.derivedVssKey, file.2.2))).wp (fun _ => True)
      (fun _ _ => True) (fun state device => state.Evidenced transport stack device) device := by
  refine Prog.wp_bind (Prog.wp_send trivial ?_)
  split
  · rename_i hAcked
    refine Prog.wp_pure ?_
    intro key hKey
    obtain ⟨hTracked, -⟩ := MonitorKeySet.publishable_of_fromParts hKey
    obtain ⟨file, hFile, rfl⟩ := mem_derivedEntries ((Finset.mem_sort _).mp hTracked)
    refine ⟨isValidMonitorKey_monitorVssKey _, ?_⟩
    refine .batch _ _ file.2.2 (List.mem_append_right _ (List.mem_singleton.mpr rfl)) hAcked ?_
    exact List.mem_append_left _ (List.mem_append_left _
      (List.mem_append_right _ (List.mem_map.mpr ⟨file, hFile, rfl⟩)))
  · refine Prog.wp_pure ?_
    intro key hKey
    cases (MonitorKeySet.publishable_of_fromParts hKey).2

theorem seedVersions_evidenced {listing : List (String × Nat)} (hListing : transport.listKeyVersions = .ok listing)
    (files : List (String × DeserializedMonitor × Bytes)) (device : Device) :
    (seedVersions transport listing (files.map fun file => (file.2.1.derivedVssKey, file.2.2))).Evidenced transport
      stack device := by
  intro key hKey
  obtain ⟨hTracked, hVersion⟩ := MonitorKeySet.publishable_of_fromParts hKey
  obtain ⟨file, -, rfl⟩ := mem_derivedEntries ((Finset.mem_sort _).mp hTracked)
  refine ⟨isValidMonitorKey_monitorVssKey _, ?_⟩
  obtain ⟨version, hLookup⟩ := Option.isSome_iff_exists.mp hVersion
  have hMem := StringMap.mem_of_lookup_ofPairs hLookup
  rw [List.mem_filterMap] at hMem
  obtain ⟨key, -, hEntry⟩ := hMem
  obtain ⟨listed, hListed, hPair⟩ := Option.map_eq_some_iff.mp hEntry
  cases hPair
  exact .listing listing version hListing (StringMap.mem_of_lookup_ofPairs hListed)

/-- A start that comes to an end hands over a tracking set it has evidence for. -/
theorem establishVssState_evidenced (fs : FileSystem) (node : Node) (transport : Transport) (device : Device) :
    (establishVssState fs node transport).wp (fun _ => True) (fun _ _ => True)
      (fun state device => state.Evidenced transport node.toStack device) device := by
  refine establishVssState_returns ?_ ?_ ?_ device
  · intro state device hState key hKey
    exact ⟨(hState key hKey).1, (hState key hKey).2.mono fun _ => id⟩
  · intro listing _ _
    refine ⟨fun device key hKey => ?_, fun store files device => migrate_evidenced store files device⟩
    cases hKey
  · intro listing hListing
    exact ⟨silentRecovery_evidenced hListing, seedVersions_evidenced hListing⟩

end

/-! ## The session that follows -/

def StartupState.seed (state : StartupState) : Seed := ⟨state.versions.lookup, state.monitorKeys⟩

/-- The monitor files as the store registers them: by name, with the key their funding outpoint spells. -/
def localMonitors (files : List (String × DeserializedMonitor × Bytes)) : StringMap LocalMonitor :=
  .ofPairs (files.map fun file => (file.1, ⟨file.2.1.derivedVssKey, file.2.2⟩))

/-- A session's store and server after a run of the store: the start came to an end with the given state over
the given device, its monitor files were loaded, and the steps since then stay in the session. -/
structure SessionRun (fs : FileSystem) (node : Node) (transport : Transport) (device : Device) (w : World) where
  before : Device
  fates : List Fate
  rest : List Fate
  state : StartupState
  files : List (String × DeserializedMonitor × Bytes)
  server : Server
  archivedMonitors : StringMap LocalMonitor
  fencedFlag : Bool
  acts : List Act
  started : establishVssState fs node transport before fates = .ok state device rest
  remote : state.remote = true
  loaded : readChannelMonitors node device.store = some files
  stays : ∀ act ∈ acts, ∀ seed, act ≠ .restart seed
  run : exec World.step (.start server (localMonitors files) archivedMonitors fencedFlag state.seed) acts = some w

theorem SessionRun.evidenced {fs : FileSystem} {node : Node} {transport : Transport} {device : Device} {w : World}
    (session : SessionRun fs node transport device w) :
    session.state.Evidenced transport node.toStack device :=
  Prog.wp_ok (establishVssState_evidenced fs node transport session.before) session.started

end WalletCore.Restore
