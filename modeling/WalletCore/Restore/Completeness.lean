import WalletCore.Restore.CrashPrefix

/-! # Complete plans

A prepared plan accounts for every key of the listing, and both doors prepare the same one. What keeps a
plan from being prepared is an error, and then nothing is written.
-/

namespace WalletCore.Restore

open Lib Vss

/-! ## What is downloaded -/

section

variable (transport : Transport) (stack : Stack)

/-- What a key that nothing explains is adopted as. -/
def adoptedMonitor (storedKey : String) : Option ValidatedMonitor :=
  match transport.getByStoredKey storedKey with
  | .ok (some (bytes, version)) => (stack.deserializeMonitor bytes).map fun parsed =>
    ⟨parsed.derivedVssKey, parsed.localKey, bytes, version, transport.obfuscate parsed.derivedVssKey == storedKey⟩
  | _ => none

/-- The adopted monitors, in listing order. -/
def unlistedMonitors (listing : List (String × Nat)) (manifestKeys : List String) : List ValidatedMonitor :=
  (unexplainedRemoteKeys listing manifestKeys transport).filterMap (adoptedMonitor transport stack)

end

/-- A prepared plan, by what the server answered: the manifest's monitors in its order, and behind them
the adopted ones whose channel it does not list. -/
structure Prepared (transport : Transport) (stack : Stack) (listing : List (String × Nat)) (manifestKeys : List String)
    (listed : List ValidatedMonitor) (plan : RestorePlan) : Prop where
  keys : listed.map (·.vssKey) = manifestKeys
  downloaded : ∀ monitor ∈ listed, downloadMonitor transport stack monitor.vssKey = .ok monitor
  identified : ∀ storedKey ∈ unexplainedRemoteKeys listing manifestKeys transport,
    transport.getByStoredKey storedKey = .ok none ∨ (adoptedMonitor transport stack storedKey).isSome = true
  monitors : plan.monitors = listed ++ (unlistedMonitors transport stack listing manifestKeys).filter fun monitor =>
    monitor.localKey ∉ listed.map (·.localKey)
  cm : downloadManager transport stack manifestKeys = .ok plan.cm
  peers : downloadPeers transport = .ok plan.peers
  managed : plan.monitors ≠ [] → plan.cm.isSome = true

section

variable {transport : Transport} {stack : Stack} {listing : List (String × Nat)}

theorem verifyUnexplainedKey_cases {verdict verdict' : UnexplainedKeyVerdict} {storedKey : String}
    (h : verifyUnexplainedKey transport stack verdict storedKey = .ok verdict') :
    transport.getByStoredKey storedKey = .ok none ∧ adoptedMonitor transport stack storedKey = none ∧ verdict' = verdict ∨
    verdict'.rejected = verdict.rejected ++ [storedKey] ∨
    ∃ monitor, adoptedMonitor transport stack storedKey = some monitor ∧
      verdict' = ⟨verdict.adopted ++ [monitor], verdict.rejected⟩ := by
  rw [verifyUnexplainedKey] at h
  rw [adoptedMonitor]
  split at h
  · next hGet =>
    cases h
    exact .inl ⟨hGet, by rw [hGet], rfl⟩
  · cases h
    exact .inr (.inl rfl)
  · cases h
  · next bytes version hGet =>
    split at h
    · cases h
      exact .inr (.inl rfl)
    · next parsed hParsed =>
      cases h
      exact .inr (.inr ⟨_, by rw [hGet]; dsimp only; rw [hParsed]; rfl, rfl⟩)

/-- Without a rejection every key was gone or is adopted, in order. -/
theorem verifyUnexplainedKeys_spec {index : Nat} {verdict verdict' : UnexplainedKeyVerdict} {keys : List String}
    (h : verifyUnexplainedKeys transport stack index verdict keys = .ok verdict') (hNone : verdict'.rejected = []) :
    verdict.rejected = [] ∧ verdict'.adopted = verdict.adopted ++ keys.filterMap (adoptedMonitor transport stack) ∧
    ∀ key ∈ keys, transport.getByStoredKey key = .ok none ∨ (adoptedMonitor transport stack key).isSome = true := by
  induction keys generalizing index verdict with
  | nil =>
    cases h
    exact ⟨hNone, by simp, nofun⟩
  | cons key rest ih =>
    rw [verifyUnexplainedKeys] at h
    split at h
    · cases h
    · obtain ⟨next, hNext, hRest⟩ := bind_ok h
      obtain ⟨hRejected, hAdopted, hLater⟩ := ih hRest
      obtain ⟨hGone, hNo, rfl⟩ | hReject | ⟨monitor, hMonitor, rfl⟩ := verifyUnexplainedKey_cases hNext
      · refine ⟨hRejected, ?_, List.forall_mem_cons.mpr ⟨.inl hGone, hLater⟩⟩
        rw [hAdopted, List.filterMap_cons, hNo]
      · rw [hReject] at hRejected
        exact absurd hRejected (List.append_ne_nil_of_right_ne_nil _ (List.cons_ne_nil _ _))
      · refine ⟨hRejected, ?_, List.forall_mem_cons.mpr ⟨.inr (by rw [hMonitor]; rfl), hLater⟩⟩
        rw [hAdopted, List.filterMap_cons, hMonitor]
        simp

theorem adoptUnexplainedMonitors_spec {manifestKeys : List String} {adopted : List ValidatedMonitor}
    (h : adoptUnexplainedMonitors transport stack listing manifestKeys = .ok adopted) :
    adopted = unlistedMonitors transport stack listing manifestKeys ∧
    ∀ storedKey ∈ unexplainedRemoteKeys listing manifestKeys transport,
      transport.getByStoredKey storedKey = .ok none ∨ (adoptedMonitor transport stack storedKey).isSome = true := by
  rw [adoptUnexplainedMonitors] at h
  split at h
  · cases h
  · next verdict hVerdict =>
    split at h
    · next hNone =>
      cases h
      obtain ⟨-, hAdopted, hAll⟩ := verifyUnexplainedKeys_spec hVerdict (List.isEmpty_iff.mp hNone)
      exact ⟨hAdopted, hAll⟩
    · cases h

theorem downloadMonitors_keys {index : Nat} {keys : List String} {monitors : List ValidatedMonitor}
    (h : downloadMonitors transport stack index keys = .ok monitors) : monitors.map (·.vssKey) = keys := by
  induction keys generalizing index monitors with
  | nil =>
    cases h
    rfl
  | cons vssKey rest ih =>
    obtain ⟨first, others, rfl, hKey, -, hOthers⟩ := downloadMonitors_cons h
    rw [List.map_cons, hKey, ih hOthers]

theorem preparePlan_prepared {plan : RestorePlan} {adoptedCount : Nat}
    (h : preparePlan transport stack listing = .ok (plan, adoptedCount)) :
    ∃ manifest listed, fetchManifest transport = .ok manifest ∧
      Prepared transport stack listing ((manifest.map Prod.fst).getD []) listed plan := by
  obtain ⟨manifest, hManifest, h⟩ := bind_ok h
  obtain ⟨adopted, hAdopted, h⟩ := bind_ok h
  obtain ⟨downloaded, hDownloaded, h⟩ := bind_ok h
  obtain ⟨cm, hCm, hDownloaded⟩ := bind_ok hDownloaded
  obtain ⟨listed, hListed, hDownloaded⟩ := bind_ok hDownloaded
  obtain ⟨peers, hPeers, hDownloaded⟩ := bind_ok hDownloaded
  cases hDownloaded
  obtain ⟨rfl, hIdentified⟩ := adoptUnexplainedMonitors_spec hAdopted
  refine ⟨manifest, listed, hManifest, ?_⟩
  rw [mergeAdoptedMonitors] at h
  split at h
  · cases h
  · next hManaged =>
    cases h
    exact {
      keys := downloadMonitors_keys hListed
      downloaded := fun monitor hMonitor => (downloadMonitors_mem hListed monitor hMonitor).2
      identified := hIdentified
      monitors := rfl
      cm := hCm
      peers := hPeers
      managed := by
        intro hSome
        by_contra hNoCm
        apply hManaged
        rw [Bool.and_eq_true, Bool.not_eq_true', List.isEmpty_eq_false_iff]
        exact ⟨hSome, by simpa using hNoCm⟩ }

/-! ## Every key is accounted for -/

theorem Prepared.listed_mem {manifestKeys : List String} {listed : List ValidatedMonitor} {plan : RestorePlan}
    (h : Prepared transport stack listing manifestKeys listed plan) {key : String} (hKey : key ∈ manifestKeys) :
    ∃ monitor ∈ listed, monitor.vssKey = key := by
  rw [← h.keys] at hKey
  obtain ⟨monitor, hMonitor, hSame⟩ := List.mem_map.mp hKey
  exact ⟨monitor, hMonitor, hSame⟩

theorem downloadMonitor_ok {vssKey : String} {monitor : ValidatedMonitor}
    (h : downloadMonitor transport stack vssKey = .ok monitor) :
    transport.get vssKey = .ok (some (monitor.bytes, monitor.version)) ∧
      ∃ parsed, stack.deserializeMonitor monitor.bytes = some parsed ∧ monitor.localKey = parsed.localKey := by
  rw [downloadMonitor] at h
  split at h
  · cases h
  · cases h
  · next bytes version hGet =>
    split at h
    · cases h
    · next parsed hParsed =>
      cases h
      exact ⟨hGet, parsed, hParsed, rfl⟩

theorem adoptedMonitor_some {storedKey : String} {monitor : ValidatedMonitor}
    (h : adoptedMonitor transport stack storedKey = some monitor) :
    transport.getByStoredKey storedKey = .ok (some (monitor.bytes, monitor.version)) ∧
      ∃ parsed, stack.deserializeMonitor monitor.bytes = some parsed ∧ monitor.localKey = parsed.localKey := by
  rw [adoptedMonitor] at h
  split at h
  · next bytes version hGet =>
    obtain ⟨parsed, hParsed, rfl⟩ := Option.map_eq_some_iff.mp h
    exact ⟨hGet, parsed, hParsed, rfl⟩
  · cases h

end

/-- How a plan accounts for a key of the listing. -/
inductive Explained (transport : Transport) (stack : Stack) (manifestKeys : List String) (plan : RestorePlan)
    (storedKey : String) : Prop
  | fixed (key : String) (hKey : key ∈ fixedRemoteKeys) (hStored : transport.obfuscate key = storedKey)
  | listed (monitor : ValidatedMonitor) (hPlanned : monitor ∈ plan.monitors) (hKey : monitor.vssKey ∈ manifestKeys)
    (hStored : transport.obfuscate monitor.vssKey = storedKey)
    (hGet : transport.get monitor.vssKey = .ok (some (monitor.bytes, monitor.version)))
  | adopted (monitor : ValidatedMonitor) (hPlanned : monitor ∈ plan.monitors)
    (hGet : transport.getByStoredKey storedKey = .ok (some (monitor.bytes, monitor.version)))
  | copy (monitor : ValidatedMonitor) (bytes : Bytes) (version : Nat) (parsed : DeserializedMonitor)
    (hGet : transport.getByStoredKey storedKey = .ok (some (bytes, version)))
    (hParsed : stack.deserializeMonitor bytes = some parsed) (hPlanned : monitor ∈ plan.monitors)
    (hKey : monitor.vssKey ∈ manifestKeys) (hChannel : monitor.localKey = parsed.localKey)
  | vanished (hGet : transport.getByStoredKey storedKey = .ok none)

/-- The blob of a listed key, under the name it is fetched by. -/
def Fetched (transport : Transport) (listing : List (String × Nat)) (manifestKeys : List String) (storedKey : String)
    (bytes : Bytes) : Prop :=
  (∃ key ∈ manifestKeys, transport.obfuscate key = storedKey ∧
    ∃ version, transport.get key = .ok (some (bytes, version))) ∨
  storedKey ∈ unexplainedRemoteKeys listing manifestKeys transport ∧
    ∃ version, transport.getByStoredKey storedKey = .ok (some (bytes, version))

/-- Nothing of the listing is left out, and everything that is taken was read but for the manager, which is
only measured. -/
structure CompletePlan (transport : Transport) (stack : Stack) (listing : List (String × Nat))
    (manifestKeys : List String) (plan : RestorePlan) : Prop where
  explained : ∀ entry ∈ listing, Explained transport stack manifestKeys plan entry.1
  kept : ∀ entry ∈ listing, ∀ bytes parsed, Fetched transport listing manifestKeys entry.1 bytes →
    stack.deserializeMonitor bytes = some parsed → ∃ monitor ∈ plan.monitors, monitor.localKey = parsed.localKey
  monitors : ∀ monitor ∈ plan.monitors, ∃ parsed, stack.deserializeMonitor monitor.bytes = some parsed ∧
    monitor.localKey = parsed.localKey
  peers : ∀ peers ∈ plan.peers, ∃ bytes, transport.get knownPeersVssKey = .ok (some (bytes, peers.2)) ∧
    parseKnownPeers bytes = some peers.1
  manager : ∀ cm ∈ plan.cm, transport.get channelManagerVssKey = .ok (some cm) ∧ 32 ≤ stack.byteLength cm.1
  managed : plan.monitors ≠ [] → plan.cm.isSome = true

section

variable {transport : Transport} {stack : Stack} {listing : List (String × Nat)} {manifestKeys : List String}
  {listed : List ValidatedMonitor} {plan : RestorePlan}

theorem mem_unexplainedRemoteKeys {storedKey : String} :
    storedKey ∈ unexplainedRemoteKeys listing manifestKeys transport ↔ storedKey ∈ listing.map Prod.fst ∧
      ∀ key ∈ fixedRemoteKeys ++ manifestKeys, transport.obfuscate key ≠ storedKey := by
  simp only [unexplainedRemoteKeys, List.mem_map, List.mem_filter, decide_eq_true_eq, not_exists, not_and]
  constructor
  · rintro ⟨entry, ⟨hEntry, hOther⟩, rfl⟩
    exact ⟨⟨entry, hEntry, rfl⟩, hOther⟩
  · rintro ⟨⟨entry, hEntry, rfl⟩, hOther⟩
    exact ⟨entry, ⟨hEntry, hOther⟩, rfl⟩

theorem Prepared.adopted_or_listed (h : Prepared transport stack listing manifestKeys listed plan) {storedKey : String}
    {monitor : ValidatedMonitor} (hKey : storedKey ∈ unexplainedRemoteKeys listing manifestKeys transport)
    (hMonitor : adoptedMonitor transport stack storedKey = some monitor) :
    monitor ∈ plan.monitors ∨ ∃ other ∈ listed, other.localKey = monitor.localKey := by
  by_cases hListed : monitor.localKey ∈ listed.map (·.localKey)
  · obtain ⟨other, hOther, hSame⟩ := List.mem_map.mp hListed
    exact .inr ⟨other, hOther, hSame⟩
  · refine .inl ?_
    rw [h.monitors, List.mem_append, List.mem_filter]
    exact .inr ⟨List.mem_filterMap.mpr ⟨storedKey, hKey, hMonitor⟩, by simpa using hListed⟩

theorem Prepared.mem_plan (h : Prepared transport stack listing manifestKeys listed plan) {monitor : ValidatedMonitor}
    (hListed : monitor ∈ listed) : monitor ∈ plan.monitors ∧ monitor.vssKey ∈ manifestKeys := by
  rw [h.monitors, ← h.keys]
  exact ⟨List.mem_append_left _ hListed, List.mem_map_of_mem hListed⟩

theorem Prepared.explained (h : Prepared transport stack listing manifestKeys listed plan) {entry : String × Nat}
    (hEntry : entry ∈ listing) : Explained transport stack manifestKeys plan entry.1 := by
  by_cases hKey : entry.1 ∈ unexplainedRemoteKeys listing manifestKeys transport
  · obtain hGone | hAdopted := h.identified entry.1 hKey
    · exact .vanished hGone
    · obtain ⟨monitor, hMonitor⟩ := Option.isSome_iff_exists.mp hAdopted
      obtain ⟨hGet, parsed, hParsed, hLocal⟩ := adoptedMonitor_some hMonitor
      obtain hPlanned | ⟨other, hOther, hSame⟩ := h.adopted_or_listed hKey hMonitor
      · exact .adopted monitor hPlanned hGet
      · obtain ⟨hPlanned, hListed⟩ := h.mem_plan hOther
        exact .copy other _ _ parsed hGet hParsed hPlanned hListed (hSame.trans hLocal)
  · rw [mem_unexplainedRemoteKeys] at hKey
    simp only [not_and, not_forall, not_not] at hKey
    obtain ⟨key, hExpected, hStored⟩ := hKey (List.mem_map_of_mem hEntry)
    obtain hFixed | hManifest := List.mem_append.mp hExpected
    · exact .fixed key hFixed hStored
    · obtain ⟨monitor, hMonitor, rfl⟩ := h.listed_mem hManifest
      obtain ⟨hPlanned, hListed⟩ := h.mem_plan hMonitor
      exact .listed monitor hPlanned hListed hStored (downloadMonitor_ok (h.downloaded monitor hMonitor)).1

theorem Prepared.kept (h : Prepared transport stack listing manifestKeys listed plan) {storedKey : String}
    {bytes : Bytes} {parsed : DeserializedMonitor} (hFetched : Fetched transport listing manifestKeys storedKey bytes)
    (hParsed : stack.deserializeMonitor bytes = some parsed) :
    ∃ monitor ∈ plan.monitors, monitor.localKey = parsed.localKey := by
  obtain ⟨key, hKey, -, version, hGet⟩ | ⟨hKey, version, hGet⟩ := hFetched
  · obtain ⟨monitor, hMonitor, rfl⟩ := h.listed_mem hKey
    obtain ⟨hGet', parsed', hParsed', hLocal⟩ := downloadMonitor_ok (h.downloaded monitor hMonitor)
    cases hGet.symm.trans hGet'
    cases hParsed.symm.trans hParsed'
    exact ⟨monitor, (h.mem_plan hMonitor).1, hLocal⟩
  · have hAdopted : adoptedMonitor transport stack storedKey = some ⟨parsed.derivedVssKey, parsed.localKey, bytes, version,
        transport.obfuscate parsed.derivedVssKey == storedKey⟩ := by
      rw [adoptedMonitor, hGet]
      dsimp only
      rw [hParsed]
      rfl
    obtain hPlanned | ⟨other, hOther, hSame⟩ := h.adopted_or_listed hKey hAdopted
    · exact ⟨_, hPlanned, rfl⟩
    · exact ⟨other, (h.mem_plan hOther).1, hSame⟩

theorem downloadManager_some {cm : Bytes × Nat} (h : downloadManager transport stack manifestKeys = .ok (some cm)) :
    transport.get channelManagerVssKey = .ok (some cm) ∧ 32 ≤ stack.byteLength cm.1 := by
  rw [downloadManager] at h
  split at h
  · cases h
  · split at h <;> cases h
  · next bytes version hGet =>
    split at h
    · cases h
    · next hSize =>
      cases h
      exact ⟨hGet, Nat.le_of_not_lt hSize⟩

theorem downloadPeers_some {peers : StringMap KnownPeer × Nat} (h : downloadPeers transport = .ok (some peers)) :
    ∃ bytes, transport.get knownPeersVssKey = .ok (some (bytes, peers.2)) ∧ parseKnownPeers bytes = some peers.1 := by
  rw [downloadPeers] at h
  split at h
  · cases h
  · cases h
  · next bytes version hGet =>
    split at h
    · next found hParsed =>
      cases h
      exact ⟨bytes, hGet, hParsed⟩
    · cases h

theorem Prepared.deserialized (h : Prepared transport stack listing manifestKeys listed plan) {monitor : ValidatedMonitor}
    (hMonitor : monitor ∈ plan.monitors) :
    ∃ parsed, stack.deserializeMonitor monitor.bytes = some parsed ∧ monitor.localKey = parsed.localKey := by
  rw [h.monitors, List.mem_append, List.mem_filter] at hMonitor
  obtain hListed | ⟨hAdopted, -⟩ := hMonitor
  · exact (downloadMonitor_ok (h.downloaded monitor hListed)).2
  · obtain ⟨storedKey, -, hFound⟩ := List.mem_filterMap.mp hAdopted
    exact (adoptedMonitor_some hFound).2

theorem Prepared.complete (h : Prepared transport stack listing manifestKeys listed plan) :
    CompletePlan transport stack listing manifestKeys plan where
  explained _ hEntry := h.explained hEntry
  kept _ _ _ _ hFetched hParsed := h.kept hFetched hParsed
  monitors _ hMonitor := h.deserialized hMonitor
  peers peers hPeers := downloadPeers_some (by rw [h.peers, Option.mem_def.mp hPeers])
  manager cm hCm := downloadManager_some (by rw [h.cm, Option.mem_def.mp hCm])
  managed := h.managed

end

/-! ## Both doors -/

section

variable {fs : FileSystem} {wallets : Wallets} {node : Node} {transport : Transport} {plan : RestorePlan} {adoptedCount : Nat}
  {device : Device}

theorem twoPhaseWrite_writes (marker : RestoreMarker) :
    (twoPhaseWrite fs marker plan).Clean (fun _ disk => disk.store = KvStore.empty.writeAll plan.localWrites) device := by
  refine Prog.clean_bind (Prog.clean_bind (Prog.clean_change (Prog.clean_change ?_)))
  refine Prog.clean_bind (Prog.clean_post (clearLocalWalletState_clean _) fun _ cleared hCleared => ?_)
  refine Prog.clean_bind (Prog.clean_post (writeMnemonic_clean hCleared.mnemonic) ?_)
  rintro - disk rfl
  refine Prog.clean_bind (Prog.clean_post (writePlanLocal_clean _ _) ?_)
  rintro ⟨complete, log⟩ disk ⟨rfl, rfl⟩
  simp only [Bool.not_true, Bool.false_eq_true, if_false]
  refine Prog.clean_change ?_
  simp only [Device.removeMarker_store, Device.mapStore_store, hCleared.store]

theorem runRestore_writes {raw words : String} {listing : List (String × Nat)} (nowMs : UInt64)
    (hWords : wallets.parseMnemonic raw = some words) (hListing : transport.listKeyVersions = .ok listing)
    (hSome : listing ≠ [])
    (hPlan : preparePlan transport (wallets.node words).toStack listing = .ok (plan, adoptedCount)) :
    (runRestore fs wallets (some transport) raw nowMs).Clean
      (fun _ disk => disk.store = KvStore.empty.writeAll plan.localWrites) device := by
  simp only [runRestore, hWords, hListing, List.isEmpty_eq_false_iff.mpr hSome, hPlan, Bool.false_eq_true, if_false]
  exact Prog.clean_bind (Prog.clean_post (twoPhaseWrite_writes _) fun _ _ h => sendBackfill_clean plan adoptedCount _ h)

/-- A restore that has no plan ends in an error and leaves the device as it was. -/
theorem runRestore_unplanned {server : Option Transport} {raw : String} (nowMs : UInt64)
    (h : ∀ words transport listing plan adoptedCount, wallets.parseMnemonic raw = some words → server = some transport →
      transport.listKeyVersions = .ok listing → listing ≠ [] →
      preparePlan transport (wallets.node words).toStack listing ≠ .ok (plan, adoptedCount)) (fates : List Fate) :
    ∃ e, runRestore fs wallets server raw nowMs device fates = .error e device fates := by
  rw [runRestore]
  cases hWords : wallets.parseMnemonic raw with
  | none => exact ⟨_, rfl⟩
  | some words =>
    cases server with
    | none => exact ⟨_, rfl⟩
    | some transport =>
      dsimp only
      cases hListing : transport.listKeyVersions with
      | error e => exact ⟨_, rfl⟩
      | ok listing =>
        dsimp only
        split
        · exact ⟨_, rfl⟩
        · next hSome =>
          have hListed : listing ≠ [] := by simpa using hSome
          cases hPlan : preparePlan transport (wallets.node words).toStack listing with
          | error e => exact ⟨_, rfl⟩
          | ok prepared => exact absurd hPlan (h words transport listing _ _ hWords rfl hListing hListed)

end

/-- A prepared plan is complete. Without one both doors end in an error and write nothing; with one both
write it, the explicit restore over a cleared store. -/
theorem plans_complete :
    (∀ transport stack listing plan adoptedCount, preparePlan transport stack listing = .ok (plan, adoptedCount) →
      ∃ manifest, fetchManifest transport = .ok manifest ∧
        CompletePlan transport stack listing ((manifest.map Prod.fst).getD []) plan) ∧
    (∀ fs wallets server raw nowMs device fates,
      (∀ words transport listing plan adoptedCount, wallets.parseMnemonic raw = some words → server = some transport →
        transport.listKeyVersions = .ok listing → listing ≠ [] →
        preparePlan transport (wallets.node words).toStack listing ≠ .ok (plan, adoptedCount)) →
      ∃ e, runRestore fs wallets server raw nowMs device fates = .error e device fates) ∧
    (∀ (node : Node) transport listing e device fates, preparePlan transport node.toStack listing = .error e →
      silentRecovery node transport listing device fates = .error .vssRecoveryFailed device fates) ∧
    (∀ fs wallets raw words nowMs transport listing plan adoptedCount device, wallets.parseMnemonic raw = some words →
      transport.listKeyVersions = .ok listing → listing ≠ [] →
      preparePlan transport (wallets.node words).toStack listing = .ok (plan, adoptedCount) →
      (runRestore fs wallets (some transport) raw nowMs).Clean
        (fun _ disk => disk.store = KvStore.empty.writeAll plan.localWrites) device ∧
      (silentRecovery (wallets.node words) transport listing).Clean
        (fun _ disk => disk.store = device.store.writeAll plan.localWrites) device) := by
  refine ⟨?_, ?_, ?_, ?_⟩
  · intro transport stack listing plan adoptedCount hPlan
    obtain ⟨manifest, listed, hManifest, hPrepared⟩ := preparePlan_prepared hPlan
    exact ⟨manifest, hManifest, hPrepared.complete⟩
  · intro fs wallets server raw nowMs device fates hUnplanned
    exact runRestore_unplanned nowMs hUnplanned fates
  · intro node transport listing e device fates hError
    simp only [silentRecovery, hError]
    rfl
  · intro fs wallets raw words nowMs transport listing plan adoptedCount device hWords hListing hSome hPlan
    exact ⟨runRestore_writes nowMs hWords hListing hSome hPlan, silentRecovery_writes hPlan⟩

/-- The server cannot be reached. -/
def unreachable : Transport where
  obfuscate := id
  listKeyVersions := .error .other
  get _ := .error .other
  getByStoredKey _ := .error .other
  putManifest := .error .other
  refetchManifest := .error .other
  putMany := .error .other
  identifyLate _ := false
  downloadLate _ := false

theorem oneChannel_plan_complete :
    (∃ manifest, fetchManifest oneChannelBackup = .ok manifest ∧ CompletePlan oneChannelBackup oneChannelNode.toStack
      [(channelManagerVssKey, 1), (monitorManifestKey, 1), (numberedKey 0, 1)] ((manifest.map Prod.fst).getD [])
      oneChannelPlan) ∧
    (∃ e, runRestore sortedFiles anyWords (some unreachable) "new" 0 newWallet [] = .error e newWallet []) ∧
    silentRecovery oneChannelNode unreachable [("a", 1)] newWallet [] = .error .vssRecoveryFailed newWallet [] ∧
    (runRestore sortedFiles anyWords (some oneChannelBackup) "new" 0).Clean
      (fun _ disk => disk.store = KvStore.empty.writeAll oneChannelPlan.localWrites) newWallet ∧
    (silentRecovery (anyWords.node "new") oneChannelBackup
      [(channelManagerVssKey, 1), (monitorManifestKey, 1), (numberedKey 0, 1)]).Clean
      (fun _ disk => disk.store = newWallet.store.writeAll oneChannelPlan.localWrites) newWallet := by
  obtain ⟨hComplete, hUnplanned, hError, hDoors⟩ := plans_complete
  refine ⟨hComplete _ _ _ _ 0 (preparePlan_oneChannel _ rfl), ?_, ?_, ?_⟩
  · refine hUnplanned sortedFiles anyWords (some unreachable) "new" 0 newWallet [] ?_
    rintro words _ listing plan adoptedCount - ⟨⟩ hListing
    cases hListing
  · exact hError oneChannelNode unreachable [("a", 1)] .downloadFailed newWallet [] rfl
  · exact hDoors sortedFiles anyWords "new" "new" 0 oneChannelBackup _ oneChannelPlan 0 newWallet rfl rfl (by simp)
      (preparePlan_oneChannel _ rfl)

/-- The manager's blob is no manager of this seed. -/
def foreignManager : Node where
  toStack := numberedNode.toStack
  readManager _ _ := none
  freshManager := .raw []
  funded_monitored := by simp

/-- The server has nothing but an empty set of peers. -/
def peersOnly : Transport :=
  { emptyNamespace with
    listKeyVersions := .ok [(knownPeersVssKey, 1)]
    get := fun key => .ok (if key = knownPeersVssKey then some (.ofJson (.object []), 1) else none) }

/-- A manager that does not read is planned, and so are peers without a manager. -/
theorem unread_manager_planned :
    (preparePlan oneChannelBackup foreignManager.toStack
        [(channelManagerVssKey, 1), (monitorManifestKey, 1), (numberedKey 0, 1)] = .ok (oneChannelPlan, 0) ∧
      ∃ cm ∈ oneChannelPlan.cm, ∀ monitored, foreignManager.readManager cm.1 monitored = none) ∧
    ∃ plan, preparePlan peersOnly numberedNode.toStack [(knownPeersVssKey, 1)] = .ok (plan, 0) ∧
      plan.peers.isSome = true ∧ plan.cm = none := by
  refine ⟨⟨preparePlan_oneChannel _ rfl, _, rfl, fun _ => rfl⟩, _, rfl, rfl, rfl⟩

end WalletCore.Restore
