import WalletCore.Restore.Evidence
import WalletCore.Restore.Explicit
import WalletCore.Vss.ManifestSound

/-! # Published manifests read back

Four writers put the manifest: the gating write of a new channel, the best-effort write, the backfill after
a restore and the migration batch. Each of them serialises distinct well-formed keys, at least one, so that
the reader can only refuse a list that is too long.
-/

namespace WalletCore.Restore

open Lib Vss

/-- At least one key, each of them once and well formed, and the payload is their list. -/
structure ManifestPut.Exact (put : ManifestPut) : Prop where
  nonempty : put.keys ≠ []
  nodup : put.keys.Nodup
  valid : ∀ key ∈ put.keys, isValidMonitorKey key = true
  payload : put.payload = manifestPayload put.keys

/-- The reader accepts the payload and gets back the keys it was built from. -/
def ManifestPut.ReadsBack (put : ManifestPut) : Prop := parseMonitorManifest put.payload = .ok put.keys

theorem ManifestPut.Exact.readsBack_iff {put : ManifestPut} (h : put.Exact) :
    put.ReadsBack ↔ put.keys.length ≤ maxManifestEntries := by
  rw [ReadsBack, h.payload]
  exact parseMonitorManifest_manifestPayload_iff h.nonempty h.nodup h.valid

theorem ManifestPut.exact_of {keys : Finset String} (hSome : keys ≠ ∅)
    (hValid : ∀ key ∈ keys, isValidMonitorKey key = true) (version : Nat) : (ManifestPut.of keys version).Exact where
  nonempty := by
    intro hNil
    obtain ⟨key, hKey⟩ := Finset.nonempty_iff_ne_empty.mpr hSome
    have hMem : key ∈ ascending keys := (Finset.mem_sort _).mpr hKey
    rw [show ascending keys = [] from hNil] at hMem
    cases hMem
  nodup := Finset.sort_nodup ..
  valid := fun key hKey => hValid key ((Finset.mem_sort _).mp hKey)
  payload := rfl

/-! ## Starts and restores -/

def Sent.manifests : Sent → List ManifestPut
  | .manifest put => [put]
  | .batch _ listed => listed.toList
  | .manager _ => []

def Device.AllExact (device : Device) : Prop := ∀ sent ∈ device.sent, ∀ put ∈ sent.manifests, put.Exact

theorem Device.AllExact.send {device : Device} (h : device.AllExact) {sent : Sent}
    (hSent : ∀ put ∈ sent.manifests, put.Exact) : (device.send sent).AllExact := by
  intro other hOther
  rw [Device.send_sent, List.mem_append, List.mem_singleton] at hOther
  obtain hOther | rfl := hOther
  · exact h other hOther
  · exact hSent

theorem sendPut_keeps {ε : Type} {sent : Sent} (h : ∀ put ∈ sent.manifests, put.Exact) :
    Prog.Keeps Device.AllExact (sendPut sent : Prog Device ε Unit) :=
  Prog.keeps_send fun _ hInv => hInv.send h

theorem backfillManifest_exact {transport : Transport} {keys : Finset String} {version : Nat}
    (hValid : ∀ key ∈ keys, isValidMonitorKey key = true) :
    ∀ put ∈ backfillManifest transport keys version, put.Exact := by
  rw [backfillManifest]
  split
  · simp
  · rename_i hSome
    have hFirst := ManifestPut.exact_of hSome hValid version
    split
    · split
      · rename_i remoteBytes remoteVersion hRefetch
        simp only [List.mem_cons, List.not_mem_nil, or_false]
        rintro put (rfl | rfl)
        · exact hFirst
        · split
          · rename_i remoteKeys hParsed
            refine ManifestPut.exact_of ?_ ?_ remoteVersion
            · intro hEmpty
              exact hSome (Finset.union_eq_empty.mp hEmpty).1
            · intro key hKey
              rw [Finset.mem_union, List.mem_toFinset] at hKey
              obtain hKey | hKey := hKey
              · exact hValid key hKey
              · exact parseMonitorManifest_valid hParsed key hKey
          · exact ManifestPut.exact_of hSome hValid remoteVersion
      · simpa using hFirst
    · simpa using hFirst

theorem preparePlan_publishable_valid {transport : Transport} {stack : Stack} {listing : List (String × Nat)}
    {plan : RestorePlan} {adoptedCount : Nat} (h : preparePlan transport stack listing = .ok (plan, adoptedCount)) :
    ∀ key ∈ plan.publishableMonitorKeys, isValidMonitorKey key = true := by
  intro key hKey
  rw [RestorePlan.publishableMonitorKeys, List.mem_toFinset, List.mem_map] at hKey
  obtain ⟨monitor, hMonitor, rfl⟩ := hKey
  exact (preparePlan_downloaded h monitor (List.mem_of_mem_filter hMonitor)).valid

theorem sendBackfill_keeps {ε : Type} {transport : Transport} {plan : RestorePlan} {adoptedCount : Nat}
    (hValid : ∀ key ∈ plan.publishableMonitorKeys, isValidMonitorKey key = true) :
    Prog.Keeps Device.AllExact (sendBackfill transport plan adoptedCount : Prog Device ε Unit) := by
  rw [sendBackfill]
  split
  · refine Prog.keeps_each fun put hPut => sendPut_keeps ?_
    intro put' hPut'
    cases List.mem_singleton.mp hPut'
    exact backfillManifest_exact hValid put hPut
  · exact Prog.keeps_pure ()

theorem allExact_mapStore (device : Device) (f : KvStore → KvStore) (h : device.AllExact) :
    (device.mapStore f).AllExact := h

theorem silentRecovery_keeps (node : Node) (transport : Transport) (listing : List (String × Nat)) :
    Prog.Keeps Device.AllExact (silentRecovery node transport listing) := by
  refine silentRecovery_inv (fun device _ => allExact_mapStore device _) ?_
  intro plan adoptedCount hPlan
  exact ⟨fun _ _ device => allExact_mapStore device _, sendBackfill_keeps (preparePlan_publishable_valid hPlan)⟩

theorem migrate_keeps (transport : Transport) (store : KvStore) {entries : List (String × Bytes)}
    (hValid : ∀ entry ∈ entries, isValidMonitorKey entry.1 = true) :
    Prog.Keeps Device.AllExact (migrate transport store entries) := by
  refine Prog.keeps_bind (sendPut_keeps ?_) fun _ => ?_
  · intro put hPut
    simp only [Sent.manifests, Option.mem_toList] at hPut
    split at hPut
    · cases hPut
    · rename_i hSome
      cases hPut
      refine ManifestPut.exact_of hSome ?_ 0
      intro key hKey
      rw [List.mem_toFinset, List.mem_map] at hKey
      obtain ⟨entry, hEntry, rfl⟩ := hKey
      exact hValid entry hEntry
  · split <;> exact Prog.keeps_pure _

theorem derivedEntries_valid (files : List (String × DeserializedMonitor × Bytes)) :
    ∀ entry ∈ files.map (fun file => (file.2.1.derivedVssKey, file.2.2)), isValidMonitorKey entry.1 = true := by
  intro entry hEntry
  rw [List.mem_map] at hEntry
  obtain ⟨file, -, rfl⟩ := hEntry
  exact isValidMonitorKey_monitorVssKey _

theorem establishVssState_keeps (fs : FileSystem) (node : Node) (transport : Transport) :
    Prog.Keeps Device.AllExact (establishVssState fs node transport) := by
  apply establishVssState_inv
  · exact wipeLocalLdkState_inv fun device _ => allExact_mapStore device _
  · exact fun _ hInv => hInv
  · exact silentRecovery_keeps node transport
  · exact fun store files => migrate_keeps transport store (derivedEntries_valid files)

theorem twoPhaseWrite_keeps (fs : FileSystem) (marker : RestoreMarker) (plan : RestorePlan) :
    Prog.Keeps Device.AllExact (twoPhaseWrite fs marker plan) := by
  have hSame : ∀ f : Device → Device, (∀ device, (f device).sent = device.sent) →
      Prog.Keeps Device.AllExact (Prog.change f RestoreError.localWriteFailed) := by
    intro f hf
    refine Prog.keeps_change _ fun device hInv => ?_
    rw [Device.AllExact, hf]
    exact hInv
  refine Prog.keeps_bind (Prog.keeps_bind (hSame _ fun _ => rfl) fun _ => hSame _ fun _ => rfl) fun _ => ?_
  refine Prog.keeps_bind (Prog.keeps_bind (Prog.keeps_read _) fun files => ?_) fun _ => ?_
  · refine Prog.keeps_bind (Prog.keeps_each fun file _ => hSame _ fun _ => rfl) fun _ => ?_
    refine Prog.keeps_bind (hSame _ fun _ => rfl) fun _ => ?_
    exact Prog.keeps_bind (hSame _ fun _ => rfl) fun _ => hSame _ fun _ => rfl
  · refine Prog.keeps_bind (Prog.keeps_bind (Prog.keeps_read _) fun found => ?_) fun _ => ?_
    · split
      · exact Prog.keeps_fail _
      · exact Prog.keeps_bind (hSame _ fun _ => rfl) fun _ => hSame _ fun _ => rfl
    · refine Prog.keeps_bind (writePlanLocal_inv fun _ _ device => allExact_mapStore device _) ?_
      rintro ⟨complete, log⟩
      dsimp only
      split
      · exact Prog.keeps_fail _
      · exact hSame _ fun _ => rfl

theorem runRestore_keeps (fs : FileSystem) (wallets : Wallets) (transport : Option Transport) (raw : String)
    (nowMs : UInt64) : Prog.Keeps Device.AllExact (runRestore fs wallets transport raw nowMs) := by
  rw [runRestore]
  split
  · exact Prog.keeps_fail _
  · split
    · exact Prog.keeps_fail _
    · split
      · exact Prog.keeps_fail _
      · split
        · exact Prog.keeps_fail _
        · split
          · exact Prog.keeps_fail _
          · rename_i plan adoptedCount hPlan
            exact Prog.keeps_bind (twoPhaseWrite_keeps fs _ plan) fun _ =>
              sendBackfill_keeps (preparePlan_publishable_valid hPlan)

/-! ## Sessions -/

theorem KeyMove.valid {keys keys' : MonitorKeySet} {task : Task} {answer : Option Answer}
    (h : KeyMove keys task answer keys') {key : String}
    (hValid : keys.lookup key = some .publishable → isValidMonitorKey key = true)
    (hKey : keys'.lookup key = some .publishable) : isValidMonitorKey key = true := by
  obtain hOld | ⟨write, -, -, -, -, -, rfl⟩ | ⟨write, -, -, -, -, rfl⟩ | ⟨_, _, _, -, -, hParsed, hMem⟩ :=
    h.publishes_cases hKey
  · exact hValid hOld
  · exact write.keyValid
  · exact write.keyValid
  · exact parseMonitorManifest_valid hParsed key hMem

def World.PublishesValid (w : World) : Prop := ∀ key, w.store.Publishes key → isValidMonitorKey key = true

theorem World.PublishesValid.step {w w' : World} {act : Act} (hInv : World.PublishesValid w)
    (hStays : ∀ seed, act ≠ .restart seed) (h : w.step act = some w') : World.PublishesValid w' := by
  cases act with
  | call call =>
    obtain ⟨-, rfl⟩ := World.step_call_iff.mp h
    exact fun key hKey => hInv key ((w.store.call_publishes w.nextId call key).1 hKey)
  | deliver id delivery =>
    obtain ⟨slot, request, -, -, -, rfl⟩ := World.step_deliver_iff.mp h
    exact hInv
  | resume id env =>
    obtain ⟨slot, block, -, -, hBlock, rfl⟩ := World.step_resume_iff.mp h
    exact fun key hKey => KeyMove.valid (Store.resume_keyMove hBlock) (hInv key) hKey
  | foreign key value =>
    cases h
    exact hInv
  | restart seed => exact absurd rfl (hStays seed)

theorem SessionRun.publishesValid {fs : FileSystem} {node : Node} {transport : Transport} {device : Device} {w : World}
    (session : SessionRun fs node transport device w) : World.PublishesValid w := by
  refine exec_inv (fun _ _ _ hInv hStays hStep => World.PublishesValid.step hInv hStays hStep) ?_
    (along_of_forall session.stays _) session.run
  intro key hKey
  exact (session.evidenced key ((Store.start_publishes ..).mp hKey)).1

/-! ## All writers -/

/-- A manifest put of this client, with the keys it was built from. In a session it is begun by a task's run,
from the keys that are publishable at that moment. -/
inductive Published : ManifestPut → Prop
  | start (fs : FileSystem) (node : Node) (transport : Transport) (device : Device) (fates : List Fate) (sent : Sent)
    (put : ManifestPut) (hNone : device.sent = [])
    (hSent : sent ∈ (establishVssState fs node transport device fates).disk.sent) (hPut : put ∈ sent.manifests) :
    Published put
  | restore (fs : FileSystem) (wallets : Wallets) (transport : Option Transport) (raw : String) (nowMs : UInt64)
    (device : Device) (fates : List Fate) (sent : Sent) (put : ManifestPut) (hNone : device.sent = [])
    (hSent : sent ∈ (runRestore fs wallets transport raw nowMs device fates).disk.sent)
    (hPut : put ∈ sent.manifests) : Published put
  | session (fs : FileSystem) (node : Node) (transport : Transport) (device : Device) (w w' : World)
    (run : SessionRun fs node transport device w) (id : Nat) (env : Env) (slot : Slot) (payload : Bytes) (version : Nat)
    (hStep : w.step (.resume id env) = some w') (hSlot : w'.slots id = some slot)
    (hPending : slot.task.pendingManifest = some payload)
    (hRequest : slot.task.request = some (.put monitorManifestKey payload version)) :
    Published ⟨w'.store.monitorKeys.publishable, payload, version⟩

theorem Published.exact {put : ManifestPut} (h : Published put) : put.Exact := by
  have hNew : ∀ {device : Device}, device.sent = [] → device.AllExact := by
    intro device hNone sent hSent
    rw [hNone] at hSent
    cases hSent
  cases h with
  | start fs node transport device fates sent _ hNone hSent hPut =>
    exact (establishVssState_keeps fs node transport).disk (hNew hNone) fates sent hSent put hPut
  | restore fs wallets transport raw nowMs device fates sent _ hNone hSent hPut =>
    exact (runRestore_keeps fs wallets transport raw nowMs).disk (hNew hNone) fates sent hSent put hPut
  | session fs node transport device w w' run id env slot payload version hStep hSlot hPending hRequest =>
    have hValid := World.PublishesValid.step run.publishesValid (by simp) hStep
    obtain ⟨before, block, -, -, hBlock, rfl⟩ := World.step_resume_iff.mp hStep
    rw [World.land_slots, if_pos rfl] at hSlot
    obtain ⟨task, hNext, rfl⟩ := Option.map_eq_some_iff.mp hSlot
    have hPayload : block.next.bind Task.pendingManifest = some payload := by rw [hNext, Option.bind_some, hPending]
    obtain ⟨hCurrent, hSome⟩ := Store.resume_pendingFresh hBlock payload hPayload
    exact {
      nonempty := hSome
      nodup := MonitorKeySet.publishable_nodup _
      valid := fun key hKey => hValid key ((MonitorKeySet.mem_publishable _ _).mp hKey)
      payload := hCurrent }

/-- A manifest that this client puts is never empty, and reads back exactly as the keys it was built from if
and only if these are at most a thousand. -/
theorem published_readsBack_iff (put : ManifestPut) (h : Published put) :
    put.keys ≠ [] ∧ (put.ReadsBack ↔ put.keys.length ≤ maxManifestEntries) :=
  ⟨h.exact.nonempty, h.exact.readsBack_iff⟩

/-! ## A migration -/

/-- Monitor blobs that are the numbers of their channels. -/
def numberedNode : Node where
  deserializeMonitor bytes :=
    match bytes with
    | .ofJson (.number (.posInt n)) =>
      some ⟨Nat.repr n.toNat, ⟨Vector.replicate 32 0, n.toUInt16⟩, Nat.repr n.toNat⟩
    | _ => none
  byteLength _ := 32
  readManager _ _ := some []
  freshManager := .raw []
  funded_monitored := by simp

def sortedFiles : FileSystem where
  listMonitors store := store.monitors.toPairs.map Prod.fst
  listFiles store := .manager :: .peers :: store.monitors.toPairs.map (fun file => .monitor file.1) ++
    store.others.toPairs.map fun file => .other file.1
  mem_listMonitors store name := by
    rw [List.mem_map, Option.isSome_iff_exists]
    constructor
    · rintro ⟨⟨name, bytes⟩, hFile, rfl⟩
      exact ⟨bytes, (StringMap.mem_toPairs ..).mp hFile⟩
    · rintro ⟨bytes, hLookup⟩
      exact ⟨(name, bytes), (StringMap.mem_toPairs ..).mpr hLookup, rfl⟩

/-- A server without a key of this seed, which takes every write. -/
def emptyNamespace : Transport where
  obfuscate := id
  listKeyVersions := .ok []
  get _ := .ok none
  getByStoredKey _ := .ok none
  putManifest := .ok 1
  refetchManifest := .ok none
  putMany := .ok ()
  identifyLate _ := false
  downloadLate _ := false

/-- A wallet with this many channels, all of them local. -/
def localChannels (channels : Nat) : Device where
  store :=
    { manager := some (.raw [])
      monitors := .ofPairs ((List.range channels).map fun n => (Nat.repr n, .ofJson (.ofU64 (.ofNat n))))
      peers := none
      others := ∅ }
  mnemonic := none
  marker := none
  fencedFlag := false
  sent := []

def numberedKey (n : Nat) : String := monitorVssKey ⟨Vector.replicate 32 0, UInt16.ofNat n⟩

theorem repr_injective {m n : Nat} (h : Nat.repr m = Nat.repr n) : m = n := by
  have hDigits : Nat.toDigits 10 m = Nat.toDigits 10 n := by rw [← Nat.toList_repr, h, Nat.toList_repr]
  rw [← Nat.ofDigitChars_ten_toDigits (n := m), hDigits, Nat.ofDigitChars_ten_toDigits]

theorem numberedKey_injOn (channels : Nat) (hSmall : channels ≤ 65536) :
    Set.InjOn numberedKey (Finset.range channels) := by
  intro m hm n hn h
  rw [Finset.mem_coe, Finset.mem_range] at hm hn
  have hLists := congrArg String.toList h
  rw [numberedKey, numberedKey, toList_monitorVssKey, toList_monitorVssKey, List.append_cancel_left_eq,
    List.cons.injEq, ← Nat.toList_repr, ← Nat.toList_repr, String.toList_inj] at hLists
  have hIndex := repr_injective hLists.2
  simp only [UInt16.toNat_ofNat', Nat.reducePow] at hIndex
  omega

theorem localChannels_lookup {channels : Nat} {name : String} {bytes : Bytes}
    (h : (localChannels channels).store.monitors.lookup name = some bytes) :
    ∃ n < channels, name = Nat.repr n ∧ bytes = .ofJson (.ofU64 (.ofNat n)) := by
  have hMem := StringMap.mem_of_lookup_ofPairs h
  rw [List.mem_map] at hMem
  obtain ⟨n, hn, hEntry⟩ := hMem
  cases hEntry
  exact ⟨n, List.mem_range.mp hn, rfl, rfl⟩

theorem numberedNode_deserialize {n : Nat} (hn : n < 65536) :
    numberedNode.deserializeMonitor (.ofJson (.ofU64 (.ofNat n))) =
      some ⟨Nat.repr n, ⟨Vector.replicate 32 0, UInt16.ofNat n⟩, Nat.repr n⟩ := by
  have hNat : (UInt64.ofNat n).toNat = n := by
    rw [UInt64.toNat_ofNat']
    omega
  have hIndex : (UInt64.ofNat n).toUInt16 = UInt16.ofNat n := by
    apply UInt16.toNat_inj.mp
    rw [UInt64.toNat_toUInt16, hNat, UInt16.toNat_ofNat']
  rw [← hIndex]
  simp only [numberedNode, Json.ofU64, hNat]

theorem localChannels_keys {channels : Nat} (hSmall : channels ≤ 65536) :
    ∃ files, readChannelMonitors numberedNode (localChannels channels).store = some files ∧
      ((files.map fun file => (file.2.1.derivedVssKey, file.2.2)).map Prod.fst).toFinset =
        (Finset.range channels).image numberedKey := by
  obtain ⟨files, hFiles⟩ : ∃ files, readChannelMonitors numberedNode (localChannels channels).store = some files := by
    refine readChannelMonitors_total ?_
    intro name bytes hLookup
    obtain ⟨n, hn, rfl, rfl⟩ := localChannels_lookup hLookup
    exact ⟨_, numberedNode_deserialize (by omega), rfl⟩
  refine ⟨files, hFiles, ?_⟩
  ext key
  rw [Finset.mem_image]
  constructor
  · intro hKey
    obtain ⟨⟨name, monitor, bytes⟩, hFile, rfl⟩ := mem_derivedEntries hKey
    obtain ⟨hLookup, hMonitor, -⟩ := (mem_readChannelMonitors hFiles name monitor bytes).mp hFile
    obtain ⟨n, hn, rfl, rfl⟩ := localChannels_lookup hLookup
    rw [numberedNode_deserialize (by omega)] at hMonitor
    cases hMonitor
    exact ⟨n, Finset.mem_range.mpr hn, rfl⟩
  · rintro ⟨n, hn, rfl⟩
    rw [Finset.mem_range] at hn
    have hNodup : (((List.range channels).map fun n =>
        (Nat.repr n, Bytes.ofJson (.ofU64 (.ofNat n)))).map Prod.fst).Nodup := by
      rw [List.map_map]
      exact List.nodup_range.map fun _ _ h => repr_injective h
    have hLookup := (StringMap.lookup_ofPairs _ hNodup _ _).mpr
      (List.mem_map.mpr ⟨n, List.mem_range.mpr hn, rfl⟩)
    have hFile := (mem_readChannelMonitors hFiles _ _ _).mpr
      ⟨hLookup, numberedNode_deserialize (by omega), rfl⟩
    rw [List.mem_toFinset, List.map_map, List.mem_map]
    exact ⟨_, hFile, rfl⟩

theorem establishVssState_migrates (fs : FileSystem) {node : Node} {transport : Transport} (device : Device)
    {manager : Bytes} {files : List (String × DeserializedMonitor × Bytes)} {keys : Finset String}
    (hMarker : device.marker = none) (hManager : device.store.manager = some manager)
    (hListing : transport.listKeyVersions = .ok []) (hFiles : readChannelMonitors node device.store = some files)
    (hKeys : ((files.map fun file => (file.2.1.derivedVssKey, file.2.2)).map Prod.fst).toFinset = keys)
    (hSome : keys ≠ ∅) :
    ∃ items, .batch items (some (ManifestPut.of keys 0)) ∈ (establishVssState fs node transport device []).disk.sent := by
  simp only [establishVssState, bind, Prog.bind, Prog.read, id, hMarker, hManager, hListing, Option.isSome_none,
    Option.isNone_some, Bool.false_and, Bool.or_self, Bool.false_eq_true, if_false, hFiles, List.isEmpty_nil, if_true,
    migrate, hKeys, if_neg hSome, sendPut, Prog.send]
  cases transport.putMany with
  | ok done => exact ⟨_, List.mem_append_right _ (List.mem_singleton.mpr rfl)⟩
  | error e => exact ⟨_, List.mem_append_right _ (List.mem_singleton.mpr rfl)⟩

theorem migration_published {channels : Nat} (hSome : 0 < channels) (hSmall : channels ≤ 65536) :
    ∃ put, Published put ∧ put.keys.length = channels := by
  obtain ⟨files, hFiles, hKeys⟩ := localChannels_keys hSmall
  have hNonempty : (Finset.range channels).image numberedKey ≠ ∅ := by
    rw [Ne, Finset.image_eq_empty, Finset.range_eq_empty_iff]
    omega
  refine ⟨.of ((Finset.range channels).image numberedKey) 0, ?_, ?_⟩
  · obtain ⟨items, hSent⟩ := establishVssState_migrates sortedFiles (localChannels channels) rfl rfl
      (show emptyNamespace.listKeyVersions = .ok [] from rfl) hFiles hKeys hNonempty
    exact .start _ _ _ _ _ _ _ rfl hSent (List.mem_singleton.mpr rfl)
  · rw [ManifestPut.of, Finset.length_sort, Finset.card_image_of_injOn (numberedKey_injOn channels hSmall),
      Finset.card_range]

theorem published_readsBack_iff_oneChannel : ∃ put, Published put ∧ put.keys ≠ [] ∧ put.ReadsBack := by
  obtain ⟨put, hPut, hLength⟩ := migration_published (show 0 < 1 by decide) (by decide)
  obtain ⟨hSome, hReads⟩ := published_readsBack_iff put hPut
  exact ⟨put, hPut, hSome, hReads.mpr (hLength ▸ by decide)⟩

/-- A thousand and one channels migrate, and no reader accepts their manifest. -/
theorem migrated_manifest_unreadable : ∃ put, Published put ∧ put.keys.length = 1001 ∧ ¬ put.ReadsBack := by
  obtain ⟨put, hPut, hLength⟩ := migration_published (show 0 < 1001 by decide) (by decide)
  refine ⟨put, hPut, hLength, ?_⟩
  rw [hPut.exact.readsBack_iff, hLength]
  decide

end WalletCore.Restore
