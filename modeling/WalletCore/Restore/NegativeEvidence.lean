import WalletCore.Restore.ManifestReadable
import WalletCore.Vss.Listing

/-! # What a start takes for absent

A start seeds its versions and its publishable keys from the listing. It takes a key that is not listed
for one that the server does not have, which is right because the listing is whole.
-/

namespace WalletCore.Restore

open Lib Vss

def VssError.ofWire : Vss.VssError → VssError
  | .conflict _ => .conflict
  | _ => .other

/-- The start counts versions from zero. -/
def ofListing (listing : Except Vss.VssError (List (String × Int64))) : Except VssError (List (String × Nat)) :=
  (listing.mapError VssError.ofWire).map fun entries => entries.map fun kv => (kv.1, kv.2.toNatClampNeg)

/-- What is missing from the state is missing on the server, and nothing else is. A recovered state is
not made from the listing alone. -/
structure StartupState.Negative (transport : Transport) (keys : Set String) (state : StartupState) : Prop where
  empty : state.probeEmpty = true → ∀ key, key ∉ keys
  version : state.probeEmpty = false → state.recovered = false →
    ∀ key, key ∈ fixedRemoteKeys ∨ (state.monitorKeys.lookup key).isSome = true →
      (state.versions.lookup key = none ↔ transport.obfuscate key ∉ keys)
  publishable : state.probeEmpty = false → state.recovered = false →
    ∀ key, (state.monitorKeys.lookup key).isSome = true →
      (state.monitorKeys.lookup key ≠ some .publishable ↔ transport.obfuscate key ∉ keys)

section

variable {transport : Transport} {keys : Set String} {listing : List (String × Nat)}

theorem isSome_lookup_fromParts {tracked : List String} {isPublishable : String → Bool} {key : String} :
    ((MonitorKeySet.fromParts tracked isPublishable).lookup key).isSome = true ↔ key ∈ tracked := by
  rw [MonitorKeySet.fromParts, StringMap.isSome_lookup_ofPairs, List.map_map]
  simp [Function.comp_def]

theorem publishable_fromParts_iff {tracked : List String} {isPublishable : String → Bool} {key : String}
    (hKey : key ∈ tracked) :
    (MonitorKeySet.fromParts tracked isPublishable).lookup key = some .publishable ↔ isPublishable key = true := by
  constructor
  · intro h
    exact (MonitorKeySet.publishable_of_fromParts h).2
  · intro hPublishable
    obtain ⟨provenance, hLookup⟩ := Option.isSome_iff_exists.mp (isSome_lookup_fromParts.mpr hKey)
    rw [hLookup]
    have hMem := StringMap.mem_of_lookup_ofPairs hLookup
    rw [List.mem_map] at hMem
    obtain ⟨key', -, hEntry⟩ := hMem
    obtain ⟨rfl, rfl⟩ := Prod.mk.inj hEntry
    rw [if_pos hPublishable]

theorem isSome_version_iff (entries : List (String × Bytes)) (key : String) :
    ((seedVersions transport listing entries).versions.lookup key).isSome = true ↔
      (key ∈ fixedRemoteKeys ∨ key ∈ (entries.map Prod.fst).toFinset) ∧
        transport.obfuscate key ∈ listing.map Prod.fst := by
  rw [seedVersions, StringMap.isSome_lookup_ofPairs, List.mem_map]
  simp only [List.mem_filterMap, Option.map_eq_some_iff, Prod.exists, Prod.mk.injEq]
  rw [← StringMap.isSome_lookup_ofPairs, Option.isSome_iff_exists]
  constructor
  · rintro ⟨_, _, ⟨key, hKey, version, hVersion, rfl, rfl⟩, rfl⟩
    refine ⟨?_, version, hVersion⟩
    rwa [List.mem_append, Finset.mem_sort] at hKey
  · rintro ⟨hKey, version, hVersion⟩
    refine ⟨key, version, ⟨key, ?_, version, hVersion, rfl, rfl⟩, rfl⟩
    rwa [List.mem_append, Finset.mem_sort]

theorem seedVersions_negative (hKeys : ∀ key, key ∈ keys ↔ key ∈ listing.map Prod.fst)
    (entries : List (String × Bytes)) : (seedVersions transport listing entries).Negative transport keys := by
  have hTracked (key : String) : ((seedVersions transport listing entries).monitorKeys.lookup key).isSome = true ↔
      key ∈ (entries.map Prod.fst).toFinset := by
    rw [seedVersions, isSome_lookup_fromParts, Finset.mem_sort]
  refine ⟨?_, ?_, ?_⟩
  · intro hEmpty
    cases hEmpty
  · intro _ _ key hKey
    rw [hTracked] at hKey
    have hVersion : ((seedVersions transport listing entries).versions.lookup key).isSome = true ↔ _ :=
      isSome_version_iff entries key
    rw [← Option.not_isSome_iff_eq_none, hVersion, hKeys, and_iff_right hKey]
  · intro _ _ key hKey
    have hLocal := (hTracked key).mp hKey
    have hPublishable : (seedVersions transport listing entries).monitorKeys.lookup key = some .publishable ↔
        ((seedVersions transport listing entries).versions.lookup key).isSome = true :=
      publishable_fromParts_iff ((Finset.mem_sort _).mpr hLocal)
    rw [ne_eq, hPublishable, isSome_version_iff, hKeys, and_iff_right (.inr hLocal)]

variable (keys) in
theorem silentRecovery_negative {node : Node} (device : Device) :
    (silentRecovery node transport listing).wp (fun _ => True) (fun _ _ => True)
      (fun state _ => state.Negative transport keys) device := by
  refine silentRecovery_returns ?_ device
  intro plan adoptedCount _ device
  exact ⟨by rintro ⟨⟩, by rintro - ⟨⟩, by rintro - ⟨⟩⟩

theorem migrate_negative (hEmpty : ∀ key, key ∉ keys) (store : KvStore) (entries : List (String × Bytes))
    (device : Device) :
    (migrate transport store entries).wp (fun _ => True) (fun _ _ => True)
      (fun state _ => state.Negative transport keys) device := by
  refine Prog.wp_bind (Prog.wp_send trivial ?_)
  split <;> exact Prog.wp_pure ⟨fun _ => hEmpty, by rintro ⟨⟩, by rintro ⟨⟩⟩

/-- A start takes for absent what the listing does not name, so with a listing of all keys it is right. -/
theorem establishVssState_negative (fs : FileSystem) (node : Node)
    (hKeys : ∀ listing, transport.listKeyVersions = .ok listing → ∀ key, key ∈ keys ↔ key ∈ listing.map Prod.fst)
    (device : Device) :
    (establishVssState fs node transport).wp (fun _ => True) (fun _ _ => True)
      (fun state _ => state.Negative transport keys) device := by
  have hAbsent {listing : List (String × Nat)} (hListing : transport.listKeyVersions = .ok listing)
      (hNone : listing.isEmpty = true) (key : String) : key ∉ keys := by
    rw [hKeys listing hListing, List.isEmpty_iff.mp hNone]
    exact List.not_mem_nil
  refine establishVssState_returns (fun _ _ hState => hState) ?_ ?_ device
  · intro listing hListing hNone
    refine ⟨fun device => ⟨fun _ => hAbsent hListing hNone, by rintro ⟨⟩, by rintro ⟨⟩⟩, ?_⟩
    intro store files device
    exact migrate_negative (hAbsent hListing hNone) store _ device
  · intro listing hListing
    exact ⟨silentRecovery_negative keys, fun files _ => seedVersions_negative (hKeys listing hListing) _⟩

end

/-- A listing is whole or an error, over any server. Where its pages partition the server's keys, a key that
is not listed is none of the server's, and what a start makes of the listing says the same. -/
theorem listing_complete_or_error (wire : WireFormat) {σ : Type} (server : HttpServer σ) (client : VssWireClient) (s : σ) :
    let result := client.listKeyVersions wire server s
    let fetch := client.fetchPage wire server
    Ends fetch .tooManyListPages maxListPages s none result ∧
    (∀ listing last, result = (.ok listing, last) ↔ ∃ pages, Listing fetch s none pages last ∧
      pages.length ≤ maxListPages ∧ listing = pages.flatMap Page.items) ∧
    (∀ requests : σ → Nat, (∀ s url body, requests (server.post s url body).2 ≤ requests s + 1) →
      requests result.2 ≤ requests s + maxListPages * max 1 client.retry.maxAttempts) ∧
    ∀ keys, VssWireClient.Partitions fetch s keys →
      (∀ listing, result.1 = .ok listing → ∀ key, key ∉ listing.map Prod.fst → key ∉ keys) ∧
      ∀ fs node transport device fates state after rest, transport.listKeyVersions = ofListing result.1 →
        establishVssState fs node transport device fates = .ok state after rest → state.Negative transport keys := by
  refine ⟨client.listKeyVersions_ends s, fun _ _ => client.listKeyVersions_ok_iff,
    fun _ hCounts => client.listKeyVersions_requests hCounts s, fun keys hKeys => ⟨?_, ?_⟩⟩
  · intro listing hListing key hAbsent hKey
    exact hAbsent (((client.listKeyVersions_keys hKeys hListing).2 key).mp hKey)
  · intro fs node transport device fates state after rest hTransport hStart
    have hWhole : ∀ listing, transport.listKeyVersions = .ok listing → ∀ key, key ∈ keys ↔ key ∈ listing.map Prod.fst := by
      intro seen hSeen key
      rw [hTransport, ofListing] at hSeen
      cases hListing : (client.listKeyVersions wire server s).1 with
      | error e =>
        rw [hListing] at hSeen
        cases hSeen
      | ok listing =>
        rw [hListing] at hSeen
        cases hSeen
        rw [(client.listKeyVersions_keys hKeys hListing).2 key, List.map_map]
        rfl
    have hNegative := Prog.wp_ok (establishVssState_negative fs node hWhole device) hStart
    exact hNegative

/-! Two pages of one key each; the second names an empty token. -/

def twoPages : WireFormat where
  decodeListKeyVersionsResponse
    | [0] => .ok ⟨[⟨channelManagerVssKey, 3, []⟩], some "rest", none⟩
    | _ => .ok ⟨[⟨monitorManifestKey, 1, []⟩], some "", none⟩
  decodeErrorResponse _ := none

def twoPageServer : HttpServer Unit where
  post _ _ request := (.ok (200, if request.pageToken = none then [0] else [1]), ())

def demoClient : VssWireClient := ⟨"https://vss", "store", .default⟩

def twoKeys : Set String := {channelManagerVssKey, monitorManifestKey}

theorem twoPages_partition : VssWireClient.Partitions (demoClient.fetchPage twoPages twoPageServer) () twoKeys := by
  intro pages last hPages
  obtain ⟨page, -, hFirst, hNext⟩ | ⟨first, others, mid, next, rfl, hFirst, hNext, hRest⟩ := hPages.cases
  · cases hFirst
    cases hNext
  · cases hFirst
    cases hNext
    obtain ⟨second, rfl, hSecond, -⟩ | ⟨second, others, mid, next, rfl, hSecond, hNext, -⟩ := hRest.cases
    · cases hSecond
      exact ⟨by decide, fun key => by simp [twoKeys]⟩
    · cases hSecond
      cases hNext

theorem establishVssState_seeds (fs : FileSystem) {node : Node} {transport : Transport} (device : Device)
    {manager : Bytes} {listing : List (String × Nat)} {files : List (String × DeserializedMonitor × Bytes)}
    (hMarker : device.marker = none) (hManager : device.store.manager = some manager)
    (hListing : transport.listKeyVersions = .ok listing) (hSome : listing.isEmpty = false)
    (hFiles : readChannelMonitors node device.store = some files) :
    establishVssState fs node transport device [] =
      .ok (seedVersions transport listing (files.map fun file => (file.2.1.derivedVssKey, file.2.2))) device [] := by
  simp only [establishVssState, bind, Prog.bind, Prog.read, id, hMarker, hManager, hListing, Option.isSome_none,
    Option.isNone_some, Bool.false_and, Bool.or_self, Bool.false_eq_true, if_false, hFiles, hSome]
  rfl

theorem two_pages_whole :
    (∃ pages, Listing (demoClient.fetchPage twoPages twoPageServer) () none pages () ∧ pages.length ≤ maxListPages ∧
      [(channelManagerVssKey, 3), (monitorManifestKey, 1)] = pages.flatMap Page.items) ∧
    knownPeersVssKey ∉ twoKeys ∧
    ∃ transport : Transport, ∃ files, readChannelMonitors numberedNode (localChannels 1).store = some files ∧
      (seedVersions transport [(channelManagerVssKey, 3), (monitorManifestKey, 1)]
        (files.map fun file => (file.2.1.derivedVssKey, file.2.2))).Negative transport twoKeys := by
  have hListing : demoClient.listKeyVersions twoPages twoPageServer () =
      (.ok [(channelManagerVssKey, 3), (monitorManifestKey, 1)], ()) := by decide
  obtain ⟨-, hPages, -, hKeys⟩ := listing_complete_or_error twoPages twoPageServer demoClient ()
  obtain ⟨hAbsent, hStart⟩ := hKeys twoKeys twoPages_partition
  obtain ⟨files, hFiles, -⟩ := localChannels_keys (show 1 ≤ 65536 by decide)
  refine ⟨(hPages _ ()).mp hListing, hAbsent _ (congrArg Prod.fst hListing) _ (by decide),
    { emptyNamespace with listKeyVersions := .ok [(channelManagerVssKey, 3), (monitorManifestKey, 1)] }, files, hFiles, ?_⟩
  refine hStart sortedFiles numberedNode _ (localChannels 1) [] _ _ [] ?_
    (establishVssState_seeds sortedFiles (localChannels 1) rfl rfl rfl rfl hFiles)
  rw [hListing]
  rfl

end WalletCore.Restore
