import WalletCore.Restore.Completeness

/-! # Which copy of a channel is restored

Several blobs of the server may be monitors of one channel. A copy that the manifest lists is
authoritative: it is planned, and unlisted copies of its channel are dropped, whichever is newer.
-/

namespace WalletCore.Restore

open Lib Vss

/-! ## Copies -/

/-- A blob with the channel it is a monitor of. -/
abbrev Copy := String × Bytes

/-- An answer of the server, read as a monitor. -/
def copyOf (stack : Stack) : Except VssError (Option (Bytes × Nat)) → Option Copy
  | .ok (some (bytes, _)) => (stack.deserializeMonitor bytes).map fun parsed => (parsed.localKey, bytes)
  | _ => none

section

variable (transport : Transport) (stack : Stack)

def listedCopies (manifestKeys : List String) : List Copy :=
  manifestKeys.filterMap fun key => copyOf stack (transport.get key)

def unlistedCopies (listing : List (String × Nat)) (manifestKeys : List String) : List Copy :=
  (unexplainedRemoteKeys listing manifestKeys transport).filterMap fun key => copyOf stack (transport.getByStoredKey key)

end

def RestorePlan.copies (plan : RestorePlan) : List Copy := plan.monitors.map fun monitor => (monitor.localKey, monitor.bytes)

/-! ## What is chosen among copies -/

/-- Every channel once, by its newest copy. -/
structure Newest (updateId : Bytes → UInt64) (downloaded planned : List Copy) : Prop where
  once : (planned.map Prod.fst).Nodup
  every : ∀ copy ∈ downloaded, copy.1 ∈ planned.map Prod.fst
  newest : ∀ chosen ∈ planned, ∀ copy ∈ downloaded, copy.1 = chosen.1 → updateId copy.2 ≤ updateId chosen.2

/-- Of no channel are there two listed copies, or two unlisted ones and no listed one. -/
structure Single (listed unlisted : List Copy) : Prop where
  once : (listed.map Prod.fst).Nodup
  apart : unlisted.Pairwise fun a b => a.1 = b.1 → a.1 ∈ listed.map Prod.fst

/-- No unlisted copy is newer than a listed one of its channel. -/
def Outdated (updateId : Bytes → UInt64) (listed unlisted : List Copy) : Prop :=
  ∀ copy ∈ unlisted, ∀ kept ∈ listed, copy.1 = kept.1 → updateId copy.2 ≤ updateId kept.2

/-- What the merge does. -/
def merged (listed unlisted : List Copy) : List Copy := listed ++ unlisted.filter fun copy => copy.1 ∉ listed.map Prod.fst

section

variable {updateId : Bytes → UInt64} {listed unlisted : List Copy}

theorem merged_every (copy : Copy) (h : copy ∈ listed ++ unlisted) : copy.1 ∈ (merged listed unlisted).map Prod.fst := by
  rw [merged, List.map_append, List.mem_append]
  by_cases hListed : copy.1 ∈ listed.map Prod.fst
  · exact .inl hListed
  · obtain hMem | hMem := List.mem_append.mp h
    · exact absurd (List.mem_map_of_mem hMem) hListed
    · exact .inr (List.mem_map_of_mem (List.mem_filter.mpr ⟨hMem, by simpa using hListed⟩))

theorem merged_listed {copy : Copy} (h : copy ∈ merged listed unlisted) (hListed : copy.1 ∈ listed.map Prod.fst) :
    copy ∈ listed := by
  obtain hMem | hMem := List.mem_append.mp h
  · exact hMem
  · exact absurd hListed (by simpa using (List.mem_filter.mp hMem).2)

theorem merged_once : ((merged listed unlisted).map Prod.fst).Nodup ↔ Single listed unlisted := by
  rw [merged, List.map_append, List.nodup_append]
  constructor
  · rintro ⟨hListed, hUnlisted, -⟩
    refine ⟨hListed, ?_⟩
    rw [List.Nodup, List.pairwise_map, List.pairwise_filter] at hUnlisted
    refine hUnlisted.imp fun {a b} hApart hSame => ?_
    by_contra hOther
    exact hApart (by simpa using hOther) (by simpa [hSame] using hOther) hSame
  · intro h
    refine ⟨h.once, ?_, ?_⟩
    · rw [List.Nodup, List.pairwise_map, List.pairwise_filter]
      refine h.apart.imp fun {a b} hListed hA _ hSame => ?_
      exact absurd (hListed hSame) (by simpa using hA)
    · rintro key hKey _ hOther rfl
      obtain ⟨copy, hCopy, rfl⟩ := List.mem_map.mp hOther
      exact absurd hKey (by simpa using (List.mem_filter.mp hCopy).2)

theorem eq_of_nodup_fst {copies : List Copy} (h : (copies.map Prod.fst).Nodup) {a b : Copy} (ha : a ∈ copies)
    (hb : b ∈ copies) (hSame : a.1 = b.1) : a = b :=
  List.inj_on_of_nodup_map h ha hb hSame

/-- The merge chooses the newest copies of single ones where no unlisted copy is newer. -/
theorem merged_newest_iff :
    Newest updateId (listed ++ unlisted) (merged listed unlisted) ↔ Single listed unlisted ∧ Outdated updateId listed unlisted := by
  constructor
  · intro h
    refine ⟨merged_once.mp h.once, fun copy hCopy kept hKept hSame => ?_⟩
    exact h.newest kept (List.mem_append_left _ hKept) copy (List.mem_append_right _ hCopy) hSame
  · rintro ⟨hSingle, hOutdated⟩
    have hOnce := merged_once.mpr hSingle
    refine ⟨hOnce, merged_every, fun chosen hChosen copy hCopy hSame => ?_⟩
    by_cases hListed : chosen.1 ∈ listed.map Prod.fst
    · have hKept := merged_listed hChosen hListed
      obtain hMem | hMem := List.mem_append.mp hCopy
      · rw [eq_of_nodup_fst hSingle.once hMem hKept hSame]
        exact UInt64.le_refl _
      · exact hOutdated copy hMem chosen hKept hSame
    · obtain hMem | hMem := List.mem_append.mp hCopy
      · exact absurd (hSame ▸ List.mem_map_of_mem hMem) hListed
      · have hPlanned : copy ∈ merged listed unlisted :=
          List.mem_append_right _ (List.mem_filter.mpr ⟨hMem, by simpa [hSame] using hListed⟩)
        rw [eq_of_nodup_fst hOnce hPlanned hChosen hSame]
        exact UInt64.le_refl _

end

/-! ## The plan and the disk -/

section

variable {transport : Transport} {stack : Stack} {listing : List (String × Nat)} {manifestKeys : List String}
  {listed : List ValidatedMonitor} {plan : RestorePlan}

theorem filterMap_eq_map_copies {monitors : List ValidatedMonitor} {keys : List String}
    {answer : String → Except VssError (Option (Bytes × Nat))} (hKeys : monitors.map (·.vssKey) = keys)
    (h : ∀ monitor ∈ monitors, copyOf stack (answer monitor.vssKey) = some (monitor.localKey, monitor.bytes)) :
    keys.filterMap (fun key => copyOf stack (answer key)) =
      monitors.map fun monitor => (monitor.localKey, monitor.bytes) := by
  subst hKeys
  rw [List.filterMap_map]
  induction monitors with
  | nil => rfl
  | cons monitor rest ih =>
    obtain ⟨hHere, hRest⟩ := List.forall_mem_cons.mp h
    rw [List.filterMap_cons, Function.comp_apply, hHere, List.map_cons, ih hRest]

theorem Prepared.listedCopies_eq (h : Prepared transport stack listing manifestKeys listed plan) :
    listedCopies transport stack manifestKeys = listed.map fun monitor => (monitor.localKey, monitor.bytes) := by
  refine filterMap_eq_map_copies h.keys fun monitor hMonitor => ?_
  obtain ⟨hGet, parsed, hParsed, hLocal⟩ := downloadMonitor_ok (h.downloaded monitor hMonitor)
  rw [hGet, copyOf, hParsed, hLocal]
  rfl

theorem unlistedCopies_eq : unlistedCopies transport stack listing manifestKeys =
    (unlistedMonitors transport stack listing manifestKeys).map fun monitor => (monitor.localKey, monitor.bytes) := by
  rw [unlistedCopies, unlistedMonitors, List.map_filterMap]
  refine List.filterMap_congr fun key _ => ?_
  rw [adoptedMonitor]
  cases transport.getByStoredKey key with
  | error e => rfl
  | ok answer =>
    cases answer with
    | none => rfl
    | some blob =>
      obtain ⟨bytes, version⟩ := blob
      rw [copyOf, Option.map_map]
      rfl

/-- The plan is the merge of the server's copies. -/
theorem Prepared.copies (h : Prepared transport stack listing manifestKeys listed plan) :
    plan.copies = merged (listedCopies transport stack manifestKeys)
      (unlistedCopies transport stack listing manifestKeys) := by
  have hKeys : (listed.map fun monitor => (monitor.localKey, monitor.bytes)).map Prod.fst = listed.map (·.localKey) := by
    rw [List.map_map]
    rfl
  rw [h.listedCopies_eq, unlistedCopies_eq, merged, RestorePlan.copies, h.monitors, List.map_append, hKeys,
    List.filter_map]
  rfl

theorem writeAll_copies (hOnce : (plan.copies.map Prod.fst).Nodup) {copy : Copy} (hCopy : copy ∈ plan.copies)
    (store : KvStore) : (store.writeAll plan.localWrites).monitors.lookup copy.1 = some copy.2 := by
  obtain ⟨monitor, hMonitor, rfl⟩ := List.mem_map.mp hCopy
  obtain ⟨before, after, hSplit⟩ := List.append_of_mem hMonitor
  have hLast : monitor.localKey ∉ after.map (·.localKey) := by
    rw [RestorePlan.copies, hSplit, List.map_map, List.map_append, List.nodup_append] at hOnce
    exact (List.nodup_cons.mp hOnce.2.1).1
  -- no later write goes to the monitor's file
  have hRest : StoreFile.monitor monitor.localKey ∉ (after.map (fun monitor => (StoreFile.monitor monitor.localKey,
      monitor.bytes)) ++ (plan.peers.map fun peers => (StoreFile.peers, serializeKnownPeers peers.1)).toList).map
        Prod.fst := by
    rw [List.map_append, List.mem_append, not_or]
    constructor
    · simpa using hLast
    · cases plan.peers <;> simp
  rw [RestorePlan.localWrites, hSplit, List.map_append, List.map_cons, KvStore.writeAll, List.append_assoc,
    List.append_assoc, ← List.append_assoc, List.foldl_append, List.cons_append, List.foldl_cons]
  refine ((KvStore.writeAll_other _ _).2 monitor.localKey hRest).trans ?_
  exact Finmap.lookup_insert _

end

/-- Every downloaded channel is planned, a listed one by listed copies only. Where there are single copies each
channel is planned and written once, and by its newest copy just when no unlisted copy is newer than a listed one. -/
theorem listed_copy_planned {transport : Transport} {stack : Stack} {listing : List (String × Nat)}
    {manifest : Option (List String × Nat)} {plan : RestorePlan} {adoptedCount : Nat}
    (hManifest : fetchManifest transport = .ok manifest)
    (hPlan : preparePlan transport stack listing = .ok (plan, adoptedCount)) :
    let manifestKeys := (manifest.map Prod.fst).getD []
    let listed := listedCopies transport stack manifestKeys
    let unlisted := unlistedCopies transport stack listing manifestKeys
    (∀ copy ∈ listed ++ unlisted, copy.1 ∈ plan.copies.map Prod.fst) ∧
    (∀ copy ∈ plan.copies, copy.1 ∈ listed.map Prod.fst → copy ∈ listed) ∧
    (Single listed unlisted → (plan.copies.map Prod.fst).Nodup ∧
      (∀ store copy, copy ∈ plan.copies →
        (KvStore.writeAll store plan.localWrites).monitors.lookup copy.1 = some copy.2) ∧
      ∀ updateId, Newest updateId (listed ++ unlisted) plan.copies ↔ Outdated updateId listed unlisted) := by
  intro manifestKeys listed unlisted
  obtain ⟨manifest', monitors, hManifest', hPrepared⟩ := preparePlan_prepared hPlan
  cases hManifest.symm.trans hManifest'
  have hCopies : plan.copies = merged listed unlisted := hPrepared.copies
  refine ⟨?_, ?_, ?_⟩
  · rw [hCopies]
    exact merged_every
  · rw [hCopies]
    exact fun copy => merged_listed
  · intro hSingle
    have hOnce : (plan.copies.map Prod.fst).Nodup := by
      rw [hCopies]
      exact merged_once.mpr hSingle
    refine ⟨hOnce, fun store copy hCopy => writeAll_copies hOnce hCopy store, fun updateId => ?_⟩
    rw [hCopies, merged_newest_iff]
    exact ⟨And.right, fun hOutdated => ⟨hSingle, hOutdated⟩⟩

/-- Every blob is a state of the one channel; the number is its update id. -/
def oneChannelStates : Stack where
  deserializeMonitor bytes :=
    match bytes with
    | .ofJson (.number (.posInt _)) => some ⟨"0", ⟨Vector.replicate 32 0, 0⟩, "0"⟩
    | _ => none
  byteLength _ := 32

def numberOf : Bytes → UInt64
  | .ofJson (.number (.posInt n)) => n
  | _ => 0

/-- The listed blob of the channel, and an unlisted one, with these update ids. -/
def twoCopies (listed unlisted : UInt64) : Transport :=
  { oneChannelBackup with
    listKeyVersions := .ok [(channelManagerVssKey, 1), (monitorManifestKey, 1), (numberedKey 0, 1), ("x", 1)]
    get := fun key =>
      if key = numberedKey 0 then .ok (some (.ofJson (.ofU64 listed), 1)) else oneChannelBackup.get key
    getByStoredKey := fun _ => .ok (some (.ofJson (.ofU64 unlisted), 1)) }

def twoCopiesListing : List (String × Nat) :=
  [(channelManagerVssKey, 1), (monitorManifestKey, 1), (numberedKey 0, 1), ("x", 1)]

def twoCopiesPlan (listed : UInt64) : RestorePlan :=
  ⟨some 1, some (.raw [1], 1), [⟨numberedKey 0, "0", .ofJson (.ofU64 listed), 1, true⟩], none⟩

theorem twoCopies_manifest (listed unlisted : UInt64) :
    fetchManifest (twoCopies listed unlisted) = .ok (some ([numberedKey 0], 1)) := rfl

theorem twoCopies_plan (listed unlisted : UInt64) :
    preparePlan (twoCopies listed unlisted) oneChannelStates twoCopiesListing = .ok (twoCopiesPlan listed, 0) := rfl

theorem older_copy_dropped :
    Newest numberOf (listedCopies (twoCopies 2 1) oneChannelStates [numberedKey 0] ++
      unlistedCopies (twoCopies 2 1) oneChannelStates twoCopiesListing [numberedKey 0]) (twoCopiesPlan 2).copies ∧
    ∀ store, (KvStore.writeAll store (twoCopiesPlan 2).localWrites).monitors.lookup "0" = some (.ofJson (.ofU64 2)) := by
  obtain ⟨-, -, hSingle⟩ := listed_copy_planned (twoCopies_manifest 2 1) (twoCopies_plan 2 1)
  obtain ⟨-, hWritten, hNewest⟩ := hSingle ⟨by decide +kernel, by decide +kernel⟩
  refine ⟨(hNewest numberOf).mpr ?_, fun store => hWritten store ("0", .ofJson (.ofU64 2)) List.mem_cons_self⟩
  unfold Outdated
  decide +kernel

/-- The listed copy is kept although the unlisted one is newer. -/
theorem newer_copy_dropped :
    preparePlan (twoCopies 1 2) oneChannelStates twoCopiesListing = .ok (twoCopiesPlan 1, 0) ∧
    ("0", .ofJson (.ofU64 2)) ∈ unlistedCopies (twoCopies 1 2) oneChannelStates twoCopiesListing [numberedKey 0] ∧
    (twoCopiesPlan 1).copies = [("0", .ofJson (.ofU64 1))] ∧
    ¬ Newest numberOf (listedCopies (twoCopies 1 2) oneChannelStates [numberedKey 0] ++
      unlistedCopies (twoCopies 1 2) oneChannelStates twoCopiesListing [numberedKey 0]) (twoCopiesPlan 1).copies := by
  have hUnlisted : ("0", .ofJson (.ofU64 2)) ∈
      unlistedCopies (twoCopies 1 2) oneChannelStates twoCopiesListing [numberedKey 0] := by decide +kernel
  refine ⟨rfl, hUnlisted, rfl, fun h => ?_⟩
  have hOlder := h.newest ("0", .ofJson (.ofU64 1)) List.mem_cons_self _ (List.mem_append_right _ hUnlisted) rfl
  exact absurd hOlder (by decide)

end WalletCore.Restore
