import WalletCore.Lib.Json

/-! # The monitor manifest

The `_monitor_keys` value: a JSON array of the keys under which monitor blobs are stored.
The tracking set behind it tags every key with whether it may be published.
-/

namespace WalletCore.Vss

open Lib

def monitorManifestKey : String := "_monitor_keys"

def channelManagerVssKey : String := "channel_manager"

def knownPeersVssKey : String := "_known_peers"

def closeRecordsVssKey : String := "close_records"

def forceCloseRecoveryVssKey : String := "force_close_recovery"

def fixedRemoteKeys : List String :=
  [channelManagerVssKey, monitorManifestKey, knownPeersVssKey, closeRecordsVssKey, forceCloseRecoveryVssKey]

def maxManifestEntries : Nat := 1000

def isLowerHex (c : Char) : Bool := c.isDigit || ('a' ≤ c && c ≤ 'f')

/-- Sixty-four lowercase hex digits, a colon, and a decimal index. -/
def isValidMonitorKey (key : String) : Bool :=
  let txid := key.toList.takeWhile (· != ':')
  match key.toList.dropWhile (· != ':') with
  | [] => false
  | _ :: index => txid.length == 64 && txid.all isLowerHex && !index.isEmpty && index.all Char.isDigit

theorem ne_of_isValidMonitorKey {key fixed : String} (h : isValidMonitorKey key = true)
    (hFixed : isValidMonitorKey fixed = false) : key ≠ fixed := by
  rintro rfl
  simp [hFixed] at h

theorem isValidMonitorKey_ne_manifest {key : String} (h : isValidMonitorKey key = true) :
    key ≠ monitorManifestKey :=
  ne_of_isValidMonitorKey h (by decide)

theorem isValidMonitorKey_ne_channelManager {key : String} (h : isValidMonitorKey key = true) :
    key ≠ channelManagerVssKey :=
  ne_of_isValidMonitorKey h (by decide)

inductive ManifestError where
  | notJson
  | notArray
  | empty
  | tooMany (entries : Nat)
  | invalidKey (entry : Json)
deriving DecidableEq

/-- The keys of the entries in first-seen order, each once. -/
def collectKeys (keys : List String) : List Json → Except ManifestError (List String)
  | [] => .ok keys
  | entry :: rest =>
    match entry.asStr.filter isValidMonitorKey with
    | some key => collectKeys (if key ∈ keys then keys else keys ++ [key]) rest
    | none => .error (.invalidKey entry)

def parseMonitorManifest (bytes : Bytes) : Except ManifestError (List String) :=
  match bytes.fromSlice with
  | none => .error .notJson
  | some parsed =>
    match parsed.asArray with
    | none => .error .notArray
    | some entries =>
      if entries.isEmpty then .error .empty
      else if maxManifestEntries < entries.length then .error (.tooMany entries.length)
      else collectKeys [] entries

/-- The keys a manifest value names, whether or not it passes the parser. -/
def listedKeys (bytes : Bytes) : List String :=
  match bytes.fromSlice.bind Json.asArray with
  | some entries => entries.filterMap Json.asStr
  | none => []

def manifestPayload (keys : List String) : Bytes := .ofJson (.array (keys.map .string))

@[simp] theorem listedKeys_manifestPayload (keys : List String) : listedKeys (manifestPayload keys) = keys := by
  simp only [listedKeys, manifestPayload, Bytes.fromSlice_ofJson, Option.bind_some, Json.asArray_array,
    List.filterMap_map]
  exact List.filterMap_some

theorem collectKeys_subset {entries : List Json} {keys parsed : List String}
    (h : collectKeys keys entries = .ok parsed) {key : String} (hKey : key ∈ parsed) :
    key ∈ keys ∨ key ∈ entries.filterMap Json.asStr := by
  induction entries generalizing keys with
  | nil =>
    cases h
    exact .inl hKey
  | cons entry rest ih =>
    rw [collectKeys] at h
    split at h
    · rename_i first hFirst
      obtain ⟨hStr, -⟩ := Option.filter_eq_some_iff.mp hFirst
      rw [List.filterMap_cons, hStr]
      rcases ih h with hIn | hIn
      · split at hIn
        · exact .inl hIn
        · rcases List.mem_append.mp hIn with hIn | hIn
          · exact .inl hIn
          · rw [List.mem_singleton] at hIn
            exact .inr (hIn ▸ List.mem_cons_self)
      · exact .inr (List.mem_cons_of_mem _ hIn)
    · cases h

theorem parseMonitorManifest_subset {bytes : Bytes} {keys : List String}
    (h : parseMonitorManifest bytes = .ok keys) {key : String} (hKey : key ∈ keys) : key ∈ listedKeys bytes := by
  rw [parseMonitorManifest] at h
  split at h
  · cases h
  · rename_i parsed hParsed
    split at h
    · cases h
    · rename_i entries hEntries
      split at h
      · cases h
      · split at h
        · cases h
        · rcases collectKeys_subset h hKey with hNil | hMem
          · cases hNil
          · rwa [listedKeys, hParsed, Option.bind_some, hEntries]

theorem collectKeys_valid {entries : List Json} {keys parsed : List String} (h : collectKeys keys entries = .ok parsed)
    (hKeys : ∀ key ∈ keys, isValidMonitorKey key = true) : ∀ key ∈ parsed, isValidMonitorKey key = true := by
  induction entries generalizing keys with
  | nil =>
    cases h
    exact hKeys
  | cons entry rest ih =>
    rw [collectKeys] at h
    split at h
    · rename_i first hFirst
      obtain ⟨-, hValid⟩ := Option.filter_eq_some_iff.mp hFirst
      refine ih h ?_
      split
      · exact hKeys
      · intro key hKey
        rw [List.mem_append, List.mem_singleton] at hKey
        obtain hKey | rfl := hKey
        · exact hKeys key hKey
        · exact hValid
    · cases h

theorem parseMonitorManifest_valid {bytes : Bytes} {keys : List String} (h : parseMonitorManifest bytes = .ok keys) :
    ∀ key ∈ keys, isValidMonitorKey key = true := by
  rw [parseMonitorManifest] at h
  split at h
  · cases h
  · split at h
    · cases h
    · split at h
      · cases h
      · split at h
        · cases h
        · exact collectKeys_valid h (by simp)

theorem collectKeys_map_string {keys more : List String} (hNodup : (keys ++ more).Nodup)
    (hValid : ∀ key ∈ more, isValidMonitorKey key = true) :
    collectKeys keys (more.map .string) = .ok (keys ++ more) := by
  induction more generalizing keys with
  | nil => rw [List.append_nil]; rfl
  | cons first rest ih =>
    have hNew : first ∉ keys := fun hMem =>
      (List.nodup_append.mp hNodup).2.2 first hMem first List.mem_cons_self rfl
    have hFirst : (Json.string first).asStr.filter isValidMonitorKey = some first := by
      rw [Json.asStr_string, Option.filter_some, if_pos (hValid first List.mem_cons_self)]
    have hSplit : keys ++ first :: rest = (keys ++ [first]) ++ rest := (List.append_cons ..)
    rw [List.map_cons, collectKeys, hFirst]
    simp only [if_neg hNew]
    rw [hSplit] at hNodup ⊢
    exact ih hNodup fun key hKey => hValid key (List.mem_cons_of_mem _ hKey)

/-- A manifest of distinct well-formed keys reads back exactly as long as it is within the limit. -/
theorem parseMonitorManifest_manifestPayload_iff {keys : List String} (hSome : keys ≠ []) (hNodup : keys.Nodup)
    (hValid : ∀ key ∈ keys, isValidMonitorKey key = true) :
    parseMonitorManifest (manifestPayload keys) = .ok keys ↔ keys.length ≤ maxManifestEntries := by
  have hNil : (keys.map Json.string).isEmpty = false := by
    rw [List.isEmpty_map, List.isEmpty_eq_false_iff]
    exact hSome
  have hKeys : collectKeys [] (keys.map .string) = .ok keys := by
    have h := collectKeys_map_string (hNodup : ([] ++ keys).Nodup) hValid
    rwa [List.nil_append] at h
  simp only [parseMonitorManifest, manifestPayload, Bytes.fromSlice_ofJson, Json.asArray_array, hNil,
    Bool.false_eq_true, if_false, List.length_map, hKeys]
  constructor
  · intro h
    by_contra hLong
    rw [if_pos (Nat.lt_of_not_le hLong)] at h
    cases h
  · intro hShort
    rw [if_neg (Nat.not_lt.mpr hShort)]

/-! ## The tracking set -/

inductive KeyProvenance where
  | publishable
  | unverified
deriving DecidableEq

abbrev MonitorKeySet := StringMap KeyProvenance

namespace MonitorKeySet

def fromParts (tracked : List String) (isPublishable : String → Bool) : MonitorKeySet :=
  .ofPairs (tracked.map fun key => (key, if isPublishable key then .publishable else .unverified))

/-- Never demotes a key already known publishable. -/
def insertUnverified (keys : MonitorKeySet) (key : String) : MonitorKeySet :=
  if (keys.lookup key).isSome then keys else keys.insert key .unverified

def markPublishable (keys : MonitorKeySet) (key : String) : MonitorKeySet := keys.insert key .publishable

def extendPublishable (keys : MonitorKeySet) (more : List String) : MonitorKeySet :=
  more.foldl markPublishable keys

def remove (keys : MonitorKeySet) (key : String) : MonitorKeySet := keys.erase key

/-- The subset that may be published, in sorted order. -/
def publishable (keys : MonitorKeySet) : List String :=
  (keys.toPairs.filter fun entry => entry.2 = .publishable).map Prod.fst

theorem mem_publishable (keys : MonitorKeySet) (key : String) :
    key ∈ keys.publishable ↔ keys.lookup key = some .publishable := by
  simp only [publishable, List.mem_map, List.mem_filter, decide_eq_true_eq, Prod.exists]
  constructor
  · rintro ⟨k, provenance, ⟨hMem, rfl⟩, rfl⟩
    exact (StringMap.mem_toPairs _ _ _).mp hMem
  · intro h
    exact ⟨key, .publishable, ⟨(StringMap.mem_toPairs _ _ _).mpr h, rfl⟩, rfl⟩

theorem publishable_of_fromParts {tracked : List String} {isPublishable : String → Bool} {key : String}
    (h : (fromParts tracked isPublishable).lookup key = some .publishable) :
    key ∈ tracked ∧ isPublishable key = true := by
  have hMem := StringMap.mem_of_lookup_ofPairs h
  rw [List.mem_map] at hMem
  obtain ⟨key', hKey', hEntry⟩ := hMem
  obtain ⟨rfl, hFlag⟩ := Prod.mk.inj hEntry
  split at hFlag
  · exact ⟨hKey', by assumption⟩
  · cases hFlag

theorem publishable_nodup (keys : MonitorKeySet) : keys.publishable.Nodup :=
  (StringMap.toPairs_keys_nodup keys).sublist (List.filter_sublist.map _)

theorem lookup_insertUnverified {keys : MonitorKeySet} {key key' : String} :
    (keys.insertUnverified key).lookup key' = some .publishable ↔ keys.lookup key' = some .publishable := by
  rw [insertUnverified]
  split
  · rfl
  · rename_i hNew
    rw [StringMap.lookup_insert_eq]
    split
    · rename_i hKey
      subst hKey
      cases h : keys.lookup key' <;> simp [h] at hNew ⊢
    · rfl

theorem lookup_markPublishable (keys : MonitorKeySet) (key key' : String) :
    (keys.markPublishable key).lookup key' = if key' = key then some .publishable else keys.lookup key' :=
  StringMap.lookup_insert_eq keys key key' .publishable

theorem lookup_extendPublishable (keys : MonitorKeySet) (more : List String) (key : String) :
    (keys.extendPublishable more).lookup key = if key ∈ more then some .publishable else keys.lookup key := by
  induction more generalizing keys with
  | nil => rfl
  | cons first rest ih =>
    rw [extendPublishable, List.foldl_cons]
    refine (ih _).trans ?_
    rw [lookup_markPublishable]
    by_cases hRest : key ∈ rest
    · simp [hRest]
    · by_cases hFirst : key = first <;> simp [hRest, hFirst]

theorem lookup_remove (keys : MonitorKeySet) (key key' : String) :
    (keys.remove key).lookup key' = if key' = key then none else keys.lookup key' :=
  StringMap.lookup_erase_eq keys key key'

end MonitorKeySet

end WalletCore.Vss
