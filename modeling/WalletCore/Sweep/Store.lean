import WalletCore.History.Payment

/-! # The sweep store

Outputs that wait to be swept lie on disk, one file for each `SpendableOutputs` event. The store keeps
nothing of them in memory: what is pending is what the files hold.
-/

namespace WalletCore.Sweep

open Lib History

/-! ## Entries -/

structure StoredOutpoint where
  txid : String
  vout : UInt32
  valueSats : String
deriving DecidableEq

/-- One event's descriptors as hex, with the channel they came from and what a user sees of them. -/
structure StoredEntry where
  descriptors : List String
  channelIdHex : Option String
  outpoints : List StoredOutpoint
deriving DecidableEq

def encodeOutpoint (outpoint : StoredOutpoint) : Json :=
  .object [("txid", .string outpoint.txid), ("vout", .ofU32 outpoint.vout), ("valueSats", .string outpoint.valueSats)]

def encodeEntry (entry : StoredEntry) : Bytes :=
  .ofJson (.object [
    ("descriptors", .array (entry.descriptors.map .string)),
    ("channelIdHex", writeOption .string entry.channelIdHex),
    ("outpoints", .array (entry.outpoints.map encodeOutpoint))])

def readU32 (value : Json) : Option UInt32 :=
  value.asU64.bind fun n => if n.toNat < UInt32.size then some n.toUInt32 else none

def readOutpoint (txid vout valueSats : Json) : Option StoredOutpoint := do
  return ⟨← txid.asStr, ← readU32 vout, ← valueSats.asStr⟩

/-- A record is read from an object or from an array of its fields. -/
def decodeOutpoint : Json → Option StoredOutpoint
  | .object entries => do
    readOutpoint (← requiredField entries "txid") (← requiredField entries "vout") (← requiredField entries "valueSats")
  | .array [txid, vout, valueSats] => readOutpoint txid vout valueSats
  | _ => none

def readEntry (descriptors : Json) (channelIdHex : Option Json) (outpoints : Json) : Option StoredEntry := do
  let descriptors ← (← descriptors.asArray).mapM Json.asStr
  let channelIdHex ← (channelIdHex.map (readOption Json.asStr)).getD (some none)
  let outpoints ← (← outpoints.asArray).mapM decodeOutpoint
  return ⟨descriptors, channelIdHex, outpoints⟩

/-- Only the channel may be missing. -/
def decodeEntry (bytes : Bytes) : Option StoredEntry :=
  match bytes.fromSlice with
  | some (.object entries) => do
    readEntry (← requiredField entries "descriptors") (← field entries "channelIdHex") (← requiredField entries "outpoints")
  | some (.array [descriptors, channelIdHex, outpoints]) => readEntry descriptors (some channelIdHex) outpoints
  | _ => none

@[simp] theorem readU32_ofU32 (value : UInt32) : readU32 (.ofU32 value) = some value := by
  rw [readU32, Json.asU64_ofU32, Option.bind_some, if_pos]
  · rw [UInt32.toUInt32_toUInt64]
  · rw [UInt32.toNat_toUInt64]
    exact value.toNat_lt

@[simp] theorem decodeOutpoint_encodeOutpoint (outpoint : StoredOutpoint) :
    decodeOutpoint (encodeOutpoint outpoint) = some outpoint := by
  simp [decodeOutpoint, encodeOutpoint, requiredField, field, readOutpoint]

theorem mapM_encoded {α β : Type} {write : α → β} {read : β → Option α} (h : ∀ item, read (write item) = some item)
    (items : List α) : (items.map write).mapM read = some items := by
  induction items with
  | nil => rfl
  | cons item rest ih =>
    rw [List.map_cons, List.mapM_cons, h, ih]
    rfl

/-- A written entry reads back exactly. -/
theorem decodeEntry_encodeEntry (entry : StoredEntry) : decodeEntry (encodeEntry entry) = some entry := by
  have hDescriptors := mapM_encoded (fun text => Json.asStr_string text) entry.descriptors
  have hOutpoints := mapM_encoded decodeOutpoint_encodeOutpoint entry.outpoints
  simp [decodeEntry, encodeEntry, requiredField, field, readEntry, hDescriptors, hOutpoints]

/-! ## The store -/

structure SweepFlags where
  lastAttemptFailed : Bool
  shortfallSats : Option UInt64
deriving DecidableEq

def SweepFlags.default : SweepFlags := ⟨false, none⟩

/-- The files by their keys, and the flags of the last attempt. -/
structure SweepStore where
  files : StringMap Bytes
  flags : SweepFlags

namespace SweepStore

def new (files : StringMap Bytes) : SweepStore := ⟨files, .default⟩

/-- A listing of the directory names each of its files once, in some order. -/
structure Listed (store : SweepStore) (keys : List String) : Prop where
  nodup : keys.Nodup
  complete : ∀ key, key ∈ keys ↔ (store.files.lookup key).isSome = true

/-- The readable entries, in the order of the listing; a corrupt file is skipped. -/
def entries (store : SweepStore) (keys : List String) : List (String × StoredEntry) :=
  keys.filterMap fun key => ((store.files.lookup key).bind decodeEntry).map (key, ·)

def entryAt (store : SweepStore) (key : String) : Option StoredEntry := (store.files.lookup key).bind decodeEntry

def writeEntry (store : SweepStore) (key : String) (entry : StoredEntry) (fails : Bool) : SweepStore :=
  if fails then store else { store with files := store.files.insert key (encodeEntry entry) }

def removeEntries (store : SweepStore) (keys : List String) (fails : String → Bool) : SweepStore :=
  keys.foldl (fun store key => if fails key then store else { store with files := store.files.erase key }) store

def setFlags (store : SweepStore) (lastAttemptFailed : Bool) (shortfallSats : Option UInt64) : SweepStore :=
  { store with flags := ⟨lastAttemptFailed, shortfallSats⟩ }

/-- A restore drops the flags; the entries went with their files. -/
def reset (store : SweepStore) : SweepStore := { store with flags := .default }

theorem mem_entries {store : SweepStore} {keys : List String} {key : String} {entry : StoredEntry} :
    (key, entry) ∈ store.entries keys ↔ key ∈ keys ∧ store.entryAt key = some entry := by
  rw [entries, List.mem_filterMap]
  constructor
  · rintro ⟨listed, hListed, hEntry⟩
    obtain ⟨found, hFound, hPair⟩ := Option.map_eq_some_iff.mp hEntry
    cases hPair
    exact ⟨hListed, hFound⟩
  · rintro ⟨hListed, hEntry⟩
    refine ⟨key, hListed, ?_⟩
    rw [entryAt] at hEntry
    rw [hEntry, Option.map_some]

theorem entries_keys_sublist (store : SweepStore) (keys : List String) :
    ((store.entries keys).map Prod.fst).Sublist keys := by
  induction keys with
  | nil => exact List.Sublist.slnil
  | cons key rest ih =>
    rw [entries, List.filterMap_cons]
    cases (store.files.lookup key).bind decodeEntry with
    | none => exact ih.cons key
    | some entry => exact ih.cons_cons key

theorem entryAt_writeEntry (store : SweepStore) (key other : String) (entry : StoredEntry) (fails : Bool) :
    (store.writeEntry key entry fails).entryAt other =
      if other = key ∧ fails = false then some entry else store.entryAt other := by
  cases fails with
  | true => simp [writeEntry]
  | false =>
    rw [writeEntry, if_neg Bool.false_ne_true, entryAt, StringMap.lookup_insert_eq]
    split
    · next hSame => simp [hSame, decodeEntry_encodeEntry]
    · next hOther => simp [hOther, entryAt]

theorem entryAt_removeEntries (store : SweepStore) (keys : List String) (fails : String → Bool) (key : String) :
    (store.removeEntries keys fails).entryAt key =
      if key ∈ keys ∧ fails key = false then none else store.entryAt key := by
  induction keys generalizing store with
  | nil => simp [removeEntries]
  | cons first rest ih =>
    rw [removeEntries, List.foldl_cons]
    refine (ih _).trans ?_
    by_cases hSame : key = first
    · subst hSame
      cases hFails : fails key with
      | true => simp
      | false => simp [entryAt]
    · cases hFails : fails first with
      | true => simp [hSame]
      | false =>
        have hErased : ({ store with files := store.files.erase first } : SweepStore).entryAt key = store.entryAt key := by
          rw [entryAt, StringMap.lookup_erase_eq, if_neg hSame]
          rfl
        simp [hSame, hErased]

end SweepStore

end WalletCore.Sweep
