import Mathlib.Data.Finmap
import Mathlib.Data.Finset.Sort
import Mathlib.Data.String.Basic

/-! # Finite maps with text keys

Maps are Mathlib's finite maps, so that two maps with the same entries are equal.
An ordered map is read entry by entry in key order and built entry by entry,
a later entry replacing an earlier one under the same key.
-/

namespace Lib

universe u

abbrev ascending (keys : Finset String) : List String := keys.sort (· ≤ ·)

abbrev StringMap (β : Type u) := Finmap fun _ : String => β

namespace StringMap

variable {β : Type u}

/-- The entries in ascending key order. -/
def toPairs (m : StringMap β) : List (String × β) :=
  (ascending m.keys).filterMap fun k => (m.lookup k).map fun v => (k, v)

def insertAll (m : StringMap β) (entries : List (String × β)) : StringMap β :=
  entries.foldl (fun acc entry => acc.insert entry.1 entry.2) m

def ofPairs (entries : List (String × β)) : StringMap β := insertAll ∅ entries

def filterKeys (keep : String → Bool) (m : StringMap β) : StringMap β :=
  ofPairs (m.toPairs.filter fun entry => keep entry.1)

@[simp] theorem insertAll_nil (m : StringMap β) : insertAll m [] = m := rfl

@[simp] theorem insertAll_cons (m : StringMap β) (entry : String × β) (entries : List (String × β)) :
    insertAll m (entry :: entries) = insertAll (m.insert entry.1 entry.2) entries := rfl

theorem lookup_insert_eq (m : StringMap β) (k k' : String) (v : β) :
    (m.insert k v).lookup k' = if k' = k then some v else m.lookup k' := by
  split
  · rename_i h
    subst h
    exact Finmap.lookup_insert m
  · rename_i h
    exact Finmap.lookup_insert_of_ne m h

theorem insert_insert (m : StringMap β) (k : String) (v : β) : (m.insert k v).insert k v = m.insert k v := by
  apply Finmap.ext_lookup
  intro k'
  rw [lookup_insert_eq, lookup_insert_eq]
  split <;> rfl

theorem lookup_erase_eq (m : StringMap β) (k k' : String) :
    (m.erase k).lookup k' = if k' = k then none else m.lookup k' := by
  split
  · rename_i h
    subst h
    exact Finmap.lookup_erase k' m
  · rename_i h
    exact Finmap.lookup_erase_ne h

theorem mem_toPairs (m : StringMap β) (k : String) (v : β) :
    (k, v) ∈ m.toPairs ↔ m.lookup k = some v := by
  simp only [toPairs, List.mem_filterMap, Finset.mem_sort, Finmap.mem_keys, Option.map_eq_some_iff]
  constructor
  · rintro ⟨k', _, v', h, hPair⟩
    cases hPair
    exact h
  · intro h
    exact ⟨k, Finmap.mem_of_lookup_eq_some h, v, h, rfl⟩

theorem toPairs_keys_nodup (m : StringMap β) : (m.toPairs.map Prod.fst).Nodup := by
  have hSub : (m.toPairs.map Prod.fst).Sublist (ascending m.keys) := by
    rw [toPairs, List.map_filterMap]
    induction ascending m.keys with
    | nil => exact List.Sublist.slnil
    | cons k rest ih =>
      cases h : m.lookup k with
      | none => simpa [List.filterMap_cons, h] using ih.cons k
      | some v => simpa [List.filterMap_cons, h] using ih.cons_cons k
  exact (Finset.sort_nodup _ _).sublist hSub

theorem lookup_insertAll_of_not_mem (entries : List (String × β)) (m : StringMap β) (k : String)
    (h : k ∉ entries.map Prod.fst) : (insertAll m entries).lookup k = m.lookup k := by
  induction entries generalizing m with
  | nil => rfl
  | cons entry rest ih =>
    simp only [List.map_cons, List.mem_cons, not_or] at h
    rw [insertAll_cons, ih _ h.2, lookup_insert_eq, if_neg h.1]

theorem lookup_insertAll_of_mem (entries : List (String × β)) (m : StringMap β)
    (hNodup : (entries.map Prod.fst).Nodup) {k : String} {v : β} (h : (k, v) ∈ entries) :
    (insertAll m entries).lookup k = some v := by
  induction entries generalizing m with
  | nil => cases h
  | cons entry rest ih =>
    rw [List.map_cons, List.nodup_cons] at hNodup
    rcases List.mem_cons.mp h with rfl | h
    · rw [insertAll_cons, lookup_insertAll_of_not_mem _ _ _ hNodup.1, lookup_insert_eq, if_pos rfl]
    · exact ih _ hNodup.2 h

theorem mem_of_lookup_insertAll (entries : List (String × β)) (m : StringMap β) {k : String} {v : β}
    (h : (insertAll m entries).lookup k = some v) : (k, v) ∈ entries ∨ m.lookup k = some v := by
  induction entries generalizing m with
  | nil => exact .inr h
  | cons entry rest ih =>
    rcases ih _ h with h | h
    · exact .inl (List.mem_cons_of_mem _ h)
    · rw [lookup_insert_eq] at h
      split at h
      · rename_i hKey
        cases h
        exact .inl (hKey ▸ List.mem_cons_self)
      · exact .inr h

theorem mem_of_lookup_ofPairs {entries : List (String × β)} {k : String} {v : β}
    (h : (ofPairs entries).lookup k = some v) : (k, v) ∈ entries := by
  rcases mem_of_lookup_insertAll entries ∅ h with h | h
  · exact h
  · cases h

theorem lookup_ofPairs (entries : List (String × β)) (hNodup : (entries.map Prod.fst).Nodup)
    (k : String) (v : β) : (ofPairs entries).lookup k = some v ↔ (k, v) ∈ entries :=
  ⟨mem_of_lookup_ofPairs, lookup_insertAll_of_mem entries ∅ hNodup⟩

theorem isSome_lookup_insertAll (entries : List (String × β)) (m : StringMap β) (k : String) :
    ((insertAll m entries).lookup k).isSome = true ↔ k ∈ entries.map Prod.fst ∨ (m.lookup k).isSome = true := by
  induction entries generalizing m with
  | nil => simp [insertAll]
  | cons entry rest ih =>
    rw [insertAll_cons, ih, lookup_insert_eq, List.map_cons, List.mem_cons]
    by_cases hKey : k = entry.1
    · simp [hKey]
    · simp [hKey]

/-- A name is known if some entry has it, whichever entry counts. -/
theorem isSome_lookup_ofPairs (entries : List (String × β)) (k : String) :
    ((ofPairs entries).lookup k).isSome = true ↔ k ∈ entries.map Prod.fst := by
  rw [ofPairs, isSome_lookup_insertAll]
  exact or_iff_left Bool.false_ne_true

theorem lookup_insertAll_map {γ : Type u} (f : β → γ) (entries : List (String × β)) {m : StringMap β}
    {mapped : StringMap γ} (k : String) (h : mapped.lookup k = (m.lookup k).map f) :
    (insertAll mapped (entries.map fun entry => (entry.1, f entry.2))).lookup k =
      ((insertAll m entries).lookup k).map f := by
  induction entries generalizing m mapped with
  | nil => exact h
  | cons entry rest ih =>
    rw [List.map_cons, insertAll_cons, insertAll_cons]
    refine ih ?_
    rw [lookup_insert_eq, lookup_insert_eq]
    split
    · rfl
    · exact h

theorem lookup_ofPairs_map {γ : Type u} (f : β → γ) (entries : List (String × β)) (k : String) :
    (ofPairs (entries.map fun entry => (entry.1, f entry.2))).lookup k = ((ofPairs entries).lookup k).map f :=
  lookup_insertAll_map f entries k rfl

theorem map_fst_filterMap {γ : Type u} {entries : List (String × β)} {f : String × β → Option (String × γ)}
    (h : ∀ entry ∈ entries, ∃ v, f entry = some (entry.1, v)) :
    (entries.filterMap f).map Prod.fst = entries.map Prod.fst := by
  induction entries with
  | nil => rfl
  | cons entry rest ih =>
    rw [List.forall_mem_cons] at h
    obtain ⟨v, hEntry⟩ := h.1
    rw [List.filterMap_cons, hEntry, List.map_cons, List.map_cons, ih h.2]

/-- Reading a map entry by entry, keeping what `f` makes of the values. -/
theorem lookup_ofPairs_filterMap {γ : Type u} (f : β → Option γ) (m : StringMap β) (k : String) :
    (ofPairs (m.toPairs.filterMap fun entry => (f entry.2).map fun v => (entry.1, v))).lookup k =
      (m.lookup k).bind f := by
  have hSub : ((m.toPairs.filterMap fun entry => (f entry.2).map fun v => (entry.1, v)).map Prod.fst).Sublist
      (m.toPairs.map Prod.fst) := by
    induction m.toPairs with
    | nil => exact List.Sublist.slnil
    | cons entry rest ih =>
      cases h : f entry.2 with
      | none => simpa [List.filterMap_cons, h] using ih.cons entry.1
      | some v => simpa [List.filterMap_cons, h] using ih.cons_cons entry.1
  apply Option.ext
  intro v
  rw [lookup_ofPairs _ (m.toPairs_keys_nodup.sublist hSub), List.mem_filterMap, Option.bind_eq_some_iff]
  constructor
  · rintro ⟨entry, hMem, hEntry⟩
    obtain ⟨w, hw, hPair⟩ := Option.map_eq_some_iff.mp hEntry
    cases hPair
    exact ⟨entry.2, (mem_toPairs _ _ _).mp hMem, hw⟩
  · rintro ⟨w, hLookup, hw⟩
    refine ⟨(k, w), (mem_toPairs _ _ _).mpr hLookup, ?_⟩
    rw [hw]
    rfl

@[simp] theorem ofPairs_toPairs (m : StringMap β) : ofPairs m.toPairs = m := by
  apply Finmap.ext_lookup
  intro k
  apply Option.ext
  intro v
  rw [lookup_ofPairs _ m.toPairs_keys_nodup, mem_toPairs]

@[simp] theorem toPairs_empty : toPairs (∅ : StringMap β) = [] := by
  rw [toPairs, Finmap.keys_empty, ascending, Finset.sort_empty]
  rfl

@[simp] theorem toPairs_singleton (k : String) (v : β) : toPairs (Finmap.singleton k v) = [(k, v)] := by
  rw [toPairs, Finmap.keys_singleton, ascending, Finset.sort_singleton, List.filterMap_cons,
    Finmap.lookup_singleton_eq]
  rfl

theorem insert_singleton (k : String) (v v' : β) :
    (Finmap.singleton k v : StringMap β).insert k v' = Finmap.singleton k v' := by
  apply Finmap.ext_lookup
  intro k'
  apply Option.ext
  intro w
  rw [lookup_insert_eq, ← mem_toPairs (Finmap.singleton k v'), toPairs_singleton, List.mem_singleton, Prod.mk.injEq]
  split
  · rename_i h
    simp [h, eq_comm]
  · rename_i h
    rw [← mem_toPairs, toPairs_singleton, List.mem_singleton, Prod.mk.injEq]
    simp [h]

/-- Rewriting the values of a map one entry at a time keeps the entries in order. -/
theorem toPairs_ofPairs_map {γ : Type u} (m : StringMap β) (f : β → γ) :
    (ofPairs (m.toPairs.map fun entry => (entry.1, f entry.2))).toPairs =
      m.toPairs.map fun entry => (entry.1, f entry.2) := by
  have hKeys : ((m.toPairs.map fun entry => (entry.1, f entry.2)).map Prod.fst) = m.toPairs.map Prod.fst := by
    rw [List.map_map]
    rfl
  have hLookup : ∀ k, (ofPairs (m.toPairs.map fun entry => (entry.1, f entry.2))).lookup k = (m.lookup k).map f := by
    intro k
    apply Option.ext
    intro w
    rw [lookup_ofPairs _ (hKeys ▸ m.toPairs_keys_nodup), List.mem_map, Option.map_eq_some_iff]
    constructor
    · rintro ⟨entry, hMem, hPair⟩
      cases hPair
      exact ⟨entry.2, (mem_toPairs _ _ _).mp hMem, rfl⟩
    · rintro ⟨v, hLookup, rfl⟩
      exact ⟨(k, v), (mem_toPairs _ _ _).mpr hLookup, rfl⟩
  generalize ofPairs (m.toPairs.map fun entry => (entry.1, f entry.2)) = mapped at hLookup
  have hMapped : mapped.keys = m.keys := by
    ext k
    rw [Finmap.mem_keys, Finmap.mem_keys, ← Finmap.lookup_isSome, ← Finmap.lookup_isSome, hLookup, Option.isSome_map]
  rw [toPairs, toPairs, hMapped, List.map_filterMap]
  congr 1
  funext k
  rw [hLookup]
  cases m.lookup k <;> rfl

theorem lookup_filterKeys (keep : String → Bool) (m : StringMap β) (k : String) :
    (m.filterKeys keep).lookup k = if keep k then m.lookup k else none := by
  have hNodup : ((m.toPairs.filter fun entry => keep entry.1).map Prod.fst).Nodup :=
    m.toPairs_keys_nodup.sublist (List.filter_sublist.map _)
  apply Option.ext
  intro v
  rw [filterKeys, lookup_ofPairs _ hNodup, List.mem_filter, mem_toPairs]
  split <;> simp_all

end StringMap

end Lib
