import Mathlib.Data.List.Nodup

/-! # Lists united by key

A list holds one item for each key. An incoming item is filled into the first item with its key and
otherwise goes to the end, so that the items keep the order in which their keys first came. The laws of
the union come from those of the fill-in; the base may hold a key twice.
-/

namespace Lib

universe u v

section

variable {α : Type u} {κ : Type v} [DecidableEq κ] (key : α → κ) (fill : α → α → α)

def upsertBy : List α → α → List α
  | [], x => [x]
  | y :: rest, x => if key y = key x then fill y x :: rest else y :: upsertBy rest x

def unionBy (base incoming : List α) : List α := incoming.foldl (upsertBy key fill) base

/-- What the fill-in has to satisfy. -/
structure Filling : Prop where
  key_fill : ∀ x y, key (fill x y) = key x
  assoc : ∀ x y z, fill (fill x y) z = fill x (fill y z)
  idem : ∀ x, fill x x = x

def DistinctKeys (items : List α) : Prop := (items.map key).Nodup

end

section

variable {α : Type u} {κ : Type v} [DecidableEq κ] {key : α → κ} {fill : α → α → α}

theorem Filling.map_key_upsertBy (hFill : Filling key fill) (items : List α) (x : α) :
    (upsertBy key fill items x).map key =
      if key x ∈ items.map key then items.map key else items.map key ++ [key x] := by
  induction items with
  | nil => rfl
  | cons y rest ih =>
    rw [upsertBy]
    by_cases hKey : key y = key x
    · simp [hKey, hFill.key_fill]
    · rw [if_neg hKey, List.map_cons, ih, List.map_cons]
      have hNe : ¬ key x = key y := fun h => hKey h.symm
      by_cases hRest : key x ∈ rest.map key
      · rw [if_pos hRest, if_pos (List.mem_cons_of_mem _ hRest)]
      · rw [if_neg hRest, if_neg (by simp only [List.mem_cons, hNe, hRest, or_self, not_false_eq_true]), List.cons_append]

theorem Filling.distinct_upsertBy (hFill : Filling key fill) {items : List α} (h : DistinctKeys key items) (x : α) :
    DistinctKeys key (upsertBy key fill items x) := by
  rw [DistinctKeys, hFill.map_key_upsertBy]
  split
  · exact h
  · next hNew => exact List.nodup_append.mpr ⟨h, List.nodup_singleton _, by grind⟩

theorem Filling.distinct_unionBy (hFill : Filling key fill) {base : List α} (h : DistinctKeys key base)
    (incoming : List α) : DistinctKeys key (unionBy key fill base incoming) := by
  induction incoming generalizing base with
  | nil => exact h
  | cons x rest ih => exact ih (hFill.distinct_upsertBy h x)

/-! ## What an item of the union says -/

/-- A fact that a fill-in has exactly when one of its sides has it. -/
theorem Filling.exists_upsertBy (hFill : Filling key fill) {P : α → Prop} (hP : ∀ x y, key x = key y →
    (P (fill x y) ↔ P x ∨ P y)) (items : List α) (x : α) (k : κ) :
    (∃ z ∈ upsertBy key fill items x, key z = k ∧ P z) ↔ (∃ z ∈ items, key z = k ∧ P z) ∨ key x = k ∧ P x := by
  induction items with
  | nil => simp [upsertBy]
  | cons y rest ih =>
    rw [upsertBy]
    split
    · next hKey =>
      rw [List.exists_mem_cons_iff, List.exists_mem_cons_iff, hFill.key_fill, hP y x hKey]
      constructor
      · rintro (⟨hk, hy | hx⟩ | hRest)
        · exact .inl (.inl ⟨hk, hy⟩)
        · exact .inr ⟨hKey.symm.trans hk, hx⟩
        · exact .inl (.inr hRest)
      · rintro ((⟨hk, hy⟩ | hRest) | ⟨hk, hx⟩)
        · exact .inl ⟨hk, .inl hy⟩
        · exact .inr hRest
        · exact .inl ⟨hKey.trans hk, .inr hx⟩
    · rw [List.exists_mem_cons_iff, List.exists_mem_cons_iff, ih, or_assoc]

theorem Filling.exists_unionBy (hFill : Filling key fill) {P : α → Prop} (hP : ∀ x y, key x = key y →
    (P (fill x y) ↔ P x ∨ P y)) (base incoming : List α) (k : κ) :
    (∃ z ∈ unionBy key fill base incoming, key z = k ∧ P z) ↔
      (∃ z ∈ base, key z = k ∧ P z) ∨ ∃ z ∈ incoming, key z = k ∧ P z := by
  induction incoming generalizing base with
  | nil => simp [unionBy]
  | cons x rest ih =>
    rw [List.exists_mem_cons_iff, ← or_assoc, ← hFill.exists_upsertBy hP]
    exact ih (upsertBy key fill base x)

theorem Filling.mem_keys_unionBy (hFill : Filling key fill) (base incoming : List α) (k : κ) :
    k ∈ (unionBy key fill base incoming).map key ↔ k ∈ base.map key ∨ k ∈ incoming.map key := by
  have h := hFill.exists_unionBy (P := fun _ => True) (fun _ _ _ => by rw [or_self]) base incoming k
  simpa [List.mem_map] using h

/-! ## The laws -/

theorem Filling.upsertBy_fill (hFill : Filling key fill) (items : List α) {x y : α} (h : key x = key y) :
    upsertBy key fill items (fill x y) = upsertBy key fill (upsertBy key fill items x) y := by
  induction items with
  | nil => rw [upsertBy, upsertBy, upsertBy, if_pos h]
  | cons z rest ih =>
    rw [upsertBy, upsertBy, hFill.key_fill]
    split
    · next hKey => rw [upsertBy, hFill.key_fill, if_pos (hKey.trans h), hFill.assoc]
    · next hKey => rw [upsertBy, if_neg (fun hz => hKey (hz.trans h.symm)), ih]

/-- An item whose key is already there can be filled in before or after one of another key. -/
theorem Filling.upsertBy_comm (hFill : Filling key fill) {items : List α} {x y : α} (hMem : key x ∈ items.map key)
    (hNe : key y ≠ key x) :
    upsertBy key fill (upsertBy key fill items y) x = upsertBy key fill (upsertBy key fill items x) y := by
  induction items with
  | nil => cases hMem
  | cons z rest ih =>
    rw [upsertBy, upsertBy]
    by_cases hx : key z = key x
    · have hy : ¬ key z = key y := fun h => hNe (h.symm.trans hx)
      rw [if_neg hy, if_pos hx, upsertBy, if_pos hx, upsertBy, hFill.key_fill, if_neg hy]
    · have hRest : key x ∈ rest.map key := by
        rw [List.map_cons, List.mem_cons] at hMem
        exact hMem.resolve_left (Ne.symm hx)
      rw [if_neg hx]
      by_cases hy : key z = key y
      · rw [if_pos hy, upsertBy, hFill.key_fill, if_neg hx, upsertBy, if_pos hy]
      · rw [if_neg hy, upsertBy, if_neg hx, upsertBy, if_neg hy, ih hRest]

theorem Filling.unionBy_upsertBy_comm (hFill : Filling key fill) {base : List α} {x : α} (hMem : key x ∈ base.map key)
    {items : List α} (h : key x ∉ items.map key) :
    unionBy key fill (upsertBy key fill base x) items = upsertBy key fill (unionBy key fill base items) x := by
  induction items generalizing base with
  | nil => rfl
  | cons y rest ih =>
    rw [List.map_cons, List.mem_cons, not_or] at h
    have hStays : key x ∈ (upsertBy key fill base y).map key := by
      rw [hFill.map_key_upsertBy]
      split
      · exact hMem
      · exact List.mem_append_left _ hMem
    calc unionBy key fill (upsertBy key fill base x) (y :: rest)
        = unionBy key fill (upsertBy key fill (upsertBy key fill base y) x) rest := by
          rw [hFill.upsertBy_comm hMem (Ne.symm h.1)]
          rfl
      _ = upsertBy key fill (unionBy key fill (upsertBy key fill base y) rest) x := ih hStays h.2

/-- An item goes into the incoming side or into the union, with the same outcome. -/
theorem Filling.unionBy_upsertBy (hFill : Filling key fill) (base : List α) {items : List α}
    (h : DistinctKeys key items) (x : α) :
    unionBy key fill base (upsertBy key fill items x) = upsertBy key fill (unionBy key fill base items) x := by
  induction items generalizing base with
  | nil => rfl
  | cons y rest ih =>
    have hDistinct : key y ∉ rest.map key ∧ DistinctKeys key rest := List.nodup_cons.mp h
    rw [upsertBy]
    split
    · next hKey =>
      have hThere : key x ∈ (upsertBy key fill base y).map key := by
        rw [hFill.map_key_upsertBy, ← hKey]
        split
        · assumption
        · exact List.mem_append_right _ (List.mem_singleton_self _)
      calc unionBy key fill base (fill y x :: rest)
          = unionBy key fill (upsertBy key fill (upsertBy key fill base y) x) rest := by
            rw [← hFill.upsertBy_fill base hKey]
            rfl
        _ = upsertBy key fill (unionBy key fill (upsertBy key fill base y) rest) x :=
            hFill.unionBy_upsertBy_comm hThere (hKey ▸ hDistinct.1)
    · exact ih (upsertBy key fill base y) hDistinct.2

theorem Filling.unionBy_assoc (hFill : Filling key fill) (first : List α) {second : List α}
    (h : DistinctKeys key second) (third : List α) :
    unionBy key fill (unionBy key fill first second) third = unionBy key fill first (unionBy key fill second third) := by
  induction third generalizing second with
  | nil => rfl
  | cons x rest ih =>
    have hStep : upsertBy key fill (unionBy key fill first second) x = unionBy key fill first (upsertBy key fill second x) :=
      (hFill.unionBy_upsertBy first h x).symm
    calc unionBy key fill (unionBy key fill first second) (x :: rest)
        = unionBy key fill (unionBy key fill first (upsertBy key fill second x)) rest := by
          rw [← hStep]
          rfl
      _ = unionBy key fill first (unionBy key fill (upsertBy key fill second x) rest) :=
          ih (hFill.distinct_upsertBy h x)

theorem Filling.upsertBy_of_mem (hFill : Filling key fill) {items : List α} (h : DistinctKeys key items) {x : α}
    (hMem : x ∈ items) : upsertBy key fill items x = items := by
  induction items with
  | nil => cases hMem
  | cons y rest ih =>
    have hDistinct : key y ∉ rest.map key ∧ DistinctKeys key rest := List.nodup_cons.mp h
    rw [upsertBy]
    rcases List.mem_cons.mp hMem with rfl | hRest
    · rw [if_pos rfl, hFill.idem]
    · have hOther : key y ≠ key x := by
        intro hKey
        exact hDistinct.1 (hKey ▸ List.mem_map_of_mem hRest)
      rw [if_neg hOther, ih hDistinct.2 hRest]

theorem Filling.unionBy_self (hFill : Filling key fill) {items : List α} (h : DistinctKeys key items) :
    unionBy key fill items items = items := by
  have hAll : ∀ part : List α, (∀ x ∈ part, x ∈ items) → unionBy key fill items part = items := by
    intro part hPart
    induction part with
    | nil => rfl
    | cons x rest ih =>
      rw [List.forall_mem_cons] at hPart
      rw [unionBy, List.foldl_cons, hFill.upsertBy_of_mem h hPart.1]
      exact ih hPart.2
  exact hAll items fun _ hx => hx

end

end Lib
