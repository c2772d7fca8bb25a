import Mathlib.Data.List.Sort
import Mathlib.Order.Defs.LinearOrder

/-! # Sorting by a key, the greatest first

The sort is stable, so what it does is said without any algorithm: the keys descend, and the
items of one key stand as they stood before. Two orders of the same items give the same keys,
and differ within one key at most.
-/

namespace Lib

universe u v w

section

variable {α : Type u} {β : Type v} {κ : Type w} [LinearOrder κ]

def sortDescending (key : α → κ) (l : List α) : List α := l.mergeSort fun a b => decide (key b ≤ key a)

/-- The same items, each key in its place. -/
structure SameUpToTies (key : α → κ) (l l' : List α) : Prop where
  keys : l.map key = l'.map key
  ties (k : κ) : (l.filter fun a => key a = k).Perm (l'.filter fun a => key a = k)

theorem descends_trans (key : α → κ) (a b c : α) (hab : decide (key b ≤ key a) = true)
    (hbc : decide (key c ≤ key b) = true) : decide (key c ≤ key a) = true := by
  rw [decide_eq_true_eq] at hab hbc ⊢
  exact hbc.trans hab

theorem descends_total (key : α → κ) (a b : α) : (decide (key b ≤ key a) || decide (key a ≤ key b)) = true := by
  rw [Bool.or_eq_true, decide_eq_true_eq, decide_eq_true_eq]
  exact le_total (key b) (key a)

variable (key : α → κ) (l : List α)

theorem sortDescending_perm : (sortDescending key l).Perm l := List.mergeSort_perm l _

variable {l} in
@[simp] theorem mem_sortDescending {a : α} : a ∈ sortDescending key l ↔ a ∈ l := List.mem_mergeSort

theorem sortDescending_pairwise : (sortDescending key l).Pairwise fun a b => key b ≤ key a := by
  have hSorted := List.pairwise_mergeSort (descends_trans key) (descends_total key) l
  exact hSorted.imp of_decide_eq_true

theorem filter_sortDescending (k : κ) :
    (sortDescending key l).filter (fun a => key a = k) = l.filter fun a => key a = k := by
  have hTied : (l.filter fun a => key a = k).Pairwise fun a b => decide (key b ≤ key a) = true := by
    refine List.pairwise_of_forall_mem_list fun a ha b hb => ?_
    have hKeyA := of_decide_eq_true (List.mem_filter.mp ha).2
    have hKeyB := of_decide_eq_true (List.mem_filter.mp hb).2
    rw [decide_eq_true_eq, hKeyA, hKeyB]
  have hSub : (l.filter fun a => key a = k).Sublist (sortDescending key l) :=
    List.sublist_mergeSort (descends_trans key) (descends_total key) hTied List.filter_sublist
  -- The items of the key are among the sorted ones in their order, and there are no more of them.
  have hKept := hSub.filter fun a => key a = k
  rw [List.filter_filter] at hKept
  simp only [Bool.and_self] at hKept
  exact (hKept.eq_of_length ((sortDescending_perm key l).filter _).length_eq.symm).symm

theorem map_sortDescending (f : α → β) (key : β → κ) :
    sortDescending key (l.map f) = (sortDescending (key ∘ f) l).map f := by
  rw [sortDescending, sortDescending, List.map_mergeSort]
  exact fun _ _ _ _ => rfl

/-- A rearrangement of the input moves items within one key only. -/
theorem sortDescending_sameUpToTies {l l' : List α} (h : l.Perm l') :
    SameUpToTies key (sortDescending key l) (sortDescending key l') where
  keys := by
    have hPerm := ((sortDescending_perm key l).trans (h.trans (sortDescending_perm key l').symm)).map key
    have hKeys (m : List α) : ((sortDescending key m).map key).Pairwise fun a b => b ≤ a :=
      List.pairwise_map.mpr (sortDescending_pairwise key m)
    refine hPerm.eq_of_pairwise ?_ (hKeys l) (hKeys l')
    intro a b _ _ hab hba
    exact le_antisymm hba hab
  ties k := by
    rw [filter_sortDescending, filter_sortDescending]
    exact h.filter _

end

end Lib
