import Mathlib.Order.Monotone.Basic
import Mathlib.Order.BoundedOrder.Basic

/-! # The history of a versioned value

A value that is replaced only at its current version has one content for each version,
version 0 being no value yet. When every replacement lies above what it replaces, a party
that knows a version only has to lie above the content it had then.
-/

namespace Lib

universe u

structure History (α : Type u) [Preorder α] [OrderBot α] where
  now : Nat
  content : Nat → α
  zero : content 0 = ⊥
  mono : Monotone content

namespace History

variable {α : Type u} [Preorder α] [OrderBot α]

/-- The version has been, and `x` lies above the content it had. -/
def Covers (h : History α) (version : Nat) (x : α) : Prop :=
  version ≤ h.now ∧ h.content version ≤ x

/-- Nothing is known of what came before. -/
def start (now : Nat) (x : α) (hZero : now = 0 → x = ⊥) : History α where
  now := now
  content version := if version < now then ⊥ else x
  zero := by
    split
    · rfl
    · exact hZero (by omega)
  mono := by
    intro a b hLe
    show (if a < now then ⊥ else x) ≤ if b < now then ⊥ else x
    split
    · exact bot_le
    · rw [if_neg (by omega)]

def push (h : History α) (x : α) (hAbove : h.content h.now ≤ x) : History α where
  now := h.now + 1
  content version := if version ≤ h.now then h.content version else x
  zero := by
    rw [if_pos (Nat.zero_le _)]
    exact h.zero
  mono := by
    intro a b hLe
    show (if a ≤ h.now then h.content a else x) ≤ if b ≤ h.now then h.content b else x
    split
    · split
      · exact h.mono hLe
      · exact (h.mono (by assumption)).trans hAbove
    · rw [if_neg (by omega)]

variable {h : History α} {version : Nat} {x y : α}

theorem content_start_now (now : Nat) (x : α) (hZero : now = 0 → x = ⊥) : (start now x hZero).content now = x :=
  if_neg (Nat.lt_irrefl now)

theorem content_push_now (hAbove : h.content h.now ≤ x) : (h.push x hAbove).content (h.now + 1) = x :=
  if_neg (Nat.not_succ_le_self h.now)

theorem covers_zero (h : History α) (x : α) : h.Covers 0 x := by
  refine ⟨Nat.zero_le _, ?_⟩
  rw [h.zero]
  exact bot_le

theorem Covers.le (hCovers : h.Covers version x) (hLe : x ≤ y) : h.Covers version y :=
  ⟨hCovers.1, hCovers.2.trans hLe⟩

theorem Covers.push (hCovers : h.Covers version x) (hAbove : h.content h.now ≤ y) :
    (h.push y hAbove).Covers version x := by
  refine ⟨Nat.le_succ_of_le hCovers.1, ?_⟩
  simp only [History.push, if_pos hCovers.1]
  exact hCovers.2

end History

end Lib
