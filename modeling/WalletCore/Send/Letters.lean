import WalletCore.Send.Returns

/-! # Letters and spaces

What the readers of a text need to know of its characters: which are spaces, which have a case, and that
the letters and digits of an invoice or an address are no spaces and no separators.
-/

namespace WalletCore.Send

open Lib (isAlphanum_iff toLower_of_range toUpper_of_range)
open Wallet (isWhiteSpace)

/-! ## Spaces -/

/-- A text without spaces at its ends. -/
structure Tight (text : List Char) : Prop where
  first : ∀ c ∈ text.head?, isWhiteSpace c = false
  last : ∀ c ∈ text.getLast?, isWhiteSpace c = false

theorem Tight.of_all {text : List Char} (h : ∀ c ∈ text, isWhiteSpace c = false) : Tight text := by
  constructor
  · intro c hc
    exact h c (List.mem_of_mem_head? hc)
  · intro c hc
    exact h c (List.mem_of_mem_getLast? hc)

theorem dropWhile_eq_self {α : Type} {p : α → Bool} {text : List α} (h : ∀ c ∈ text.head?, p c = false) :
    text.dropWhile p = text := by
  cases text with
  | nil => rfl
  | cons c text => rw [List.dropWhile_cons, h c rfl, if_neg Bool.false_ne_true]

theorem Tight.trim_eq {text : List Char} (h : Tight text) : trim text = text := by
  rw [trim, dropWhile_eq_self h.first, dropWhile_eq_self, List.reverse_reverse]
  intro c hc
  rw [List.head?_reverse] at hc
  exact h.last c hc

/-! ## Case -/

/-- A character that is no letter. -/
def Caseless (c : Char) : Prop := c.toLower = c ∧ c.toUpper = c

instance (c : Char) : Decidable (Caseless c) := inferInstanceAs (Decidable (_ ∧ _))

theorem caseless_of_range {c : Char} (h : c.toNat < 65 ∨ 90 < c.toNat ∧ c.toNat < 97 ∨ 122 < c.toNat) : Caseless c := by
  constructor
  · exact toLower_of_range (by omega)
  · exact toUpper_of_range (by omega)

theorem caseless_of_space {c : Char} (h : isWhiteSpace c = true) : Caseless c := by
  apply caseless_of_range
  simp only [isWhiteSpace, Bool.or_eq_true, Bool.and_eq_true, decide_eq_true_eq, List.mem_cons, List.not_mem_nil,
    or_false] at h
  omega

theorem eq_of_toLower {c d : Char} (h : c.toLower = d.toLower) (hd : Caseless d) : c = d := by
  have hTable : ∀ n < 128, (Char.ofNat n).toLower.toUpper = (Char.ofNat n).toLower →
      (Char.ofNat n).toLower = Char.ofNat n := by decide +kernel
  rw [hd.1] at h
  obtain hSmall | hLarge : c.toNat < 128 ∨ 128 ≤ c.toNat := by omega
  · have hSame := hTable c.toNat hSmall
    rw [Char.ofNat_toNat, h] at hSame
    exact (hSame hd.2).symm
  · rw [← h, (caseless_of_range (by omega)).1]

theorem toLower_toLower (c : Char) : c.toLower.toLower = c.toLower := by
  have hTable : ∀ n < 128, (Char.ofNat n).toLower.toLower = (Char.ofNat n).toLower := by decide +kernel
  obtain hSmall | hLarge : c.toNat < 128 ∨ 128 ≤ c.toNat := by omega
  · have hSame := hTable c.toNat hSmall
    rwa [Char.ofNat_toNat] at hSame
  · have hSame := (caseless_of_range (c := c) (by omega)).1
    rw [hSame, hSame]

theorem notSpace_of_alphanum {c : Char} (h : c.isAlphanum = true) : isWhiteSpace c = false := by
  by_contra hSpace
  rw [Bool.not_eq_false] at hSpace
  simp only [isWhiteSpace, Bool.or_eq_true, Bool.and_eq_true, decide_eq_true_eq, List.mem_cons, List.not_mem_nil,
    or_false] at hSpace
  rw [isAlphanum_iff] at h
  omega

end WalletCore.Send
