import Mathlib.Computability.RegularExpressions
import WalletCore.Lib.Utf8

/-! # Expressions over character classes

Regular expressions in the shapes they are written in: classes of letters, optional parts, and parts
repeated some number of times.
-/

namespace Lib.Regex

variable {α : Type}

def oneOf (letters : List α) : RegularExpression α := (letters.map .char).foldr (· + ·) 0

def literal (word : List α) : RegularExpression α := (word.map .char).foldr (· * ·) 1

def optional (r : RegularExpression α) : RegularExpression α := 1 + r

def oneOrMore (r : RegularExpression α) : RegularExpression α := r * r.star

def atLeast (n : Nat) (r : RegularExpression α) : RegularExpression α := r ^ n * r.star

def repeated (least most : Nat) (r : RegularExpression α) : RegularExpression α :=
  r ^ least * optional r ^ (most - least)

theorem mem_seq {r s : RegularExpression α} {text : List α} :
    text ∈ (r * s).matches' ↔ ∃ front ∈ r.matches', ∃ back ∈ s.matches', front ++ back = text := by
  rw [RegularExpression.matches'_mul, Language.mem_mul]

theorem mem_oneOf {letters text : List α} : text ∈ (oneOf letters).matches' ↔ ∃ c ∈ letters, text = [c] := by
  induction letters with
  | nil =>
    apply iff_of_false
    · exact Language.notMem_zero text
    · rintro ⟨c, hc, -⟩
      cases hc
  | cons letter letters ih =>
    change text ∈ ({[letter]} + (oneOf letters).matches' : Language α) ↔ _
    rw [Language.mem_add, ih, List.exists_mem_cons_iff]
    rfl

theorem mem_literal {word text : List α} : text ∈ (literal word).matches' ↔ text = word := by
  induction word generalizing text with
  | nil => rfl
  | cons letter word ih =>
    change text ∈ ({[letter]} * (literal word).matches' : Language α) ↔ _
    rw [Language.mem_mul]
    constructor
    · rintro ⟨_, rfl, rest, hRest, rfl⟩
      rw [ih.mp hRest]
      rfl
    · rintro rfl
      exact ⟨[letter], rfl, word, ih.mpr rfl, rfl⟩

theorem mem_optional {r : RegularExpression α} {text : List α} :
    text ∈ (optional r).matches' ↔ text = [] ∨ text ∈ r.matches' := by
  rw [optional, RegularExpression.matches'_add, Language.mem_add]
  rfl

/-! ## Repeated letters -/

section

variable {letters text : List α}

theorem mem_pow_oneOf {n : Nat} :
    text ∈ (oneOf letters ^ n).matches' ↔ text.length = n ∧ ∀ c ∈ text, c ∈ letters := by
  rw [RegularExpression.matches'_pow, Language.mem_pow]
  constructor
  · rintro ⟨parts, rfl, rfl, hParts⟩
    have hSingles : ∀ part ∈ parts, part.length = 1 ∧ ∀ c ∈ part, c ∈ letters := by
      intro part hPart
      obtain ⟨c, hc, rfl⟩ := mem_oneOf.mp (hParts part hPart)
      exact ⟨rfl, by simpa using hc⟩
    constructor
    · rw [List.length_flatten, List.map_congr_left fun part hPart => (hSingles part hPart).1]
      simp
    · intro c hc
      obtain ⟨part, hPart, hMem⟩ := List.mem_flatten.mp hc
      exact (hSingles part hPart).2 c hMem
  · rintro ⟨hLength, hLetters⟩
    refine ⟨text.map ([·]), ?_, by rw [List.length_map, hLength], ?_⟩
    · exact (List.flatMap_singleton' text).symm
    · intro part hPart
      obtain ⟨c, hc, rfl⟩ := List.mem_map.mp hPart
      exact mem_oneOf.mpr ⟨c, hLetters c hc, rfl⟩

theorem mem_star_oneOf : text ∈ (oneOf letters).star.matches' ↔ ∀ c ∈ text, c ∈ letters := by
  rw [RegularExpression.matches'_star, Language.kstar_eq_iSup_pow, Language.mem_iSup]
  simp only [← RegularExpression.matches'_pow, mem_pow_oneOf, exists_and_right, exists_eq', true_and]

theorem mem_oneOrMore_oneOf :
    text ∈ (oneOrMore (oneOf letters)).matches' ↔ text ≠ [] ∧ ∀ c ∈ text, c ∈ letters := by
  rw [oneOrMore, mem_seq]
  constructor
  · rintro ⟨_, hFront, back, hBack, rfl⟩
    obtain ⟨c, hc, rfl⟩ := mem_oneOf.mp hFront
    exact ⟨List.cons_ne_nil _ _, List.forall_mem_cons.mpr ⟨hc, mem_star_oneOf.mp hBack⟩⟩
  · rintro ⟨hNonempty, hLetters⟩
    obtain ⟨c, rest, rfl⟩ := List.exists_cons_of_ne_nil hNonempty
    obtain ⟨hc, hRest⟩ := List.forall_mem_cons.mp hLetters
    exact ⟨[c], mem_oneOf.mpr ⟨c, hc, rfl⟩, rest, mem_star_oneOf.mpr hRest, rfl⟩

theorem mem_atLeast_oneOf {n : Nat} :
    text ∈ (atLeast n (oneOf letters)).matches' ↔ n ≤ text.length ∧ ∀ c ∈ text, c ∈ letters := by
  rw [atLeast, mem_seq]
  constructor
  · rintro ⟨front, hFront, back, hBack, rfl⟩
    obtain ⟨hLength, hLetters⟩ := mem_pow_oneOf.mp hFront
    rw [List.length_append, List.forall_mem_append]
    exact ⟨by omega, hLetters, mem_star_oneOf.mp hBack⟩
  · rintro ⟨hLength, hLetters⟩
    refine ⟨text.take n, mem_pow_oneOf.mpr ⟨List.length_take_of_le hLength, ?_⟩, text.drop n, mem_star_oneOf.mpr ?_,
      List.take_append_drop n text⟩
    · intro c hc
      exact hLetters c (List.mem_of_mem_take hc)
    · intro c hc
      exact hLetters c (List.mem_of_mem_drop hc)

theorem mem_optional_pow_oneOf {n : Nat} :
    text ∈ (optional (oneOf letters) ^ n).matches' ↔ text.length ≤ n ∧ ∀ c ∈ text, c ∈ letters := by
  induction n generalizing text with
  | zero =>
    rw [RegularExpression.matches'_pow, pow_zero, Language.mem_one]
    constructor
    · rintro rfl
      simp
    · rintro ⟨hLength, -⟩
      exact List.length_eq_zero_iff.mp (Nat.le_zero.mp hLength)
  | succ n ih =>
    rw [RegularExpression.matches'_pow, pow_succ, ← RegularExpression.matches'_pow, Language.mem_mul]
    constructor
    · rintro ⟨front, hFront, back, hBack, rfl⟩
      obtain ⟨hLength, hLetters⟩ := ih.mp hFront
      rw [List.length_append, List.forall_mem_append]
      obtain rfl | hLetter := mem_optional.mp hBack
      · exact ⟨by simp; omega, hLetters, by simp⟩
      · obtain ⟨c, hc, rfl⟩ := mem_oneOf.mp hLetter
        exact ⟨by simp; omega, hLetters, by simpa using hc⟩
    · rintro ⟨hLength, hLetters⟩
      obtain hShort | hFull : text.length ≤ n ∨ text.length = n + 1 := by omega
      · exact ⟨text, ih.mpr ⟨hShort, hLetters⟩, [], mem_optional.mpr (.inl rfl), List.append_nil text⟩
      · have hNonempty : text ≠ [] := List.ne_nil_of_length_eq_add_one hFull
        refine ⟨text.dropLast, ih.mpr ⟨by rw [List.length_dropLast]; omega, ?_⟩, [text.getLast hNonempty], ?_,
          List.dropLast_append_getLast hNonempty⟩
        · intro c hc
          exact hLetters c (List.mem_of_mem_dropLast hc)
        · exact mem_optional.mpr (.inr (mem_oneOf.mpr ⟨_, hLetters _ (List.getLast_mem hNonempty), rfl⟩))

theorem mem_repeated_oneOf {least most : Nat} (h : least ≤ most) :
    text ∈ (repeated least most (oneOf letters)).matches' ↔
      (least ≤ text.length ∧ text.length ≤ most) ∧ ∀ c ∈ text, c ∈ letters := by
  rw [repeated, mem_seq]
  constructor
  · rintro ⟨front, hFront, back, hBack, rfl⟩
    obtain ⟨hFrontLength, hFrontLetters⟩ := mem_pow_oneOf.mp hFront
    obtain ⟨hBackLength, hBackLetters⟩ := mem_optional_pow_oneOf.mp hBack
    rw [List.length_append, List.forall_mem_append]
    exact ⟨by omega, hFrontLetters, hBackLetters⟩
  · rintro ⟨hLength, hLetters⟩
    refine ⟨text.take least, mem_pow_oneOf.mpr ⟨List.length_take_of_le hLength.1, ?_⟩, text.drop least,
      mem_optional_pow_oneOf.mpr ⟨by rw [List.length_drop]; omega, ?_⟩, List.take_append_drop least text⟩
    · intro c hc
      exact hLetters c (List.mem_of_mem_take hc)
    · intro c hc
      exact hLetters c (List.mem_of_mem_drop hc)

end

/-! ## Ranges of characters -/

/-- The characters from one to another, below the surrogates. -/
def range (first last : Char) : List Char :=
  (List.range (last.toNat + 1 - first.toNat)).map fun i => .ofNat (first.toNat + i)

theorem mem_range {first last c : Char} (h : last.toNat < 0xD800) :
    c ∈ range first last ↔ first.toNat ≤ c.toNat ∧ c.toNat ≤ last.toNat := by
  rw [range, List.mem_map]
  constructor
  · rintro ⟨i, hi, rfl⟩
    rw [List.mem_range] at hi
    rw [toNat_ofNat (by omega)]
    omega
  · rintro ⟨hFirst, hLast⟩
    refine ⟨c.toNat - first.toNat, List.mem_range.mpr (by omega), ?_⟩
    rw [Nat.add_sub_cancel' hFirst, Char.ofNat_toNat]

end Lib.Regex
