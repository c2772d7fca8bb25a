import Mathlib.Algebra.Order.Floor.Semifield
import Mathlib.Data.Rat.Floor
import Mathlib.Tactic.Ring
import WalletCore.Send.Grammar

/-! # Amounts as decimal texts

An amount in bitcoin is a decimal text. Read in sats it is the whole part of what it says, and what was
written from sats is read back.
-/

namespace WalletCore.Send

open Lib Lib.Regex

/-! ## Digits -/

theorem isDigit_iff {c : Char} : c.isDigit = true ↔ c ∈ digits := by
  rw [digits, mem_range (by decide), Char.isDigit, Bool.and_eq_true, decide_eq_true_eq, decide_eq_true_eq, ge_iff_le,
    UInt32.le_iff_toNat_le, UInt32.le_iff_toNat_le]
  rfl

def digitsValue (text : List Char) : Nat := Nat.ofDigitChars 10 text 0

theorem digitsValue_append (front back : List Char) :
    digitsValue (front ++ back) = digitsValue front * 10 ^ back.length + digitsValue back := by
  rw [digitsValue, Nat.ofDigitChars_append, Nat.ofDigitChars_eq_ofDigitChars_zero, Nat.mul_comm]
  rfl

theorem digitsValue_lt {text : List Char} (h : ∀ c ∈ text, c ∈ digits) : digitsValue text < 10 ^ text.length := by
  induction text with
  | nil => decide
  | cons c text ih =>
    obtain ⟨hc, hText⟩ := List.forall_mem_cons.mp h
    have hDigit := (mem_range (by decide)).mp hc
    have hRest := ih hText
    have hOne : digitsValue [c] ≤ 9 := by
      rw [digitsValue, Nat.ofDigitChars_cons, Nat.ofDigitChars_nil]
      have hNine : ('9' : Char).toNat = 57 := rfl
      have hZero : ('0' : Char).toNat = 48 := rfl
      omega
    rw [← List.singleton_append, digitsValue_append, List.length_append, List.length_singleton, Nat.add_comm 1, pow_succ]
    have hScale := Nat.mul_le_mul_right (10 ^ text.length) hOne
    omega

theorem parseUnsigned_digits {size : Nat} {text : List Char} (hNonempty : text ≠ []) (hDigits : ∀ c ∈ text, c ∈ digits) :
    parseUnsigned size text = checked size (digitsValue text) := by
  obtain ⟨c, rest, rfl⟩ := List.exists_cons_of_ne_nil hNonempty
  have hAll : (c :: rest).all Char.isDigit = true := List.all_eq_true.mpr fun d hd => isDigit_iff.mpr (hDigits d hd)
  rw [parseUnsigned]
  · simp only [ne_eq, hNonempty, not_false_eq_true, hAll, true_and]
    rfl
  · rintro signed hSign
    cases hSign
    exact absurd (hDigits '+' List.mem_cons_self) (by decide)

theorem checked_of_lt {size value : Nat} (h : value < size) : checked size value = some value := if_pos h

theorem checked_eq_some {size value result : Nat} : checked size value = some result ↔ value < size ∧ value = result := by
  rw [checked]
  split
  · next h => simp [h]
  · next h => simp [h]

/-! ## Decimal texts -/

/-- The two sides of the point; without a point there is nothing behind it. -/
def decimalParts (text : List Char) : List Char × List Char := (splitOnce '.' text).getD (text, [])

def decimalValue (text : List Char) : ℚ :=
  digitsValue (decimalParts text).1 + digitsValue (decimalParts text).2 / 10 ^ (decimalParts text).2.length

theorem mem_decimalGrammar {text : List Char} : text ∈ decimalGrammar.matches' ↔
    ((decimalParts text).1 ≠ [] ∧ ∀ c ∈ (decimalParts text).1, c ∈ digits) ∧
      ('.' ∈ text → (decimalParts text).2 ≠ [] ∧ ∀ c ∈ (decimalParts text).2, c ∈ digits) := by
  have hNoPoint : ∀ {whole : List Char}, (∀ c ∈ whole, c ∈ digits) → '.' ∉ whole :=
    fun h hMem => absurd (h _ hMem) (by decide)
  rw [decimalGrammar, mem_seq]
  constructor
  · rintro ⟨whole, hWhole, rest, hRest, rfl⟩
    obtain ⟨hNonempty, hDigits⟩ := mem_oneOrMore_oneOf.mp hWhole
    obtain rfl | hFrac := mem_optional.mp hRest
    · rw [List.append_nil, decimalParts, splitOnce_eq_none.mpr (hNoPoint hDigits)]
      exact ⟨⟨hNonempty, hDigits⟩, fun hMem => absurd hMem (hNoPoint hDigits)⟩
    · obtain ⟨point, hPoint, frac, hDecimals, rfl⟩ := mem_seq.mp hFrac
      rw [mem_literal.mp hPoint, decimalParts, List.singleton_append,
        splitOnce_eq_some.mpr ⟨rfl, hNoPoint hDigits⟩]
      exact ⟨⟨hNonempty, hDigits⟩, fun _ => mem_oneOrMore_oneOf.mp hDecimals⟩
  · rintro ⟨hWhole, hFrac⟩
    by_cases hPoint : '.' ∈ text
    · cases hSplit : splitOnce '.' text with
      | none => exact absurd hPoint (splitOnce_eq_none.mp hSplit)
      | some cut =>
        obtain ⟨whole, frac⟩ := cut
        rw [decimalParts, hSplit] at hWhole hFrac
        exact ⟨whole, mem_oneOrMore_oneOf.mpr hWhole, _,
          mem_optional.mpr (.inr (mem_seq.mpr ⟨_, mem_literal.mpr rfl, frac, mem_oneOrMore_oneOf.mpr (hFrac hPoint), rfl⟩)),
          (splitOnce_eq_some.mp hSplit).1.symm⟩
    · rw [decimalParts, splitOnce_eq_none.mpr hPoint] at hWhole
      exact ⟨text, mem_oneOrMore_oneOf.mpr hWhole, [], mem_optional.mpr (.inl rfl), List.append_nil text⟩

/-- The sats of a fraction: its first eight digits, filled up with zeros. -/
theorem fraction_eq {frac : List Char} (h : ∀ c ∈ frac, c ∈ digits) :
    digitsValue (frac.take 8 ++ List.replicate (8 - (frac.take 8).length) '0') =
      digitsValue frac * 100000000 / 10 ^ frac.length := by
  rw [digitsValue_append, List.length_replicate]
  have hZeros : digitsValue (List.replicate (8 - (frac.take 8).length) '0') = 0 := by
    rw [digitsValue, Nat.ofDigitChars_replicate_zero, Nat.mul_zero]
  rw [hZeros, Nat.add_zero]
  obtain hShort | hLong : frac.length ≤ 8 ∨ 8 ≤ frac.length := by omega
  · rw [List.take_of_length_le hShort]
    symm
    apply Nat.div_eq_of_eq_mul_left (Nat.pow_pos (by decide))
    rw [Nat.mul_assoc, ← pow_add, Nat.sub_add_cancel hShort]
    rfl
  · have hTaken : (frac.take 8).length = 8 := List.length_take_of_le hLong
    have hCut : digitsValue frac = digitsValue (frac.take 8) * 10 ^ (frac.length - 8) + digitsValue (frac.drop 8) := by
      conv_lhs => rw [← List.take_append_drop 8 frac, digitsValue_append, List.length_drop]
    have hRest : digitsValue (frac.drop 8) < 10 ^ (frac.length - 8) := by
      rw [← List.length_drop]
      exact digitsValue_lt fun c hc => h c (List.mem_of_mem_drop hc)
    have hScale : 10 ^ frac.length = 10 ^ (frac.length - 8) * 100000000 := by
      conv_lhs => rw [← Nat.sub_add_cancel hLong, pow_add]
      rfl
    rw [hTaken, hScale, Nat.mul_div_mul_right _ _ (by decide), hCut, Nat.add_comm, Nat.add_mul_div_right _ _ (Nat.pow_pos (by decide)),
      Nat.div_eq_of_lt hRest]
    simp

theorem floor_decimalValue (text : List Char) :
    ⌊decimalValue text * 100000000⌋₊ = digitsValue (decimalParts text).1 * 100000000 +
      digitsValue (decimalParts text).2 * 100000000 / 10 ^ (decimalParts text).2.length := by
  have hValue : decimalValue text * 100000000 =
      ((digitsValue (decimalParts text).2 * 100000000 : ℕ) : ℚ) / ((10 ^ (decimalParts text).2.length : ℕ) : ℚ) +
        ((digitsValue (decimalParts text).1 * 100000000 : ℕ) : ℚ) := by
    rw [decimalValue]
    push_cast
    ring
  rw [hValue, Nat.floor_add_natCast (by positivity), Nat.floor_div_eq_div, Nat.add_comm]

/-- The wider steps in between never refuse what fits in the end. -/
theorem checked_sats {narrow wide : Nat} (hNarrow : narrow ≤ wide) (whole frac : Nat) :
    ((checked wide whole).bind fun whole => (checked wide frac).bind fun frac =>
      (checked wide (whole * 100000000)).bind fun wholeSats =>
        (checked wide (wholeSats + frac)).bind fun sats => (checked narrow sats).map UInt64.ofNat) =
      (checked narrow (whole * 100000000 + frac)).map .ofNat := by
  by_cases hFits : whole * 100000000 + frac < narrow
  · have hSum : whole * 100000000 + frac < wide := Nat.lt_of_lt_of_le hFits hNarrow
    have hScaled : whole * 100000000 < wide := Nat.lt_of_le_of_lt (Nat.le_add_right _ _) hSum
    have hFrac : frac < wide := Nat.lt_of_le_of_lt (Nat.le_add_left _ _) hSum
    have hWhole : whole < wide := Nat.lt_of_le_of_lt (Nat.le_mul_of_pos_right _ (by decide)) hScaled
    rw [checked_of_lt hWhole, checked_of_lt hFrac, Option.bind_some, Option.bind_some, checked_of_lt hScaled,
      Option.bind_some, checked_of_lt hSum, Option.bind_some]
  · have hNone : checked narrow (whole * 100000000 + frac) = none := if_neg hFits
    rw [hNone, Option.map_none]
    simp only [Option.bind_eq_none_iff, checked_eq_some, and_imp]
    rintro _ - rfl _ - rfl _ - rfl _ - rfl
    rw [hNone, Option.map_none]

/-- The two sides of the point, cut and padded, make up the whole part of the value in sats. -/
theorem btcStringToSats_digits {btc : List Char} (h : trim btc ∈ decimalGrammar.matches') :
    btcStringToSats btc = .ok ((checked (2 ^ 64) ⌊decimalValue (trim btc) * 100000000⌋₊).map .ofNat) := by
  obtain ⟨⟨hWhole, hWholeDigits⟩, hPoint⟩ := mem_decimalGrammar.mp h
  have hFracDigits : ∀ c ∈ (decimalParts (trim btc)).2, c ∈ digits := by
    by_cases hMem : '.' ∈ trim btc
    · exact (hPoint hMem).2
    · rw [decimalParts, splitOnce_eq_none.mpr hMem]
      simp
  have hFloor := floor_decimalValue (trim btc)
  cases hParts : decimalParts (trim btc) with
  | mk whole frac =>
  simp only [hParts] at hWhole hWholeDigits hPoint hFracDigits hFloor
  have hCut : (splitOnce '.' (trim btc)).getD (trim btc, []) = (whole, frac) := hParts
  have hFracLen := digitClass.byteLen_eq hFracDigits
  have hFront : sliceTo frac (min (byteLen frac) 8) = .ok (frac.take 8) := by
    have hLen : byteLen (frac.take 8) = min (byteLen frac) 8 := by
      rw [digitClass.byteLen_eq fun c hc => hFracDigits c (List.mem_of_mem_take hc), hFracLen, List.length_take, min_comm]
    have hSlice := sliceTo_append (frac.take 8) (frac.drop 8)
    rwa [List.take_append_drop, hLen] at hSlice
  have hPadded : frac.take 8 ++ List.replicate (8 - byteLen (frac.take 8)) '0' ≠ [] := by
    intro hNil
    obtain ⟨hTake, hZeros⟩ := List.append_eq_nil_iff.mp hNil
    rw [hTake] at hZeros
    cases hZeros
  have hPaddedDigits : ∀ c ∈ frac.take 8 ++ List.replicate (8 - byteLen (frac.take 8)) '0', c ∈ digits := by
    intro c hc
    obtain hTake | hZero := List.mem_append.mp hc
    · exact hFracDigits c (List.mem_of_mem_take hTake)
    · rw [(List.mem_replicate.mp hZero).2]
      decide
  have hTakeLen : byteLen (frac.take 8) = (frac.take 8).length :=
    digitClass.byteLen_eq fun c hc => hFracDigits c (List.mem_of_mem_take hc)
  have hBadWhole : ¬ (whole = [] ∨ ¬ (utf8 whole).all isAsciiDigit = true) := by
    rw [digitClass.all]
    exact fun h => h.elim hWhole (absurd hWholeDigits)
  have hBadFrac : ¬ ('.' ∈ trim btc ∧ (frac = [] ∨ ¬ (utf8 frac).all isAsciiDigit = true)) := by
    rw [digitClass.all]
    exact fun h => h.2.elim (hPoint h.1).1 (absurd hFracDigits)
  rw [hFloor, ← checked_sats (by decide : 2 ^ 64 ≤ 2 ^ 128), btcStringToSats]
  simp only [hCut]
  rw [if_neg hBadWhole, if_neg hBadFrac, parseUnsigned_digits hWhole hWholeDigits]
  cases checked (2 ^ 128) (digitsValue whole) with
  | none => rfl
  | some whole =>
    rw [hFront, ← fraction_eq hFracDigits, ← hTakeLen, ← parseUnsigned_digits hPadded hPaddedDigits]
    rw [Option.bind_some]
    simp only [Except.map, Option.bind_eq_bind]

theorem btcStringToSats_refused {btc : List Char} (h : trim btc ∉ decimalGrammar.matches') :
    btcStringToSats btc = .ok none := by
  rw [mem_decimalGrammar] at h
  cases hParts : decimalParts (trim btc) with
  | mk whole frac =>
  have hCut : (splitOnce '.' (trim btc)).getD (trim btc, []) = (whole, frac) := hParts
  simp only [hParts] at h
  simp only [btcStringToSats, hCut, digitClass.all]
  by_cases hWhole : whole = [] ∨ ¬ ∀ c ∈ whole, c ∈ digits
  · rw [if_pos hWhole]
  · by_cases hFrac : '.' ∈ trim btc ∧ (frac = [] ∨ ¬ ∀ c ∈ frac, c ∈ digits)
    · rw [if_neg hWhole, if_pos hFrac]
    · rw [not_or, not_not] at hWhole
      apply absurd _ h
      constructor
      · exact hWhole
      · intro hPoint
        rw [not_and, not_or, not_not] at hFrac
        exact hFrac hPoint

/-- An amount is read exactly if it is a decimal text whose sats fit, and then it is those sats. -/
theorem btcStringToSats_iff (btc : List Char) :
    ∃ result, btcStringToSats btc = .ok result ∧ ∀ sats, result = some sats ↔
      trim btc ∈ decimalGrammar.matches' ∧ ⌊decimalValue (trim btc) * 100000000⌋₊ = sats.toNat := by
  by_cases hGrammar : trim btc ∈ decimalGrammar.matches'
  · use (checked (2 ^ 64) ⌊decimalValue (trim btc) * 100000000⌋₊).map .ofNat
    constructor
    · exact btcStringToSats_digits hGrammar
    · intro sats
      simp only [Option.map_eq_some_iff, checked_eq_some, hGrammar, true_and]
      constructor
      · rintro ⟨value, ⟨hFits, rfl⟩, rfl⟩
        exact (Nat.mod_eq_of_lt hFits).symm
      · intro hSats
        rw [hSats]
        exact ⟨sats.toNat, ⟨sats.toNat_lt, rfl⟩, UInt64.ofNat_toNat⟩
  · use none
    constructor
    · exact btcStringToSats_refused hGrammar
    · intro sats
      apply iff_of_false
      · rintro ⟨⟩
      · rintro ⟨hMem, -⟩
        exact hGrammar hMem

end WalletCore.Send
