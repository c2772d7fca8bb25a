import Mathlib.Data.List.Basic

/-! # Texts as bytes

A text is a list of characters. Its length, and every position in it, is counted in the bytes of its
UTF-8, and a text can only be cut between characters.
-/

namespace Lib

/-! ## Deciding -/

-- The characters of the text are checked, not all characters that there are.
instance (priority := high) decidableForallChar {p : Char → Prop} [DecidablePred p] (text : List Char) :
    Decidable (∀ c ∈ text, p c) := List.decidableBAll p text

instance (priority := high) decidableExistsChar {p : Char → Prop} [DecidablePred p] (text : List Char) :
    Decidable (∃ c ∈ text, p c) := List.decidableBEx p text

/-! ## ASCII -/

theorem isAlphanum_iff {c : Char} : c.isAlphanum = true ↔
    65 ≤ c.toNat ∧ c.toNat ≤ 90 ∨ 97 ≤ c.toNat ∧ c.toNat ≤ 122 ∨ 48 ≤ c.toNat ∧ c.toNat ≤ 57 := by
  have hRanges : c.isAlphanum = (decide (65 ≤ c.toNat ∧ c.toNat ≤ 90) ||
    (decide (97 ≤ c.toNat) && decide (c.toNat ≤ 122)) || (decide (48 ≤ c.toNat) && decide (c.toNat ≤ 57))) := rfl
  rw [hRanges]
  simp only [Bool.or_eq_true, Bool.and_eq_true, decide_eq_true_eq, or_assoc]

theorem toLower_of_range {c : Char} (h : c.toNat < 65 ∨ 90 < c.toNat) : c.toLower = c := by
  refine dif_neg ?_
  rintro ⟨hFirst, hLast⟩
  have hLow : 65 ≤ c.toNat := hFirst
  have hHigh : c.toNat ≤ 90 := hLast
  omega

theorem toUpper_of_range {c : Char} (h : c.toNat < 97 ∨ 122 < c.toNat) : c.toUpper = c := by
  refine dif_neg ?_
  rintro ⟨hFirst, hLast⟩
  have hLow : 97 ≤ c.toNat := hFirst
  have hHigh : c.toNat ≤ 122 := hLast
  omega

/-! ## Bytes -/

def utf8 (text : List Char) : List UInt8 := text.flatMap String.utf8EncodeChar

def byteLen (text : List Char) : Nat := (utf8 text).length

@[simp] theorem utf8_nil : utf8 [] = [] := rfl

@[simp] theorem utf8_cons (c : Char) (text : List Char) : utf8 (c :: text) = String.utf8EncodeChar c ++ utf8 text := rfl

@[simp] theorem utf8_append (first second : List Char) : utf8 (first ++ second) = utf8 first ++ utf8 second :=
  List.flatMap_append

@[simp] theorem byteLen_nil : byteLen [] = 0 := rfl

@[simp] theorem byteLen_cons (c : Char) (text : List Char) : byteLen (c :: text) = c.utf8Size + byteLen text := by
  rw [byteLen, utf8_cons, List.length_append, String.length_utf8EncodeChar, byteLen]

@[simp] theorem byteLen_append (first second : List Char) : byteLen (first ++ second) = byteLen first + byteLen second := by
  rw [byteLen, utf8_append, List.length_append, byteLen, byteLen]

/-! ## Decoding -/

def fromUtf8 (bytes : List UInt8) : Option (List Char) := bytes.toByteArray.utf8Decode?.map Array.toList

theorem utf8Encode_eq (text : List Char) : text.utf8Encode = (utf8 text).toByteArray := rfl

theorem fromUtf8_eq_some {bytes : List UInt8} {text : List Char} : fromUtf8 bytes = some text ↔ utf8 text = bytes := by
  rw [fromUtf8, Option.map_eq_some_iff]
  constructor
  · rintro ⟨chars, hChars, rfl⟩
    have hSome : bytes.toByteArray.utf8Decode?.isSome = true := by rw [hChars, Option.isSome_some]
    have hEncode : (bytes.toByteArray.utf8Decode?.get hSome).toList.utf8Encode = bytes.toByteArray :=
      ByteArray.utf8Encode_get_utf8Decode?
    simp only [hChars, Option.get_some, utf8Encode_eq] at hEncode
    exact List.toByteArray_inj.mp hEncode
  · rintro rfl
    exact ⟨text.toArray, List.utf8Decode?_utf8Encode, rfl⟩

theorem utf8_injective {first second : List Char} (h : utf8 first = utf8 second) : first = second := by
  have hFirst := fromUtf8_eq_some.mpr h
  rw [fromUtf8_eq_some.mpr rfl] at hFirst
  exact (Option.some.inj hFirst).symm

/-- A text whose bytes start with those of a character starts with the character. -/
theorem utf8_eq_append {c : Char} {bytes : List UInt8} {text : List Char} (h : String.utf8EncodeChar c ++ bytes = utf8 text) :
    ∃ rest, text = c :: rest ∧ utf8 rest = bytes := by
  have hArray : [c].utf8Encode ++ bytes.toByteArray = text.utf8Encode := by
    rw [List.utf8Encode_singleton, ← List.toByteArray_append, h, utf8Encode_eq]
  obtain ⟨rest, rfl⟩ := List.isPrefix_of_utf8Encode_append_eq_utf8Encode _ hArray
  exact ⟨rest, rfl, (List.append_cancel_left h).symm⟩

/-! ## The bytes of a character -/

/-- How many bits of a byte are set before the first one that is not. -/
def leadingOnes (byte : UInt8) : Nat := ((List.range 8).takeWhile fun i => byte.toNat.testBit (7 - i)).length

theorem leadingOnes_eq : ∀ n < 256, leadingOnes (UInt8.ofNat n) =
    if n < 0x80 then 0 else if n < 0xC0 then 1 else if n < 0xE0 then 2 else if n < 0xF0 then 3 else if n < 0xF8 then 4
    else if n < 0xFC then 5 else if n < 0xFE then 6 else if n < 0xFF then 7 else 8 := by
  decide +kernel

/-- An ASCII character is one byte of its own value; any other has a first byte that counts the bytes, and
bytes after it that cannot come first. -/
theorem utf8EncodeChar_cases (c : Char) :
    (c.toNat < 128 ∧ String.utf8EncodeChar c = [UInt8.ofNat c.toNat]) ∨
    128 ≤ c.toNat ∧ ∃ first rest, String.utf8EncodeChar c = first :: rest ∧ leadingOnes first = rest.length + 1 ∧
      0 < rest.length ∧ rest.length < 4 ∧ ∀ byte ∈ rest, leadingOnes byte = 1 := by
  have hTail : ∀ n, leadingOnes (UInt8.ofNat (n % 0x40 + 0x80)) = 1 := by
    intro n
    rw [leadingOnes_eq _ (by omega), if_neg (by omega), if_pos (by omega)]
  have hLarge : ¬ c.toNat ≤ 0x7F → 128 ≤ c.toNat := by omega
  rw [String.utf8EncodeChar]
  change (_ ∧ (if c.toNat ≤ 0x7F then _ else _) = _) ∨ _ ∧ ∃ first rest, (if c.toNat ≤ 0x7F then _ else _) = _ ∧ _
  split_ifs with hOne hTwo hThree
  · exact .inl ⟨by omega, rfl⟩
  · refine .inr ⟨hLarge hOne, _, _, rfl, ?_, by simp, by simp, ?_⟩
    · rw [leadingOnes_eq _ (by omega), if_neg (by omega), if_neg (by omega), if_pos (by omega)]
      rfl
    · simp only [List.mem_singleton, forall_eq]
      exact hTail _
  · refine .inr ⟨hLarge hOne, _, _, rfl, ?_, by simp, by simp, ?_⟩
    · rw [leadingOnes_eq _ (by omega), if_neg (by omega), if_neg (by omega), if_neg (by omega), if_pos (by omega)]
      rfl
    · simp only [List.mem_cons, List.not_mem_nil, or_false, forall_eq_or_imp, forall_eq]
      exact ⟨hTail _, hTail _⟩
  · refine .inr ⟨hLarge hOne, _, _, rfl, ?_, by simp, by simp, ?_⟩
    · rw [leadingOnes_eq _ (by omega), if_neg (by omega), if_neg (by omega), if_neg (by omega), if_neg (by omega),
        if_pos (by omega)]
      rfl
    · simp only [List.mem_cons, List.not_mem_nil, or_false, forall_eq_or_imp, forall_eq]
      exact ⟨hTail _, hTail _, hTail _⟩

theorem utf8EncodeChar_ascii {c : Char} (h : c.toNat < 128) : String.utf8EncodeChar c = [UInt8.ofNat c.toNat] := by
  obtain ⟨-, hByte⟩ | ⟨hLarge, -⟩ := utf8EncodeChar_cases c
  · exact hByte
  · omega

theorem toNat_ofNat {n : Nat} (h : n < 0xD800) : (Char.ofNat n).toNat = n := by
  have hValid : n.isValidChar := .inl h
  rw [Char.ofNat, dif_pos hValid]
  rfl

theorem toNat_ofNat_ascii {c : Char} (h : c.toNat < 128) : (UInt8.ofNat c.toNat).toNat = c.toNat :=
  Nat.mod_eq_of_lt (by omega)

theorem lt_of_leadingOnes {byte : UInt8} (h : 0 < leadingOnes byte) : 128 ≤ byte.toNat := by
  by_contra hSmall
  have hZero := leadingOnes_eq byte.toNat byte.toNat_lt
  rw [UInt8.ofNat_toNat, if_pos (by omega)] at hZero
  omega

theorem leadingOnes_of_lt {byte : UInt8} (h : byte.toNat < 128) : leadingOnes byte = 0 := by
  by_contra hPos
  have hLarge := lt_of_leadingOnes (Nat.pos_of_ne_zero hPos)
  omega

/-- A test that only ASCII bytes pass is a test of the characters. -/
theorem all_utf8 {p : UInt8 → Bool} (hAscii : ∀ byte, p byte = true → byte.toNat < 128) (text : List Char) :
    (utf8 text).all p = true ↔ ∀ c ∈ text, c.toNat < 128 ∧ p (UInt8.ofNat c.toNat) = true := by
  induction text with
  | nil => simp
  | cons c text ih =>
    rw [utf8_cons, List.all_append, Bool.and_eq_true, ih, List.forall_mem_cons]
    apply and_congr_left
    intro _
    obtain ⟨hSmall, hByte⟩ | ⟨hLarge, first, rest, hBytes, hFirst, -⟩ := utf8EncodeChar_cases c
    · rw [hByte]
      simp [hSmall]
    · rw [hBytes, List.all_cons, Bool.and_eq_true]
      apply iff_of_false
      · rintro ⟨hPass, -⟩
        have hFirstLarge : 128 ≤ first.toNat := lt_of_leadingOnes (by omega)
        have hFirstSmall := hAscii first hPass
        omega
      · rintro ⟨hSmall, -⟩
        omega

theorem byteLen_ascii {text : List Char} (h : ∀ c ∈ text, c.toNat < 128) : byteLen text = text.length := by
  induction text with
  | nil => rfl
  | cons c text ih =>
    obtain ⟨hFirst, hRest⟩ := List.forall_mem_cons.mp h
    have hSize : c.utf8Size = 1 := by
      rw [← String.length_utf8EncodeChar, utf8EncodeChar_ascii hFirst, List.length_singleton]
    rw [byteLen_cons, ih hRest, hSize, List.length_cons, Nat.add_comm]

/-! ## Cutting -/

/-- The two sides of a byte position, if it is between characters. -/
def splitAtByte : List Char → Nat → Option (List Char × List Char)
  | text, 0 => some ([], text)
  | [], _ + 1 => none
  | c :: text, n + 1 =>
    if c.utf8Size ≤ n + 1 then (splitAtByte text (n + 1 - c.utf8Size)).map fun (before, after) => (c :: before, after)
    else none

theorem splitAtByte_eq_some {text before after : List Char} {n : Nat} :
    splitAtByte text n = some (before, after) ↔ before ++ after = text ∧ byteLen before = n := by
  induction text generalizing n before with
  | nil =>
    cases n with
    | zero =>
      rw [splitAtByte, List.append_eq_nil_iff]
      constructor
      · rintro ⟨⟩
        exact ⟨⟨rfl, rfl⟩, rfl⟩
      · rintro ⟨⟨rfl, rfl⟩, -⟩
        rfl
    | succ n =>
      rw [splitAtByte, List.append_eq_nil_iff]
      constructor
      · rintro ⟨⟩
      · rintro ⟨⟨rfl, -⟩, ⟨⟩⟩
  | cons c text ih =>
    have hSize := c.utf8Size_pos
    cases n with
    | zero =>
      rw [splitAtByte]
      constructor
      · rintro ⟨⟩
        exact ⟨rfl, rfl⟩
      · rintro ⟨hText, hLen⟩
        cases before with
        | nil => exact congrArg (fun text => some ([], text)) hText.symm
        | cons d before =>
          have hFirst := d.utf8Size_pos
          rw [byteLen_cons] at hLen
          omega
    | succ n =>
      rw [splitAtByte]
      constructor
      · intro h
        split at h
        · next hFits =>
          obtain ⟨⟨front, back⟩, hSplit, hCut⟩ := Option.map_eq_some_iff.mp h
          cases hCut
          obtain ⟨rfl, hLen⟩ := ih.mp hSplit
          exact ⟨rfl, by rw [byteLen_cons]; omega⟩
        · cases h
      · rintro ⟨hText, hLen⟩
        cases before with
        | nil => cases hLen
        | cons d before =>
          cases hText
          rw [byteLen_cons] at hLen
          rw [if_pos (by omega), ih.mpr ⟨rfl, (by omega : byteLen before = _)⟩]
          rfl

theorem splitAtByte_append (before after : List Char) :
    splitAtByte (before ++ after) (byteLen before) = some (before, after) :=
  splitAtByte_eq_some.mpr ⟨rfl, rfl⟩

end Lib
