import WalletCore.Send.Letters

/-! # Receive URIs

What the receive screen shows is a URI of an address, an amount, an invoice and an offer, and its QR form is
that URI in capitals.
-/

namespace WalletCore.Receive

open Lib Send
open Wallet (isWhiteSpace)

/-- Eight decimals, none of them trimmed. -/
def satsToBtcString (sats : UInt64) : List Char :=
  let whole := sats.toNat / 100000000
  let frac := sats.toNat % 100000000
  Nat.toDigits 10 whole ++ '.' :: (Nat.toDigits 10 frac).leftpad 8 '0'

/-- Only ASCII has a case here: an address, an invoice or an offer has no other letters. -/
def toUppercase (text : List Char) : List Char := text.map Char.toUpper

def buildBip321UriParts (address : Option (List Char)) (amountSats : Option UInt64) (invoice lno : Option (List Char)) :
    List Char :=
  let base := match address.filter (· ≠ []) with
    | some address => "bitcoin:".toList ++ toUppercase address
    | none => "bitcoin:".toList
  let params :=
    ((amountSats.filter (0 < ·)).map fun amount => "amount=".toList ++ satsToBtcString amount).toList ++
    ((invoice.filter (· ≠ [])).map fun invoice => "lightning=".toList ++ invoice).toList ++
    ((lno.filter (· ≠ [])).map fun lno => "lno=".toList ++ lno).toList
  if params = [] then base else base ++ '?' :: ['&'].intercalate params

def buildBip321Uri (address : List Char) (amountSats : Option UInt64) (invoice : Option (List Char)) : List Char :=
  buildBip321UriParts (some address) amountSats invoice none

def buildBolt12PageUri (offer : List Char) : List Char := buildBip321UriParts none none none (some offer)

/-! ## Amounts -/

theorem toDigits_digits {n : Nat} : ∀ c ∈ Nat.toDigits 10 n, c ∈ digits :=
  fun _ hc => isDigit_iff.mp (Nat.isDigit_of_mem_toDigits (by decide) (by decide) hc)

theorem satsDigits (n : Nat) :
    (∀ c ∈ (Nat.toDigits 10 n).leftpad 8 '0', c ∈ digits) ∧ digitsValue ((Nat.toDigits 10 n).leftpad 8 '0') = n := by
  constructor
  · intro c hc
    obtain hZero | hDigit := List.mem_append.mp hc
    · rw [(List.mem_replicate.mp hZero).2]
      decide
    · exact toDigits_digits c hDigit
  · rw [List.leftpad, digitsValue_append]
    have hZeros : ∀ m, digitsValue (List.replicate m '0') = 0 := by
      intro m
      rw [digitsValue, Nat.ofDigitChars_replicate_zero, Nat.mul_zero]
    rw [hZeros, Nat.zero_mul, Nat.zero_add, digitsValue, Nat.ofDigitChars_ten_toDigits]

theorem satsDigits_length {n : Nat} (h : n < 100000000) : ((Nat.toDigits 10 n).leftpad 8 '0').length = 8 := by
  have hShort : (Nat.toDigits 10 n).length ≤ 8 := (Nat.length_toDigits_le_iff (by decide) (by decide)).mpr h
  rw [List.length_leftpad, Nat.max_eq_left hShort]

theorem satsToBtcString_parts (sats : UInt64) : decimalParts (satsToBtcString sats) =
    (Nat.toDigits 10 (sats.toNat / 100000000), (Nat.toDigits 10 (sats.toNat % 100000000)).leftpad 8 '0') := by
  have hPoint : '.' ∉ Nat.toDigits 10 (sats.toNat / 100000000) := by
    intro hMem
    exact absurd (toDigits_digits _ hMem) (by decide)
  rw [decimalParts, satsToBtcString, splitOnce_eq_some.mpr ⟨rfl, hPoint⟩, Option.getD_some]

theorem satsToBtcString_letters (sats : UInt64) : ∀ c ∈ satsToBtcString sats, c ∈ '.' :: digits := by
  intro c hc
  obtain hWhole | hRest := List.mem_append.mp hc
  · exact List.mem_cons_of_mem _ (toDigits_digits c hWhole)
  · obtain rfl | hFrac := List.mem_cons.mp hRest
    · exact List.mem_cons_self
    · exact List.mem_cons_of_mem _ ((satsDigits _).1 c hFrac)

theorem satsToBtcString_grammar (sats : UInt64) : satsToBtcString sats ∈ decimalGrammar.matches' := by
  rw [mem_decimalGrammar, satsToBtcString_parts]
  have hLength := satsDigits_length (Nat.mod_lt sats.toNat (by decide : 0 < 100000000))
  constructor
  · exact ⟨Nat.toDigits_ne_nil, toDigits_digits⟩
  · intro _
    constructor
    · exact List.ne_nil_of_length_eq_add_one hLength
    · exact (satsDigits _).1

/-! ## Amounts read back -/

theorem decimal_notSpace : ∀ c ∈ '.' :: digits, isWhiteSpace c = false := by decide

/-- Every amount is read back from how it is written. -/
theorem btcStringToSats_satsToBtcString (sats : UInt64) : btcStringToSats (satsToBtcString sats) = .ok (some sats) := by
  have hTrim : trim (satsToBtcString sats) = satsToBtcString sats :=
    (Tight.of_all fun c hc => decimal_notSpace c (satsToBtcString_letters sats c hc)).trim_eq
  have hGrammar := satsToBtcString_grammar sats
  have hFloor := floor_decimalValue (satsToBtcString sats)
  obtain ⟨result, hResult, hSats⟩ := btcStringToSats_iff (satsToBtcString sats)
  rw [hResult]
  apply congrArg Except.ok
  rw [hSats, hTrim]
  constructor
  · exact hGrammar
  · rw [hFloor, satsToBtcString_parts]
    have hLength := satsDigits_length (Nat.mod_lt sats.toNat (by decide : 0 < 100000000))
    have hScale : 10 ^ 8 = 100000000 := rfl
    simp only [hLength, (satsDigits _).2, hScale]
    rw [digitsValue, Nat.ofDigitChars_ten_toDigits, Nat.mul_div_cancel _ (by decide), Nat.div_add_mod']

/-! ## Capitals -/

/-- A way to write a text in other letters: only their case changes. -/
def KeepsLetters (form : Char → Char) : Prop := ∀ c, (form c).toLower = c.toLower

theorem toUpper_keepsLetters : KeepsLetters Char.toUpper := by
  have hTable : ∀ n < 128, (Char.ofNat n).toUpper.toLower = (Char.ofNat n).toLower := by decide +kernel
  intro c
  obtain hSmall | hLarge : c.toNat < 128 ∨ 128 ≤ c.toNat := by omega
  · simpa only [Char.ofNat_toNat] using hTable c.toNat hSmall
  · rw [(caseless_of_range (by omega)).2]

section

variable {form : Char → Char} (hForm : KeepsLetters form)

include hForm

theorem form_caseless {c : Char} (hc : Caseless c) : form c = c := eq_of_toLower (hForm c) hc

theorem mem_map_form {c : Char} {text : List Char} (hc : Caseless c) : c ∈ text.map form ↔ c ∈ text := by
  rw [List.mem_map]
  constructor
  · rintro ⟨d, hd, rfl⟩
    rwa [← eq_of_toLower (hForm d).symm hc]
  · intro hMem
    exact ⟨c, hMem, form_caseless hForm hc⟩

theorem map_form_caseless {text : List Char} (h : ∀ c ∈ text, Caseless c) : text.map form = text := by
  conv_rhs => rw [← List.map_id text]
  exact List.map_congr_left fun c hc => form_caseless hForm (h c hc)

end

end WalletCore.Receive
