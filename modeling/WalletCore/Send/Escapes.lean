import WalletCore.Lib.UriComponent
import WalletCore.Send.Classify

/-! # Escaped texts

The decoder takes escapes apart byte by byte and reads the result as UTF-8. This is the decoding of a URI
component: an escaped byte that continues a character can only come from an escape right behind another one.
-/

namespace WalletCore.Send

open Lib

/-! ## Hexadecimal digits -/

theorem hexDigit_table : ∀ n < 128, hexDigit (UInt8.ofNat n) = hexValue (Char.ofNat n) := by decide +kernel

theorem hexDigit_large : ∀ n < 256, 128 ≤ n → hexDigit (UInt8.ofNat n) = none := by decide +kernel

theorem hexDigit_ascii {c : Char} (h : c.toNat < 128) : hexDigit (UInt8.ofNat c.toNat) = hexValue c := by
  rw [hexDigit_table c.toNat h, Char.ofNat_toNat]

theorem hexDigit_eq_none {byte : UInt8} (h : 128 ≤ byte.toNat) : hexDigit byte = none := by
  have hRow := hexDigit_large byte.toNat byte.toNat_lt h
  rw [UInt8.ofNat_toNat] at hRow
  exact hRow

theorem hexValue_eq_none {c : Char} (h : 128 ≤ c.toNat) : hexValue c = none := by
  have hLe : ∀ d : Char, d.toNat < 128 → ¬ c ≤ d := by
    intro d hd hle
    rw [Char.le_def, UInt32.le_iff_toNat_le] at hle
    change c.toNat ≤ d.toNat at hle
    omega
  rw [hexValue, if_neg (fun hc => hLe '9' (by decide) hc.2), if_neg (fun hc => hLe 'F' (by decide) hc.2),
    if_neg (fun hc => hLe 'f' (by decide) hc.2)]

/-! ## One escape -/

theorem percentBytes_cons {byte : UInt8} (h : byte ≠ 0x25) (rest : List UInt8) :
    percentBytes (byte :: rest) = (percentBytes rest).map (byte :: ·) := by
  conv_lhs => unfold percentBytes
  rw [if_neg h]

theorem percentBytes_octet (high low : UInt8) (rest : List UInt8) :
    percentBytes (0x25 :: high :: low :: rest) =
      (hexDigit high).bind fun high => (hexDigit low).bind fun low =>
        (percentBytes rest).map (UInt8.ofNat (high * 16 + low) :: ·) := by
  conv_lhs => unfold percentBytes
  rw [if_pos rfl]
  simp only [Option.bind_eq_bind, Option.map_eq_bind]
  rfl

theorem percentBytes_half (high : UInt8) : percentBytes [0x25, high] = none := rfl

theorem percentBytes_append {front : List UInt8} (h : ∀ byte ∈ front, byte ≠ 0x25) (rest : List UInt8) :
    percentBytes (front ++ rest) = (percentBytes rest).map (front ++ ·) := by
  induction front with
  | nil => simp
  | cons byte front ih =>
    obtain ⟨hFirst, hFront⟩ := List.forall_mem_cons.mp h
    rw [List.cons_append, percentBytes_cons hFirst, ih hFront, Option.map_map]
    rfl

theorem ne_percent {c : Char} (h : c ≠ '%') : ∀ byte ∈ String.utf8EncodeChar c, byte ≠ 0x25 := by
  intro byte hByte hPercent
  rw [hPercent] at hByte
  obtain ⟨hSmall, hBytes⟩ | ⟨hLarge, first, rest, hBytes, hFirst, -, -, hRest⟩ := utf8EncodeChar_cases c
  · rw [hBytes, List.mem_singleton, ← UInt8.toNat_inj, toNat_ofNat_ascii hSmall] at hByte
    apply h
    rw [← Char.ofNat_toNat c, ← hByte]
    rfl
  · have hZero : leadingOnes 0x25 = 0 := by decide
    rw [hBytes] at hByte
    obtain rfl | hTail := List.mem_cons.mp hByte
    · omega
    · have hOne := hRest _ hTail
      omega

theorem percentBytes_broken {high : UInt8} (h : hexDigit high = none) (rest : List UInt8) :
    percentBytes (0x25 :: high :: rest) = none := by
  cases rest with
  | nil => exact percentBytes_half high
  | cons low rest => rw [percentBytes_octet, h, Option.bind_none]

theorem percentBytes_hexOctet (text : List Char) :
    percentBytes (0x25 :: utf8 text) =
      (hexOctet text).bind fun (octet, rest) => (percentBytes (utf8 rest)).map (octet :: ·) := by
  have hNoDigit : ∀ {c : Char} {byte : UInt8} {others : List UInt8}, 128 ≤ c.toNat →
      leadingOnes byte = others.length + 1 → hexDigit byte = none ∧ hexValue c = none := by
    intro c byte others hLarge hOnes
    exact ⟨hexDigit_eq_none (lt_of_leadingOnes (by omega)), hexValue_eq_none hLarge⟩
  cases text with
  | nil => rfl
  | cons high text =>
    rw [utf8_cons]
    obtain ⟨hHigh, hHighByte⟩ | ⟨hLarge, first, others, hBytes, hOnes, -⟩ := utf8EncodeChar_cases high
    · rw [hHighByte]
      cases text with
      | nil => rfl
      | cons low rest =>
        rw [utf8_cons]
        obtain ⟨hLow, hLowByte⟩ | ⟨hLarge, first, others, hBytes, hOnes, -⟩ := utf8EncodeChar_cases low
        · rw [hLowByte]
          change percentBytes (0x25 :: _ :: _ :: utf8 rest) = _
          rw [percentBytes_octet, hexDigit_ascii hHigh, hexDigit_ascii hLow, hexOctet]
          cases hexValue high with
          | none => rfl
          | some high =>
            cases hexValue low with
            | none => rfl
            | some low => rfl
        · obtain ⟨hDigit, hValue⟩ := hNoDigit hLarge hOnes
          rw [hBytes, hexOctet, hValue]
          change percentBytes (0x25 :: _ :: first :: (others ++ utf8 rest)) = _
          rw [percentBytes_octet, hDigit, hexDigit_ascii hHigh]
          cases hexValue high with
          | none => rfl
          | some high => rfl
    · obtain ⟨hDigit, hValue⟩ := hNoDigit hLarge hOnes
      rw [hBytes]
      change percentBytes (0x25 :: first :: (others ++ utf8 text)) = _
      rw [percentBytes_broken hDigit]
      cases text with
      | nil => rfl
      | cons low rest =>
        rw [hexOctet, hValue]
        rfl

/-! ## Characters out of bytes -/

theorem lt_of_leadingOnes_zero {byte : UInt8} (h : leadingOnes byte = 0) : byte.toNat < 128 := by
  by_contra hLarge
  have hOnes := leadingOnes_eq byte.toNat byte.toNat_lt
  rw [UInt8.ofNat_toNat, h, if_neg (by omega)] at hOnes
  split_ifs at hOnes

theorem utf8_eq_small {octet : UInt8} {bytes : List UInt8} {text : List Char} (hZero : leadingOnes octet = 0) :
    utf8 text = octet :: bytes ↔ ∃ rest, text = .ofNat octet.toNat :: rest ∧ utf8 rest = bytes := by
  have hSmall := lt_of_leadingOnes_zero hZero
  have hSame : (Char.ofNat octet.toNat).toNat = octet.toNat := toNat_ofNat (by omega)
  have hByte : String.utf8EncodeChar (.ofNat octet.toNat) = [octet] := by
    rw [utf8EncodeChar_ascii (by rw [hSame]; exact hSmall), hSame, UInt8.ofNat_toNat]
  constructor
  · intro hText
    cases text with
    | nil => cases hText
    | cons c rest =>
      rw [utf8_cons] at hText
      obtain ⟨hc, hBytes⟩ | ⟨-, first, others, hBytes, hOnes, -⟩ := utf8EncodeChar_cases c
      · rw [hBytes] at hText
        obtain ⟨rfl, hRest⟩ := List.cons.inj hText
        rw [toNat_ofNat_ascii hc, Char.ofNat_toNat]
        exact ⟨rest, rfl, hRest⟩
      · rw [hBytes] at hText
        obtain ⟨rfl, -⟩ := List.cons.inj hText
        omega
  · rintro ⟨rest, rfl, rfl⟩
    rw [utf8_cons, hByte]
    rfl

/-- Otherwise the first byte counts the bytes of the first character. -/
theorem utf8_eq_large {octet : UInt8} {bytes : List UInt8} {text : List Char} (hText : utf8 text = octet :: bytes)
    (hPos : leadingOnes octet ≠ 0) : ∃ c rest others, text = c :: rest ∧ String.utf8EncodeChar c = octet :: others ∧
      leadingOnes octet = others.length + 1 ∧ 0 < others.length ∧ others.length < 4 ∧
      (∀ byte ∈ others, leadingOnes byte = 1) ∧ bytes = others ++ utf8 rest := by
  cases text with
  | nil => cases hText
  | cons c rest =>
    rw [utf8_cons] at hText
    obtain ⟨hc, hBytes⟩ | ⟨-, first, others, hBytes, hOnes, hLength, hShort, hOthers⟩ := utf8EncodeChar_cases c
    · rw [hBytes] at hText
      obtain ⟨rfl, -⟩ := List.cons.inj hText
      have hZero : leadingOnes (UInt8.ofNat c.toNat) = 0 := leadingOnes_of_lt (by rw [toNat_ofNat_ascii hc]; exact hc)
      exact absurd hZero hPos
    · rw [hBytes] at hText
      obtain ⟨rfl, hRest⟩ := List.cons.inj hText
      exact ⟨c, rest, others, rfl, hBytes, hOnes, hLength, hShort, hOthers, hRest.symm⟩

/-! ## Continuations -/

theorem percentBytes_continuation {n : Nat} {text rest : List Char} {octets : List UInt8}
    (h : continuation n text = some (octets, rest)) :
    percentBytes (utf8 text) = (percentBytes (utf8 rest)).map (octets ++ ·) := by
  induction n generalizing text octets with
  | zero =>
    cases h
    exact Option.map_id'.symm
  | succ n ih =>
    cases text with
    | nil => cases h
    | cons c text =>
      rw [continuation] at h
      split at h
      · next hc =>
        subst hc
        split at h
        · next octet middle hOctet =>
          obtain ⟨⟨others, last⟩, hOthers, hCut⟩ := Option.map_eq_some_iff.mp h
          cases hCut
          change percentBytes (0x25 :: utf8 text) = _
          rw [percentBytes_hexOctet, hOctet, Option.bind_some]
          dsimp only
          rw [ih hOthers, Option.map_map]
          rfl
        · cases h
      · cases h

/-- Bytes that continue a character come from escapes, one behind the other. -/
theorem continuation_of_percentBytes {octets more : List UInt8} {text : List Char}
    (hOctets : ∀ byte ∈ octets, leadingOnes byte = 1) (h : percentBytes (utf8 text) = some (octets ++ more)) :
    ∃ rest, continuation octets.length text = some (octets, rest) ∧ percentBytes (utf8 rest) = some more := by
  induction octets generalizing text with
  | nil => exact ⟨text, rfl, h⟩
  | cons octet octets ih =>
    obtain ⟨hFirst, hRest⟩ := List.forall_mem_cons.mp hOctets
    cases text with
    | nil => cases h
    | cons c text =>
      by_cases hc : c = '%'
      · subst hc
        change percentBytes (0x25 :: utf8 text) = _ at h
        rw [percentBytes_hexOctet] at h
        obtain ⟨⟨first, middle⟩, hOctet, h⟩ := Option.bind_eq_some_iff.mp h
        obtain ⟨bytes, hBytes, hCut⟩ := Option.map_eq_some_iff.mp h
        obtain ⟨rfl, rfl⟩ := List.cons.inj hCut
        obtain ⟨rest, hContinuation, hMore⟩ := ih hRest hBytes
        refine ⟨rest, ?_, hMore⟩
        rw [List.length_cons, continuation, if_pos rfl, hOctet]
        dsimp only
        rw [hContinuation]
        rfl
      · -- a character that is not escaped has no first byte that continues another
        rw [utf8_cons, percentBytes_append (ne_percent hc)] at h
        obtain ⟨bytes, -, hCut⟩ := Option.map_eq_some_iff.mp h
        obtain ⟨hSmall, hByte⟩ | ⟨-, first, others, hByte, hOnes, hLength, -⟩ := utf8EncodeChar_cases c
        · rw [hByte] at hCut
          obtain ⟨rfl, -⟩ := List.cons.inj hCut
          rw [leadingOnes_of_lt (by rw [toNat_ofNat_ascii hSmall]; exact hSmall)] at hFirst
          cases hFirst
        · rw [hByte] at hCut
          obtain ⟨rfl, -⟩ := List.cons.inj hCut
          omega

/-! ## Decoding -/

theorem escapedChar_eq {text rest : List Char} {octet : UInt8} (hOctet : hexOctet text = some (octet, rest)) :
    escapedChar text =
      if leadingOnes octet = 0 then some (.ofNat octet.toNat, rest)
      else if leadingOnes octet = 1 ∨ 4 < leadingOnes octet then none
      else
        match continuation (leadingOnes octet - 1) rest with
        | none => none
        | some (octets, rest) =>
          match fromUtf8 (octet :: octets) with
          | some [c] => some (c, rest)
          | _ => none := by
  rewrite [escapedChar, hOctet]
  rfl

/-- What is left behind an octet decodes to the bytes of a text exactly if a character can be read there. -/
theorem percentBytes_escape {text rest decoded : List Char} {octet : UInt8}
    (hOctet : hexOctet text = some (octet, rest)) :
    percentBytes (0x25 :: utf8 text) = some (utf8 decoded) ↔
      ∃ c left others, escapedChar text = some (c, left) ∧ decoded = c :: others ∧
        percentBytes (utf8 left) = some (utf8 others) := by
  rw [percentBytes_hexOctet, hOctet, Option.bind_some]
  dsimp only
  rw [escapedChar_eq hOctet, Option.map_eq_some_iff]
  by_cases hZero : leadingOnes octet = 0
  · rw [if_pos hZero]
    constructor
    · rintro ⟨bytes, hBytes, hText⟩
      obtain ⟨others, rfl, rfl⟩ := (utf8_eq_small hZero).mp hText.symm
      exact ⟨_, rest, others, rfl, rfl, hBytes⟩
    · rintro ⟨_, _, others, ⟨⟩, rfl, hBytes⟩
      exact ⟨_, hBytes, ((utf8_eq_small hZero).mpr ⟨others, rfl, rfl⟩).symm⟩
  · rw [if_neg hZero]
    constructor
    · rintro ⟨bytes, hBytes, hText⟩
      obtain ⟨c, others, octets, rfl, hChar, hOnes, hPos, hShort, hOctets, rfl⟩ := utf8_eq_large hText.symm hZero
      obtain ⟨left, hContinuation, hLeft⟩ := continuation_of_percentBytes hOctets hBytes
      have hSingle : fromUtf8 (octet :: octets) = some [c] := by
        rw [fromUtf8_eq_some, utf8_cons, hChar, utf8_nil, List.append_nil]
      have hCount : leadingOnes octet - 1 = octets.length := by omega
      refine ⟨c, left, others, ?_, rfl, hLeft⟩
      rw [if_neg (by omega), hCount, hContinuation]
      dsimp only
      rw [hSingle]
    · rintro ⟨c, left, others, hEscaped, rfl, hLeft⟩
      split_ifs at hEscaped
      split at hEscaped
      · cases hEscaped
      · next octets middle hContinuation =>
        split at hEscaped
        · next d hSingle =>
          cases hEscaped
          rw [fromUtf8_eq_some, utf8_cons, utf8_nil, List.append_nil] at hSingle
          refine ⟨octets ++ utf8 others, ?_, ?_⟩
          · rw [percentBytes_continuation hContinuation, hLeft]
            rfl
          · rw [utf8_cons, hSingle]
            rfl
        · cases hEscaped

/-- The decoder and the standard give the same text, by induction on how much is left. -/
theorem percentBytes_iff (text decoded : List Char) :
    percentBytes (utf8 text) = some (utf8 decoded) ↔ decodeUriComponent text = some decoded := by
  induction hLength : text.length using Nat.strong_induction_on generalizing text decoded with
  | _ n ih =>
    subst hLength
    cases text with
    | nil =>
      rw [decodeUriComponent]
      constructor
      · intro h
        rw [show decoded = [] from utf8_injective (Option.some.inj h).symm]
      · rintro ⟨⟩
        rfl
    | cons c text =>
      by_cases hc : c = '%'
      · subst hc
        change percentBytes (0x25 :: utf8 text) = _ ↔ _
        cases hOctet : hexOctet text with
        | none =>
          have hNone : escapedChar text = none := by rw [escapedChar, hOctet]
          rw [percentBytes_hexOctet, hOctet, decodeUriComponent_broken hNone]
          apply iff_of_false
          · rintro ⟨⟩
          · rintro ⟨⟩
        | some octet =>
          rw [percentBytes_escape hOctet]
          cases hEscaped : escapedChar text with
          | none =>
            rw [decodeUriComponent_broken hEscaped]
            apply iff_of_false
            · rintro ⟨_, _, _, ⟨⟩, -⟩
            · rintro ⟨⟩
          | some next =>
            obtain ⟨d, left⟩ := next
            have hShorter := escapedChar_length hEscaped
            rw [decodeUriComponent_escaped hEscaped, Option.map_eq_some_iff]
            constructor
            · rintro ⟨_, _, others, ⟨⟩, rfl, hLeft⟩
              exact ⟨others, (ih left.length (by simp; omega) left others rfl).mp hLeft, rfl⟩
            · rintro ⟨others, hLeft, rfl⟩
              exact ⟨d, left, others, rfl, rfl, (ih left.length (by simp; omega) left others rfl).mpr hLeft⟩
      · rw [utf8_cons, percentBytes_append (ne_percent hc), decodeUriComponent_plain hc, Option.map_eq_some_iff,
          Option.map_eq_some_iff]
        constructor
        · rintro ⟨bytes, hBytes, hText⟩
          obtain ⟨others, rfl, rfl⟩ := utf8_eq_append hText
          exact ⟨others, (ih text.length (by simp) text others rfl).mp hBytes, rfl⟩
        · rintro ⟨others, hOthers, rfl⟩
          exact ⟨_, (ih text.length (by simp) text others rfl).mpr hOthers, rfl⟩

theorem percentDecode_eq (text : List Char) : percentDecode text = decodeUriComponent text := by
  apply Option.ext
  intro decoded
  rw [← percentBytes_iff, percentDecode, Option.bind_eq_some_iff]
  constructor
  · rintro ⟨bytes, hBytes, hText⟩
    rw [hBytes, fromUtf8_eq_some.mp hText]
  · intro h
    exact ⟨_, h, fromUtf8_eq_some.mpr rfl⟩

end WalletCore.Send
