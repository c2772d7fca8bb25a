import WalletCore.Lib.Utf8

/-! # URI components

The decoding of a URI component as ECMAScript defines it: an escaped octet below 128 is a character, and any
other counts the octets of one character, which have to be escaped right after it.
-/

namespace Lib

def hexValue (c : Char) : Option Nat :=
  if '0' ≤ c ∧ c ≤ '9' then some (c.toNat - '0'.toNat)
  else if 'A' ≤ c ∧ c ≤ 'F' then some (c.toNat - 'A'.toNat + 10)
  else if 'a' ≤ c ∧ c ≤ 'f' then some (c.toNat - 'a'.toNat + 10)
  else none

/-- The octet of two hexadecimal digits, and what comes after them. -/
def hexOctet : List Char → Option (UInt8 × List Char)
  | high :: low :: rest =>
    match hexValue high, hexValue low with
    | some high, some low => some (.ofNat (high * 16 + low), rest)
    | _, _ => none
  | _ => none

def continuation : Nat → List Char → Option (List UInt8 × List Char)
  | 0, text => some ([], text)
  | n + 1, c :: text =>
    if c = '%' then
      match hexOctet text with
      | some (octet, rest) => (continuation n rest).map fun (octets, rest) => (octet :: octets, rest)
      | none => none
    else none
  | _ + 1, [] => none

/-- The character that starts behind a percent sign. -/
def escapedChar (text : List Char) : Option (Char × List Char) :=
  match hexOctet text with
  | none => none
  | some (octet, rest) =>
    if leadingOnes octet = 0 then some (.ofNat octet.toNat, rest)
    else if leadingOnes octet = 1 ∨ 4 < leadingOnes octet then none
    else
      match continuation (leadingOnes octet - 1) rest with
      | none => none
      | some (octets, rest) =>
        match fromUtf8 (octet :: octets) with
        | some [c] => some (c, rest)
        | _ => none

theorem hexOctet_length {text rest : List Char} {octet : UInt8} (h : hexOctet text = some (octet, rest)) :
    rest.length < text.length := by
  unfold hexOctet at h
  split at h
  · split at h
    · cases h
      rw [List.length_cons, List.length_cons]
      omega
    · cases h
  · cases h

theorem continuation_length {n : Nat} {text rest : List Char} {octets : List UInt8}
    (h : continuation n text = some (octets, rest)) : rest.length ≤ text.length := by
  induction n generalizing text octets with
  | zero =>
    cases h
    exact Nat.le_refl _
  | succ n ih =>
    cases text with
    | nil => cases h
    | cons c text =>
      rw [continuation] at h
      split at h
      · split at h
        · next octet middle hOctet =>
          obtain ⟨⟨others, last⟩, hOthers, hCut⟩ := Option.map_eq_some_iff.mp h
          cases hCut
          have hFirst := hexOctet_length hOctet
          have hRest := ih hOthers
          rw [List.length_cons]
          omega
        · cases h
      · cases h

theorem escapedChar_length {text rest : List Char} {c : Char} (h : escapedChar text = some (c, rest)) :
    rest.length < text.length := by
  unfold escapedChar at h
  split at h
  · cases h
  · next octet middle hOctet =>
    have hFirst := hexOctet_length hOctet
    split_ifs at h
    · cases h
      exact hFirst
    · split at h
      · cases h
      · next octets last hRest =>
        have hLast := continuation_length hRest
        split at h
        · cases h
          omega
        · cases h

/-- `none` is an error of the URI. -/
def decodeUriComponent : List Char → Option (List Char)
  | [] => some []
  | c :: text =>
    if c = '%' then
      match _hNext : escapedChar text with
      | some (d, rest) => (decodeUriComponent rest).map (d :: ·)
      | none => none
    else (decodeUriComponent text).map (c :: ·)
termination_by text => text.length
decreasing_by
  · have hLength := escapedChar_length _hNext
    simp only [List.length_cons]
    omega
  · simp

theorem decodeUriComponent_escaped {text rest : List Char} {c : Char} (h : escapedChar text = some (c, rest)) :
    decodeUriComponent ('%' :: text) = (decodeUriComponent rest).map (c :: ·) := by
  rw [decodeUriComponent, if_pos rfl]
  split
  · next d other hOther =>
    rw [h] at hOther
    cases hOther
    rfl
  · next hNone =>
    rw [h] at hNone
    cases hNone

theorem decodeUriComponent_broken {text : List Char} (h : escapedChar text = none) :
    decodeUriComponent ('%' :: text) = none := by
  rw [decodeUriComponent, if_pos rfl]
  split
  · next d other hOther =>
    rw [h] at hOther
    cases hOther
  · rfl

theorem decodeUriComponent_plain {c : Char} (h : c ≠ '%') (text : List Char) :
    decodeUriComponent (c :: text) = (decodeUriComponent text).map (c :: ·) := by
  rw [decodeUriComponent, if_neg h]

end Lib
