import WalletCore.Lib.Utf8
import WalletCore.Sweep.Broadcast
import WalletCore.Wallet.Send

/-! # Texts of the send screen

The operations on texts that the classification is written with. Positions are byte positions, and a cut
that is not between characters stops the program.
-/

namespace WalletCore.Send

open Lib
open Wallet (isWhiteSpace)

/-! ## Cuts -/

/-- What ends a call without an answer. -/
inductive Halt where
  | charBoundary
  | outOfFuel
deriving DecidableEq

abbrev Run := Except Halt

def sliceTo (text : List Char) (n : Nat) : Run (List Char) :=
  match splitAtByte text n with
  | some (before, _) => .ok before
  | none => .error .charBoundary

def sliceFrom (text : List Char) (n : Nat) : Run (List Char) :=
  match splitAtByte text n with
  | some (_, after) => .ok after
  | none => .error .charBoundary

def isCharBoundary (text : List Char) (n : Nat) : Bool := (splitAtByte text n).isSome

@[simp] theorem sliceTo_append (before after : List Char) : sliceTo (before ++ after) (byteLen before) = .ok before := by
  rw [sliceTo, splitAtByte_append]

@[simp] theorem sliceFrom_append (before after : List Char) : sliceFrom (before ++ after) (byteLen before) = .ok after := by
  rw [sliceFrom, splitAtByte_append]

/-- A cut behind a separator of one byte. -/
theorem sliceFrom_cons (before after : List Char) {c : Char} (hc : c.toNat < 128) :
    sliceFrom (before ++ c :: after) (byteLen before + 1) = .ok after := by
  have hSingle : byteLen [c] = 1 := byteLen_ascii (by simpa using hc)
  have hLen : byteLen before + 1 = byteLen (before ++ [c]) := by
    rw [byteLen_append, hSingle]
  rw [hLen, ← List.singleton_append, ← List.append_assoc, sliceFrom_append]

/-! ## Searches -/

def find (p : Char → Bool) : List Char → Option Nat
  | [] => none
  | c :: text => if p c then some 0 else (find p text).map (· + c.utf8Size)

def rfind (p : Char → Bool) : List Char → Option Nat
  | [] => none
  | c :: text =>
    match rfind p text with
    | some n => some (n + c.utf8Size)
    | none => if p c then some 0 else none

def splitOnce (separator : Char) : List Char → Option (List Char × List Char)
  | [] => none
  | c :: text =>
    if c = separator then some ([], text)
    else (splitOnce separator text).map fun (before, after) => (c :: before, after)

def rsplitOnce (separator : Char) : List Char → Option (List Char × List Char)
  | [] => none
  | c :: text =>
    match rsplitOnce separator text with
    | some (before, after) => some (c :: before, after)
    | none => if c = separator then some ([], text) else none

section

variable {text before after : List Char} {separator : Char}

theorem splitOnce_eq_some :
    splitOnce separator text = some (before, after) ↔ text = before ++ separator :: after ∧ separator ∉ before := by
  induction text generalizing before with
  | nil => simp [splitOnce]
  | cons c text ih =>
    rw [splitOnce]
    split
    · next hc =>
      cases hc
      cases before with
      | nil => simp [eq_comm]
      | cons d before =>
        apply iff_of_false
        · rintro ⟨⟩
        · rintro ⟨hText, hNot⟩
          cases hText
          exact hNot List.mem_cons_self
    · next hc =>
      cases before with
      | nil =>
        apply iff_of_false
        · intro h
          obtain ⟨_, -, hCut⟩ := Option.map_eq_some_iff.mp h
          cases hCut
        · rintro ⟨hText, -⟩
          cases hText
          exact hc rfl
      | cons d before =>
        simp only [Option.map_eq_some_iff, Prod.exists, Prod.mk.injEq, List.cons.injEq, List.cons_append, List.mem_cons, not_or]
        constructor
        · rintro ⟨front, back, hSplit, ⟨rfl, rfl⟩, rfl⟩
          obtain ⟨hText, hNot⟩ := ih.mp hSplit
          exact ⟨⟨rfl, hText⟩, Ne.symm hc, hNot⟩
        · rintro ⟨⟨rfl, hText⟩, -, hNot⟩
          exact ⟨before, after, ih.mpr ⟨hText, hNot⟩, ⟨rfl, rfl⟩, rfl⟩

theorem splitOnce_eq_none : splitOnce separator text = none ↔ separator ∉ text := by
  induction text with
  | nil => simp [splitOnce]
  | cons c text ih =>
    rw [splitOnce]
    split
    · next hc => simp [hc]
    · next hc =>
      rw [Option.map_eq_none_iff, ih, List.mem_cons, not_or]
      exact ⟨fun h => ⟨Ne.symm hc, h⟩, And.right⟩

theorem rsplitOnce_eq_none : rsplitOnce separator text = none ↔ separator ∉ text := by
  induction text with
  | nil => simp [rsplitOnce]
  | cons c text ih =>
    rw [rsplitOnce, List.mem_cons, not_or]
    cases hRest : rsplitOnce separator text with
    | some cut =>
      apply iff_of_false
      · rintro ⟨⟩
      · rintro ⟨-, hNot⟩
        rw [ih.mpr hNot] at hRest
        cases hRest
    | none =>
      have hNot := ih.mp hRest
      dsimp only
      split
      · next hc => simp [hc]
      · next hc => exact iff_of_true rfl ⟨Ne.symm hc, hNot⟩

theorem rsplitOnce_eq_some :
    rsplitOnce separator text = some (before, after) ↔ text = before ++ separator :: after ∧ separator ∉ after := by
  induction text generalizing before after with
  | nil => simp [rsplitOnce]
  | cons c text ih =>
    rw [rsplitOnce]
    cases hRest : rsplitOnce separator text with
    | some cut =>
      obtain ⟨front, back⟩ := cut
      obtain ⟨hText, hNot⟩ := ih.mp hRest
      dsimp only
      constructor
      · rintro ⟨⟩
        exact ⟨by rw [hText]; rfl, hNot⟩
      · rintro ⟨hCut, hAfter⟩
        cases before with
        | nil =>
          cases hCut
          rw [hText] at hAfter
          exact absurd (List.mem_append_right _ List.mem_cons_self) hAfter
        | cons d before =>
          cases hCut
          have hSame := ih.mpr ⟨rfl, hAfter⟩
          rw [hRest] at hSame
          cases hSame
          rfl
    | none =>
      have hNone := rsplitOnce_eq_none.mp hRest
      dsimp only
      split
      · next hc =>
        cases hc
        constructor
        · rintro ⟨⟩
          exact ⟨rfl, hNone⟩
        · rintro ⟨hCut, -⟩
          cases before with
          | nil =>
            cases hCut
            rfl
          | cons d before =>
            cases hCut
            exact absurd (List.mem_append_right _ List.mem_cons_self) hNone
      · next hc =>
        apply iff_of_false
        · rintro ⟨⟩
        · rintro ⟨hCut, -⟩
          cases before with
          | nil =>
            cases hCut
            exact hc rfl
          | cons d before =>
            cases hCut
            exact hNone (List.mem_append_right _ List.mem_cons_self)

theorem find_eq : find (· == separator) text = (splitOnce separator text).map fun cut => byteLen cut.1 := by
  induction text with
  | nil => rfl
  | cons c text ih =>
    rw [find, splitOnce]
    split
    · next hc => rw [if_pos (beq_iff_eq.mp hc)]; rfl
    · next hc =>
      rw [if_neg (fun h => hc (beq_iff_eq.mpr h)), ih, Option.map_map, Option.map_map]
      congr 1
      funext cut
      exact (Nat.add_comm _ _).trans (byteLen_cons c cut.1).symm

theorem rfind_eq : rfind (· == separator) text = (rsplitOnce separator text).map fun cut => byteLen cut.1 := by
  induction text with
  | nil => rfl
  | cons c text ih =>
    rw [rfind, rsplitOnce, ih]
    cases rsplitOnce separator text with
    | some cut => exact congrArg some ((Nat.add_comm _ _).trans (byteLen_cons c cut.1).symm)
    | none =>
      dsimp only [Option.map_none]
      split
      · next hc => rw [if_pos (beq_iff_eq.mp hc)]; rfl
      · next hc => rw [if_neg (fun h => hc (beq_iff_eq.mpr h))]; rfl

end

/-! ## Case and spaces -/

def trim (text : List Char) : List Char := ((text.dropWhile isWhiteSpace).reverse.dropWhile isWhiteSpace).reverse

def toLowercase (text : List Char) : List Char := text.flatMap Sweep.lowerChar

def eqIgnoreAsciiCase (first second : List Char) : Bool := first.map Char.toLower = second.map Char.toLower

def stripPrefix : List Char → List Char → Option (List Char)
  | [], text => some text
  | _ :: _, [] => none
  | p :: start, c :: text => if c = p then stripPrefix start text else none

theorem stripPrefix_eq_some {start text rest : List Char} : stripPrefix start text = some rest ↔ text = start ++ rest := by
  induction start generalizing text with
  | nil => simp [stripPrefix]
  | cons p start ih =>
    cases text with
    | nil => simp [stripPrefix]
    | cons c text =>
      rw [stripPrefix]
      split
      · next hc => simp [ih, hc]
      · next hc => simp [hc]

end WalletCore.Send
