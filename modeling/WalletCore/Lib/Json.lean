import Mathlib.Data.List.Basic
import WalletCore.Lib.StringMap

/-! # JSON values

A value tree with the readers of `serde_json`. Objects keep their entries as a list;
a reader sees them as a map, in which the last entry under a key wins. Unsigned
integers are kept apart from every other number, which is carried as text.
-/

namespace Lib

inductive Number where
  | posInt (value : UInt64)
  | other (text : String)
deriving DecidableEq, Repr

inductive Json where
  | null
  | bool (value : Bool)
  | number (value : Number)
  | string (value : String)
  | array (values : List Json)
  | object (entries : List (String × Json))
deriving Repr, Inhabited

abbrev JsonMap := StringMap Json

namespace Json

mutual
def decEq : (a b : Json) → Decidable (a = b)
  | .null, .null => isTrue rfl
  | .bool a, .bool b => decidable_of_iff (a = b) (by simp)
  | .number a, .number b => decidable_of_iff (a = b) (by simp)
  | .string a, .string b => decidable_of_iff (a = b) (by simp)
  | .array a, .array b =>
    have := decEqList a b
    decidable_of_iff (a = b) (by simp)
  | .object a, .object b =>
    have := decEqEntries a b
    decidable_of_iff (a = b) (by simp)
  | .null, .bool _ | .null, .number _ | .null, .string _ | .null, .array _ | .null, .object _
  | .bool _, .null | .bool _, .number _ | .bool _, .string _ | .bool _, .array _
  | .bool _, .object _ | .number _, .null | .number _, .bool _ | .number _, .string _
  | .number _, .array _ | .number _, .object _ | .string _, .null | .string _, .bool _
  | .string _, .number _ | .string _, .array _ | .string _, .object _ | .array _, .null
  | .array _, .bool _ | .array _, .number _ | .array _, .string _ | .array _, .object _
  | .object _, .null | .object _, .bool _ | .object _, .number _ | .object _, .string _
  | .object _, .array _ => isFalse (by simp)

def decEqList : (a b : List Json) → Decidable (a = b)
  | [], [] => isTrue rfl
  | [], _ :: _ | _ :: _, [] => isFalse (by simp)
  | x :: xs, y :: ys =>
    have := decEq x y
    have := decEqList xs ys
    decidable_of_iff (x = y ∧ xs = ys) (by simp)

def decEqEntries : (a b : List (String × Json)) → Decidable (a = b)
  | [], [] => isTrue rfl
  | [], _ :: _ | _ :: _, [] => isFalse (by simp)
  | (k, x) :: xs, (l, y) :: ys =>
    have := decEq x y
    have := decEqEntries xs ys
    decidable_of_iff (k = l ∧ x = y ∧ xs = ys) (by simp [and_assoc])
end

instance : DecidableEq Json := decEq

def ofU64 (value : UInt64) : Json := .number (.posInt value)

def ofU32 (value : UInt32) : Json := .number (.posInt value.toUInt64)

/-- An object, written in key order. -/
def ofMap (m : JsonMap) : Json := .object m.toPairs

def asObject : Json → Option JsonMap
  | .object entries => some (.ofPairs entries)
  | _ => none

def asArray : Json → Option (List Json)
  | .array values => some values
  | _ => none

def asStr : Json → Option String
  | .string value => some value
  | _ => none

def asU64 : Json → Option UInt64
  | .number (.posInt value) => some value
  | _ => none

@[simp] theorem asObject_ofMap (m : JsonMap) : (ofMap m).asObject = some m := by
  simp [ofMap, asObject]

@[simp] theorem asArray_array (values : List Json) : (array values).asArray = some values := rfl

@[simp] theorem asStr_string (value : String) : (string value).asStr = some value := rfl

@[simp] theorem asU64_ofU64 (value : UInt64) : (ofU64 value).asU64 = some value := rfl

@[simp] theorem asU64_ofU32 (value : UInt32) : (ofU32 value).asU64 = some value.toUInt64 := rfl

end Json

/-! ## Byte strings -/

/-- A byte string, told apart by whether it reads as JSON: `ofJson` is the text of a
value, `raw` is every byte string that is no JSON text. -/
inductive Bytes where
  | ofJson (value : Json)
  | raw (bytes : List UInt8)
deriving DecidableEq

def Bytes.fromSlice : Bytes → Option Json
  | .ofJson value => some value
  | .raw _ => none

@[simp] theorem Bytes.fromSlice_ofJson (value : Json) : (ofJson value).fromSlice = some value := rfl

/-! ## Unsigned integers as text -/

def u64ToString (value : UInt64) : String := Nat.repr value.toNat

/-- Rust's `u64::from_str`: an optional plus sign, then digits, within range. -/
def parseU64 (text : String) : Option UInt64 :=
  let digits := match text.toList with
    | '+' :: rest => rest
    | chars => chars
  if digits ≠ [] ∧ digits.all Char.isDigit then
    let value := Nat.ofDigitChars 10 digits 0
    if value < UInt64.size then some (.ofNat value) else none
  else none

theorem parseU64_u64ToString (value : UInt64) : parseU64 (u64ToString value) = some value := by
  have hDigits : ∀ c ∈ Nat.toDigits 10 value.toNat, c.isDigit = true := fun c hc =>
    Nat.isDigit_of_mem_toDigits (by decide) (by decide) hc
  have hStrip : (match Nat.toDigits 10 value.toNat with
      | '+' :: rest => rest
      | chars => chars) = Nat.toDigits 10 value.toNat := by
    split
    · rename_i rest h
      exact absurd (hDigits '+' (by rw [h]; exact List.mem_cons_self)) (by decide)
    · rfl
  have hAll : (Nat.toDigits 10 value.toNat).all Char.isDigit = true := List.all_eq_true.mpr hDigits
  simp only [parseU64, u64ToString, Nat.toList_repr, hStrip]
  rw [if_pos ⟨Nat.toDigits_ne_nil, hAll⟩, Nat.ofDigitChars_ten_toDigits,
    if_pos value.toNat_lt, UInt64.ofNat_toNat]

theorem u64ToString_ne_empty (value : UInt64) : u64ToString value ≠ "" := Nat.repr_ne_empty

end Lib
