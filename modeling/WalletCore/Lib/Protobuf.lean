import Mathlib.Data.List.Basic

/-! # Protocol buffers

A message on the wire is a sequence of numbered fields, each a number of variable length or a string of
bytes with its length. What is written reads back as it was.
-/

namespace Lib.Protobuf

/-! ## Numbers -/

/-- Seven bits to a byte, the low ones first; every byte but the last has its top bit set. -/
def encodeVarint (n : Nat) : List UInt8 :=
  if n < 128 then [.ofNat n] else .ofNat (n % 128 + 128) :: encodeVarint (n / 128)

def decodeVarint : List UInt8 → Option (Nat × List UInt8)
  | [] => none
  | byte :: rest =>
    if byte.toNat < 128 then some (byte.toNat, rest)
    else (decodeVarint rest).map fun (n, rest) => (byte.toNat - 128 + 128 * n, rest)

theorem encodeVarint_ne_nil (n : Nat) : encodeVarint n ≠ [] := by
  rw [encodeVarint]
  split <;> simp

@[simp] theorem decodeVarint_encodeVarint (n : Nat) (rest : List UInt8) :
    decodeVarint (encodeVarint n ++ rest) = some (n, rest) := by
  induction n using Nat.strongRecOn with
  | ind n ih =>
    rw [encodeVarint]
    split
    · next hSmall =>
      have hByte : (UInt8.ofNat n).toNat = n := by
        rw [UInt8.toNat_ofNat']
        omega
      rw [List.singleton_append, decodeVarint, hByte, if_pos hSmall]
    · next hLarge =>
      have hByte : (UInt8.ofNat (n % 128 + 128)).toNat = n % 128 + 128 := by
        rw [UInt8.toNat_ofNat']
        omega
      rw [List.cons_append, decodeVarint, hByte, if_neg (by omega), ih (n / 128) (by omega)]
      refine congrArg some (Prod.ext ?_ rfl)
      change n % 128 + 128 - 128 + 128 * (n / 128) = n
      omega

/-! ## Fields -/

inductive Value where
  | varint (n : Nat)
  | bytes (content : List UInt8)
deriving DecidableEq

/-- The field's number and the kind of its value share the first number. -/
def encodeField : Nat × Value → List UInt8
  | (number, .varint n) => encodeVarint (number * 8) ++ encodeVarint n
  | (number, .bytes content) => encodeVarint (number * 8 + 2) ++ (encodeVarint content.length ++ content)

def decodeField (text : List UInt8) : Option ((Nat × Value) × List UInt8) := do
  let (tag, rest) ← decodeVarint text
  if tag % 8 = 0 then
    let (n, rest) ← decodeVarint rest
    some ((tag / 8, .varint n), rest)
  else if tag % 8 = 2 then
    let (length, rest) ← decodeVarint rest
    if length ≤ rest.length then some ((tag / 8, .bytes (rest.take length)), rest.drop length) else none
  else none

def decodeFields : Nat → List UInt8 → Option (List (Nat × Value))
  | _, [] => some []
  | 0, _ :: _ => none
  | most + 1, text => do
    let (field, rest) ← decodeField text
    let fields ← decodeFields most rest
    some (field :: fields)

def encode (fields : List (Nat × Value)) : List UInt8 := fields.flatMap encodeField

def decode (text : List UInt8) : Option (List (Nat × Value)) := decodeFields text.length text

@[simp] theorem decodeField_encodeField (field : Nat × Value) (rest : List UInt8) :
    decodeField (encodeField field ++ rest) = some (field, rest) := by
  obtain ⟨number, n | content⟩ := field
  · have hKind : number * 8 % 8 = 0 := by omega
    have hNumber : number * 8 / 8 = number := by omega
    simp [encodeField, decodeField, List.append_assoc, hKind, hNumber]
  · have hKind : (number * 8 + 2) % 8 = 2 := by omega
    have hNumber : (number * 8 + 2) / 8 = number := by omega
    simp [encodeField, decodeField, List.append_assoc, hKind, hNumber]

theorem length_encodeField_pos (field : Nat × Value) : 0 < (encodeField field).length := by
  obtain ⟨number, n | content⟩ := field <;>
    exact List.length_pos_of_ne_nil (by simp [encodeField, encodeVarint_ne_nil])

theorem decodeFields_encode (fields : List (Nat × Value)) (most : Nat) (h : (encode fields).length ≤ most) :
    decodeFields most (encode fields) = some fields := by
  induction fields generalizing most with
  | nil => cases most <;> rfl
  | cons field rest ih =>
    have hField := length_encodeField_pos field
    rw [encode, List.flatMap_cons] at h ⊢
    rw [List.length_append] at h
    cases most with
    | zero => omega
    | succ most =>
      obtain ⟨byte, text, hText⟩ := List.exists_cons_of_length_pos hField
      have hRest := ih most (by rw [encode]; omega)
      rw [encode] at hRest
      rw [hText, List.cons_append, decodeFields]
      · rw [← List.cons_append, ← hText, decodeField_encodeField, Option.bind_eq_bind, Option.bind_some]
        dsimp only
        rw [hRest]
        rfl
      · simp

@[simp] theorem decode_encode (fields : List (Nat × Value)) : decode (encode fields) = some fields :=
  decodeFields_encode fields _ (Nat.le_refl _)

/-! ## Messages -/

/-- A field that has its default is left out. -/
def varintField (number n : Nat) : List (Nat × Value) := if n = 0 then [] else [(number, .varint n)]

def bytesField (number : Nat) (content : List UInt8) : List (Nat × Value) :=
  if content = [] then [] else [(number, .bytes content)]

/-- The last value under the number. -/
def last (number : Nat) (fields : List (Nat × Value)) : Option Value :=
  (fields.filter fun field => field.1 == number).getLast?.map Prod.snd

def varintOr (fallback : Nat) : Option Value → Nat
  | some (.varint n) => n
  | _ => fallback

def bytesOr (fallback : List UInt8) : Option Value → List UInt8
  | some (.bytes content) => content
  | _ => fallback

theorem last_append_left {number : Nat} {before after : List (Nat × Value)} (h : ∀ field ∈ after, field.1 ≠ number) :
    last number (before ++ after) = last number before := by
  have hNone : (after.filter fun field => field.1 == number) = [] := by
    rw [List.filter_eq_nil_iff]
    exact fun field hField hSame => h field hField (beq_iff_eq.mp hSame)
  rw [last, last, List.filter_append, hNone, List.append_nil]

theorem last_append_right {number : Nat} {before after : List (Nat × Value)} (h : ∀ field ∈ before, field.1 ≠ number) :
    last number (before ++ after) = last number after := by
  have hNone : (before.filter fun field => field.1 == number) = [] := by
    rw [List.filter_eq_nil_iff]
    exact fun field hField hSame => h field hField (beq_iff_eq.mp hSame)
  rw [last, last, List.filter_append, hNone, List.nil_append]

theorem varintField_number {number n : Nat} : ∀ field ∈ varintField number n, field.1 = number := by
  intro field hField
  rw [varintField] at hField
  split at hField
  · exact absurd hField (by simp)
  · rw [List.mem_singleton.mp hField]

theorem bytesField_number {number : Nat} {content : List UInt8} : ∀ field ∈ bytesField number content, field.1 = number := by
  intro field hField
  rw [bytesField] at hField
  split at hField
  · exact absurd hField (by simp)
  · rw [List.mem_singleton.mp hField]

@[simp] theorem varintOr_last (number n : Nat) : varintOr 0 (last number (varintField number n)) = n := by
  rw [varintField]
  split
  · next hZero => exact hZero.symm
  · simp [last, varintOr]

@[simp] theorem bytesOr_last (number : Nat) (content : List UInt8) :
    bytesOr [] (last number (bytesField number content)) = content := by
  rw [bytesField]
  split
  · next hEmpty => exact hEmpty.symm
  · simp [last, bytesOr]

end Lib.Protobuf
