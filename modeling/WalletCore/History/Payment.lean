import WalletCore.Lib.Json

/-! # Payment rows

One row per payment, stored as a JSON object of its own. Amounts travel as decimal text;
the derived reader takes each known field at most once and ignores the others.
-/

namespace WalletCore.History

open Lib

inductive PaymentDirection where
  | inbound
  | outbound
deriving DecidableEq, Repr

inductive PaymentStatus where
  | pending
  | succeeded
  | failed
deriving DecidableEq, Repr

structure PersistedPayment where
  paymentHash : String
  direction : PaymentDirection
  amountMsat : UInt64
  status : PaymentStatus
  feePaidMsat : Option UInt64
  createdAtMs : UInt64
  failureReason : Option String
deriving DecidableEq

/-! ## The stored form -/

def PaymentDirection.asStr : PaymentDirection → String
  | .inbound => "inbound"
  | .outbound => "outbound"

def PaymentDirection.fromStr : String → Option PaymentDirection
  | "inbound" => some .inbound
  | "outbound" => some .outbound
  | _ => none

def PaymentStatus.asStr : PaymentStatus → String
  | .pending => "pending"
  | .succeeded => "succeeded"
  | .failed => "failed"

def PaymentStatus.fromStr : String → Option PaymentStatus
  | "pending" => some .pending
  | "succeeded" => some .succeeded
  | "failed" => some .failed
  | _ => none

def writeOption {α : Type} (write : α → Json) : Option α → Json
  | some value => write value
  | none => .null

def writeU64 (value : UInt64) : Json := .string (u64ToString value)

def encodeRow (row : PersistedPayment) : Bytes :=
  .ofJson (.object [
    ("paymentHash", .string row.paymentHash),
    ("direction", .string row.direction.asStr),
    ("amountMsat", writeU64 row.amountMsat),
    ("status", .string row.status.asStr),
    ("feePaidMsat", writeOption writeU64 row.feePaidMsat),
    ("createdAt", .ofU64 row.createdAtMs),
    ("failureReason", writeOption .string row.failureReason)])

/-- A unit variant is its name, or an object of that one name. -/
def readVariant {α : Type} (fromStr : String → Option α) : Json → Option α
  | .string name => fromStr name
  | .object [(name, .null)] => fromStr name
  | _ => none

def readU64 : Json → Option UInt64
  | .string text => parseU64 text
  | _ => none

def readOption {α : Type} (read : Json → Option α) : Json → Option (Option α)
  | .null => some none
  | value => (read value).map some

/-- The values of the seven fields; only `failureReason` may be missing. -/
def readRow (paymentHash direction amountMsat status feePaidMsat createdAt : Json) (failureReason : Option Json) :
    Option PersistedPayment := do
  let paymentHash ← paymentHash.asStr
  let direction ← readVariant PaymentDirection.fromStr direction
  let amountMsat ← readU64 amountMsat
  let status ← readVariant PaymentStatus.fromStr status
  let feePaidMsat ← readOption readU64 feePaidMsat
  let createdAtMs ← createdAt.asU64
  let failureReason ← (failureReason.map (readOption Json.asStr)).getD (some none)
  some {
    paymentHash := paymentHash
    direction := direction
    amountMsat := amountMsat
    status := status
    feePaidMsat := feePaidMsat
    createdAtMs := createdAtMs
    failureReason := failureReason }

def field (entries : List (String × Json)) (name : String) : Option (Option Json) :=
  match entries.filter fun entry => entry.1 = name with
  | [] => some none
  | [entry] => some (some entry.2)
  | _ => none

def requiredField (entries : List (String × Json)) (name : String) : Option Json := (field entries name).join

def decodeObject (entries : List (String × Json)) : Option PersistedPayment := do
  let paymentHash ← requiredField entries "paymentHash"
  let direction ← requiredField entries "direction"
  let amountMsat ← requiredField entries "amountMsat"
  let status ← requiredField entries "status"
  let feePaidMsat ← requiredField entries "feePaidMsat"
  let createdAt ← requiredField entries "createdAt"
  let failureReason ← field entries "failureReason"
  readRow paymentHash direction amountMsat status feePaidMsat createdAt failureReason

/-- The derived reader of a struct also takes its fields in order, as an array. -/
def decodeRow (bytes : Bytes) : Option PersistedPayment :=
  match bytes.fromSlice with
  | some (.object entries) => decodeObject entries
  | some (.array [paymentHash, direction, amountMsat, status, feePaidMsat, createdAt, failureReason]) =>
    readRow paymentHash direction amountMsat status feePaidMsat createdAt (some failureReason)
  | _ => none

/-! ## Reading a written row -/

@[simp] theorem direction_fromStr_asStr (d : PaymentDirection) : PaymentDirection.fromStr d.asStr = some d := by
  cases d <;> rfl

@[simp] theorem status_fromStr_asStr (s : PaymentStatus) : PaymentStatus.fromStr s.asStr = some s := by
  cases s <;> rfl

@[simp] theorem readU64_writeU64 (value : UInt64) : readU64 (writeU64 value) = some value :=
  parseU64_u64ToString value

@[simp] theorem readOption_writeU64 (value : Option UInt64) :
    readOption readU64 (writeOption writeU64 value) = some value := by
  cases value with
  | none => rfl
  | some v => exact congrArg (Option.map some) (readU64_writeU64 v)

@[simp] theorem readOption_string (value : Option String) :
    readOption Json.asStr (writeOption .string value) = some value := by
  cases value <;> rfl

theorem decodeRow_encodeRow (row : PersistedPayment) : decodeRow (encodeRow row) = some row := by
  simp [decodeRow, encodeRow, decodeObject, requiredField, field, readRow, readVariant]

end WalletCore.History
