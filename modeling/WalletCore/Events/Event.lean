import WalletCore.History.Payment

/-! # Wallet events

The public events and their stored form. The derived writer tags a variant by its name: a
unit variant is that name alone, a struct variant an object of its fields under it.
-/

namespace WalletCore.Events

open Lib History

inductive Event where
  | nodeStarted
  | nodeStopped
  | syncFailed
  | syncCompleted
  | invoiceReady (bolt11 : String) (expiryUnixSecs : UInt64)
  | paymentReceived (paymentHash : String) (amountMsat : UInt64) (skimmedFeeMsat : Option UInt64)
  | paymentSuccessful (paymentHash : String) (feePaidMsat : Option UInt64)
  | paymentFailed (paymentHash : Option String) (reason : String)
  | channelPending (channelId : String)
  | channelReady (channelId : String)
  | channelClosed (channelId reason : String)
  | lsps2Failed (reason : String)
  | backupDegraded (detail : String)
  | fenced (detail : String)
  | sweepStateChanged
  | recoveryStateChanged
  | onchainStateChanged
  | restoreProgress (step : String)
deriving DecidableEq

/-- What the node's parts report. -/
inductive CoreEvent where
  | chainSyncCompleted
  | chainSyncFailed
  | invoiceReady (bolt11 : String) (expiryUnixSecs : UInt64)
  | paymentReceived (paymentHash : String) (amountMsat : UInt64) (skimmedFeeMsat : Option UInt64)
  | channelPending (channelId : String)
  | channelReady (channelId : String)
  | channelClosed (channelId reason : String)
  | lsps2Failed (reason : String)
  | paymentSuccessful (paymentHash : String) (feePaidMsat : Option UInt64)
  | paymentFailed (paymentHash : Option String) (reason : String)
  | backupDegraded (detail : String)
  | fenced (detail : String)
  | sweepStateChanged
  | recoveryStateChanged
  | onchainStateChanged
  | restoreProgress (step : String)
deriving DecidableEq

def CoreEvent.toEvent : CoreEvent → Event
  | .chainSyncCompleted => .syncCompleted
  | .chainSyncFailed => .syncFailed
  | .invoiceReady bolt11 expiryUnixSecs => .invoiceReady bolt11 expiryUnixSecs
  | .paymentReceived paymentHash amountMsat skimmedFeeMsat => .paymentReceived paymentHash amountMsat skimmedFeeMsat
  | .channelPending channelId => .channelPending channelId
  | .channelReady channelId => .channelReady channelId
  | .channelClosed channelId reason => .channelClosed channelId reason
  | .lsps2Failed reason => .lsps2Failed reason
  | .paymentSuccessful paymentHash feePaidMsat => .paymentSuccessful paymentHash feePaidMsat
  | .paymentFailed paymentHash reason => .paymentFailed paymentHash reason
  | .backupDegraded detail => .backupDegraded detail
  | .fenced detail => .fenced detail
  | .sweepStateChanged => .sweepStateChanged
  | .recoveryStateChanged => .recoveryStateChanged
  | .onchainStateChanged => .onchainStateChanged
  | .restoreProgress step => .restoreProgress step

/-! ## The stored form -/

def structVariant (name : String) (fields : List (String × Json)) : Json := .object [(name, .object fields)]

def encodeEvent : Event → Json
  | .nodeStarted => .string "NodeStarted"
  | .nodeStopped => .string "NodeStopped"
  | .syncFailed => .string "SyncFailed"
  | .syncCompleted => .string "SyncCompleted"
  | .invoiceReady bolt11 expiryUnixSecs =>
    structVariant "InvoiceReady" [("bolt11", .string bolt11), ("expiry_unix_secs", .ofU64 expiryUnixSecs)]
  | .paymentReceived paymentHash amountMsat skimmedFeeMsat =>
    structVariant "PaymentReceived" [("payment_hash", .string paymentHash), ("amount_msat", .ofU64 amountMsat),
      ("skimmed_fee_msat", writeOption .ofU64 skimmedFeeMsat)]
  | .paymentSuccessful paymentHash feePaidMsat =>
    structVariant "PaymentSuccessful" [("payment_hash", .string paymentHash),
      ("fee_paid_msat", writeOption .ofU64 feePaidMsat)]
  | .paymentFailed paymentHash reason =>
    structVariant "PaymentFailed" [("payment_hash", writeOption .string paymentHash), ("reason", .string reason)]
  | .channelPending channelId => structVariant "ChannelPending" [("channel_id", .string channelId)]
  | .channelReady channelId => structVariant "ChannelReady" [("channel_id", .string channelId)]
  | .channelClosed channelId reason =>
    structVariant "ChannelClosed" [("channel_id", .string channelId), ("reason", .string reason)]
  | .lsps2Failed reason => structVariant "Lsps2Failed" [("reason", .string reason)]
  | .backupDegraded detail => structVariant "BackupDegraded" [("detail", .string detail)]
  | .fenced detail => structVariant "Fenced" [("detail", .string detail)]
  | .sweepStateChanged => .string "SweepStateChanged"
  | .recoveryStateChanged => .string "RecoveryStateChanged"
  | .onchainStateChanged => .string "OnchainStateChanged"
  | .restoreProgress step => structVariant "RestoreProgress" [("step", .string step)]

def unitVariant : String → Option Event
  | "NodeStarted" => some .nodeStarted
  | "NodeStopped" => some .nodeStopped
  | "SyncFailed" => some .syncFailed
  | "SyncCompleted" => some .syncCompleted
  | "SweepStateChanged" => some .sweepStateChanged
  | "RecoveryStateChanged" => some .recoveryStateChanged
  | "OnchainStateChanged" => some .onchainStateChanged
  | _ => none

def requiredStr (value : Option Json) : Option String := value.bind Json.asStr

def requiredU64 (value : Option Json) : Option UInt64 := value.bind Json.asU64

def optional {α : Type} (read : Json → Option α) (value : Option Json) : Option (Option α) :=
  (value.map (readOption read)).getD (some none)

/-- The fields of a struct variant by name, or in order from an array. -/
def structFields (names : List String) : Json → Option (List (Option Json))
  | .object entries => names.mapM (field entries)
  | .array values => if values.length = names.length then some (values.map some) else none
  | _ => none

def readOne {α : Type} (name : String) (build : Option Json → Option α) (content : Json) : Option α :=
  match structFields [name] content with
  | some [value] => build value
  | _ => none

def readTwo {α : Type} (first second : String) (build : Option Json → Option Json → Option α) (content : Json) :
    Option α :=
  match structFields [first, second] content with
  | some [a, b] => build a b
  | _ => none

def readThree {α : Type} (first second third : String)
    (build : Option Json → Option Json → Option Json → Option α) (content : Json) : Option α :=
  match structFields [first, second, third] content with
  | some [a, b, c] => build a b c
  | _ => none

def readStruct (name : String) (content : Json) : Option Event :=
  match name with
  | "InvoiceReady" => content |> readTwo "bolt11" "expiry_unix_secs" fun bolt11 expiryUnixSecs =>
    return .invoiceReady (← requiredStr bolt11) (← requiredU64 expiryUnixSecs)
  | "PaymentReceived" => content |> readThree "payment_hash" "amount_msat" "skimmed_fee_msat"
      fun paymentHash amountMsat skimmedFeeMsat =>
    return .paymentReceived (← requiredStr paymentHash) (← requiredU64 amountMsat)
      (← optional Json.asU64 skimmedFeeMsat)
  | "PaymentSuccessful" => content |> readTwo "payment_hash" "fee_paid_msat" fun paymentHash feePaidMsat =>
    return .paymentSuccessful (← requiredStr paymentHash) (← optional Json.asU64 feePaidMsat)
  | "PaymentFailed" => content |> readTwo "payment_hash" "reason" fun paymentHash reason =>
    return .paymentFailed (← optional Json.asStr paymentHash) (← requiredStr reason)
  | "ChannelPending" => content |> readOne "channel_id" fun channelId => return .channelPending (← requiredStr channelId)
  | "ChannelReady" => content |> readOne "channel_id" fun channelId => return .channelReady (← requiredStr channelId)
  | "ChannelClosed" => content |> readTwo "channel_id" "reason" fun channelId reason =>
    return .channelClosed (← requiredStr channelId) (← requiredStr reason)
  | "Lsps2Failed" => content |> readOne "reason" fun reason => return .lsps2Failed (← requiredStr reason)
  | "BackupDegraded" => content |> readOne "detail" fun detail => return .backupDegraded (← requiredStr detail)
  | "Fenced" => content |> readOne "detail" fun detail => return .fenced (← requiredStr detail)
  | "RestoreProgress" => content |> readOne "step" fun step => return .restoreProgress (← requiredStr step)
  | _ => none

/-- A unit variant may also carry a null. -/
def decodeEvent : Json → Option Event
  | .string name => unitVariant name
  | .object [(name, content)] => if content = .null then unitVariant name else readStruct name content
  | _ => none

/-! ## Reading a written event -/

@[simp] theorem optional_writeU64 (value : Option UInt64) :
    optional Json.asU64 (some (writeOption .ofU64 value)) = some value := by
  cases value <;> rfl

@[simp] theorem optional_writeStr (value : Option String) :
    optional Json.asStr (some (writeOption .string value)) = some value := by
  cases value <;> rfl

theorem decodeEvent_encodeEvent (event : Event) : decodeEvent (encodeEvent event) = some event := by
  cases event <;>
    simp [decodeEvent, encodeEvent, unitVariant, structVariant, readStruct, readOne, readTwo, readThree, structFields,
      field, requiredStr, requiredU64]

def encodeQueue (queue : List Event) : Bytes := .ofJson (.array (queue.map encodeEvent))

def decodeQueue (bytes : Bytes) : Option (List Event) := do
  let value ← bytes.fromSlice
  let values ← value.asArray
  values.mapM decodeEvent

theorem decodeQueue_encodeQueue (queue : List Event) : decodeQueue (encodeQueue queue) = some queue := by
  have hEach : (queue.map encodeEvent).mapM decodeEvent = some queue := by
    induction queue with
    | nil => rfl
    | cons event rest ih => simp [List.mapM_cons, decodeEvent_encodeEvent, ih]
  simp [decodeQueue, encodeQueue, hEach]

end WalletCore.Events
