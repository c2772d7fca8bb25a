import WalletCore.History.PaymentStore

/-! # The activity feed

One list of all that happened: on-chain transactions that no close record absorbs, payments that
did not fail, and one row per close record, the latest first.
-/

namespace WalletCore.History

open Lib

inductive CloseStatusLabel where
  | closing
  | waitingTimelock
  | returning
  | complete
  | resolvedUnverified
deriving DecidableEq

structure CloseRecordSummary where
  channelId : String
  createdAtMs : UInt64
  expectedAmountSats : Option UInt64
  status : CloseStatusLabel
  absorbedTxids : List String

structure OnchainTxSummary where
  txid : String
  sentSats : UInt64
  receivedSats : UInt64
  confirmed : Bool
  confirmationTimeSecs : Option UInt64
  firstSeenSecs : Option UInt64

inductive ActivityKind where
  | lightning
  | onchain
  | channelClose
deriving DecidableEq

inductive ActivityDirection where
  | sent
  | received
deriving DecidableEq

inductive ActivityStatus where
  | pending
  | confirmed
  | failed
deriving DecidableEq

structure ActivityRow where
  id : String
  kind : ActivityKind
  direction : Option ActivityDirection
  amountMsat : Option UInt64
  amountSats : Option UInt64
  status : ActivityStatus
  createdAtMs : UInt64
  paymentHash : Option String
  txid : Option String
  channelId : Option String
  closeStatus : Option CloseStatusLabel
  failureReason : Option String
deriving DecidableEq

def absDiff (a b : UInt64) : UInt64 := if a < b then b - a else a - b

def onchainRow (tx : OnchainTxSummary) : ActivityRow where
  id := tx.txid
  kind := .onchain
  direction := some (if tx.receivedSats < tx.sentSats then .sent else .received)
  amountMsat := none
  amountSats := some (absDiff tx.sentSats tx.receivedSats)
  status := if tx.confirmed then .confirmed else .pending
  createdAtMs := ((tx.confirmationTimeSecs.or tx.firstSeenSecs).map (· * 1000)).getD 0
  paymentHash := none
  txid := some tx.txid
  channelId := none
  closeStatus := none
  failureReason := none

def paymentRow (payment : PersistedPayment) : ActivityRow where
  id := payment.paymentHash
  kind := .lightning
  direction := some (match payment.direction with
    | .outbound => .sent
    | .inbound => .received)
  amountMsat := some payment.amountMsat
  amountSats := none
  status := if payment.status = .pending then .pending else .confirmed
  createdAtMs := payment.createdAtMs
  paymentHash := some payment.paymentHash
  txid := none
  channelId := none
  closeStatus := none
  failureReason := none

def closeRow (record : CloseRecordSummary) : ActivityRow where
  id := "close:" ++ record.channelId
  kind := .channelClose
  direction := some .received
  amountMsat := none
  amountSats := record.expectedAmountSats
  status := match record.status with
    | .complete | .resolvedUnverified => .confirmed
    | _ => .pending
  createdAtMs := record.createdAtMs
  paymentHash := none
  txid := none
  channelId := some record.channelId
  closeStatus := some record.status
  failureReason := none

/-- The sort is stable: rows of one time stay on-chain, payments, closes. -/
def mergeActivity (payments : List PersistedPayment) (onchainTxs : List OnchainTxSummary)
    (closeRecords : List CloseRecordSummary) : List ActivityRow :=
  let absorbed := closeRecords.flatMap CloseRecordSummary.absorbedTxids
  let rows := (onchainTxs.filter fun tx => !absorbed.contains tx.txid).map onchainRow ++
    (payments.filter fun payment => payment.status ≠ .failed).map paymentRow ++ closeRecords.map closeRow
  rows.mergeSort fun a b => b.createdAtMs ≤ a.createdAtMs

def PaymentStore.allRows (store : PaymentStore) (iteration : IterationOrder) : List PersistedPayment :=
  iteration.order (store.rows.toPairs.map Prod.snd)

/-- The feed shows a payment, whatever else it shows and in whichever order the rows come. -/
def PaymentStore.Shows (store : PaymentStore) (row : ActivityRow) : Prop :=
  ∀ iteration onchainTxs closeRecords, row ∈ mergeActivity (store.allRows iteration) onchainTxs closeRecords

theorem mem_mergeActivity_payment {payments : List PersistedPayment} {payment : PersistedPayment}
    (hPayment : payment ∈ payments) (hStatus : payment.status ≠ .failed) (onchainTxs : List OnchainTxSummary)
    (closeRecords : List CloseRecordSummary) : paymentRow payment ∈ mergeActivity payments onchainTxs closeRecords := by
  rw [mergeActivity, List.mem_mergeSort, List.mem_append, List.mem_append]
  refine .inl (.inr (List.mem_map_of_mem (List.mem_filter.mpr ⟨hPayment, ?_⟩)))
  simpa using hStatus

theorem PaymentStore.shows_of_lookup {store : PaymentStore} {id : String} {row : PersistedPayment}
    (hRow : store.rows.lookup id = some row) (hStatus : row.status ≠ .failed) : store.Shows (paymentRow row) := by
  intro iteration onchainTxs closeRecords
  refine mem_mergeActivity_payment ?_ hStatus onchainTxs closeRecords
  rw [allRows, (iteration.perm _).mem_iff, List.mem_map]
  exact ⟨(id, row), (StringMap.mem_toPairs _ _ _).mpr hRow, rfl⟩

end WalletCore.History
