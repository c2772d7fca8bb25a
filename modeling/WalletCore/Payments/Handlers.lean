import WalletCore.Payments.Dispatch

/-! # Payment events

What the node does when LDK reports the outcome of a payment: the row first, the public event
only once the row is durable. An event whose row cannot be written is asked for again.
-/

namespace WalletCore.Payments

open Lib History Events Restore

/-! ## The claim tracker -/

structure ClaimState where
  expectedFeeMsat : Option UInt64
  observedSkimMsat : Option UInt64
deriving DecidableEq

def ClaimState.default : ClaimState := ⟨none, none⟩

inductive ClaimDecision where
  | claim (preimage : List UInt8)
  | failBack (reason : String)
deriving DecidableEq

/-- The skim agreed and observed per payment hash; kept in memory only. -/
structure ClaimTracker where
  claims : List UInt8 → Option ClaimState

namespace ClaimTracker

def empty : ClaimTracker := ⟨fun _ => none⟩

def set (tracker : ClaimTracker) (paymentHash : List UInt8) (state : Option ClaimState) : ClaimTracker :=
  ⟨Function.update tracker.claims paymentHash state⟩

def registerExpectedFee (tracker : ClaimTracker) (paymentHash : List UInt8) (feeMsat : UInt64) : ClaimTracker :=
  let state := (tracker.claims paymentHash).getD .default
  tracker.set paymentHash (some { state with expectedFeeMsat := some feeMsat })

def decide (tracker : ClaimTracker) (paymentHash : List UInt8) (skimmedFeeMsat : UInt64)
    (preimage : Option (List UInt8)) : ClaimTracker × ClaimDecision :=
  let state := (tracker.claims paymentHash).getD .default
  let tracker := tracker.set paymentHash (some { state with observedSkimMsat := some skimmedFeeMsat })
  match preimage with
  | none =>
    (tracker, .failBack "claimable payment carries no preimage (not created via create_inbound_payment)")
  | some preimage =>
    let maxSkimMsat := state.expectedFeeMsat.getD 0
    if maxSkimMsat < skimmedFeeMsat then
      (tracker, .failBack ("counterparty skimmed " ++ u64ToString skimmedFeeMsat ++ "msat, more than the agreed " ++
        u64ToString maxSkimMsat ++ "msat opening fee"))
    else (tracker, .claim preimage)

def skim (tracker : ClaimTracker) (paymentHash : List UInt8) : Option UInt64 :=
  (tracker.claims paymentHash).bind ClaimState.observedSkimMsat

def takeSkim (tracker : ClaimTracker) (paymentHash : List UInt8) : ClaimTracker × Option UInt64 :=
  (tracker.set paymentHash none, tracker.skim paymentHash)

end ClaimTracker

/-! ## Failure reasons -/

inductive PaymentFailureReason where
  | recipientRejected
  | userAbandoned
  | retriesExhausted
  | paymentExpired
  | routeNotFound
  | unexpectedError
  | unknownRequiredFeatures
  | invoiceRequestExpired
  | invoiceRequestRejected
  | blindedPathCreationFailed
deriving DecidableEq

def describeFailureReason : Option PaymentFailureReason → String
  | some .recipientRejected => "Payment was rejected by the recipient"
  | some .userAbandoned => "Payment was cancelled"
  | some .retriesExhausted => "No route found after multiple attempts"
  | some .paymentExpired => "Payment expired"
  | some .routeNotFound => "No route found to the recipient"
  | some .unexpectedError => "An unexpected error occurred"
  | some .unknownRequiredFeatures => "Recipient requires unsupported features"
  | some .invoiceRequestExpired => "Invoice request timed out — recipient may be offline"
  | some .invoiceRequestRejected => "Invoice request was rejected by the recipient"
  | some .blindedPathCreationFailed | none => "Payment failed"

/-! ## The handlers -/

structure ReplayEvent where
deriving DecidableEq

def sentRowKey (paymentId : Option (List UInt8)) (paymentHash : List UInt8) : String :=
  hexStr (paymentId.getD paymentHash)

namespace PaymentNode

def settlePaymentSent (node : PaymentNode) (paymentId : Option (List UInt8)) (paymentHash : List UInt8)
    (feePaidMsat : Option UInt64) : PaymentNode × Except ReplayEvent Unit :=
  match node.store.settle (sentRowKey paymentId paymentHash) .succeeded feePaidMsat none with
  | (store, .error _) => ({ node with store := store }, .error ⟨⟩)
  | (store, .ok ()) =>
    ({ node with store := store }.emit (.paymentSuccessful (hexStr paymentHash) feePaidMsat), .ok ())

def settlePaymentFailed (node : PaymentNode) (paymentId : List UInt8) (paymentHash : Option (List UInt8))
    (reason : Option PaymentFailureReason) : PaymentNode × Except ReplayEvent Unit :=
  match node.store.settle (hexStr paymentId) .failed none (some (describeFailureReason reason)) with
  | (store, .error _) => ({ node with store := store }, .error ⟨⟩)
  | (store, .ok ()) =>
    ({ node with store := store }.emit (.paymentFailed (paymentHash.map hexStr) (describeFailureReason reason)), .ok ())

/-- The skim is consumed only once the row is durable. -/
def recordPaymentClaimed (node : PaymentNode) (tracker : ClaimTracker) (paymentHash : List UInt8)
    (amountMsat nowMs : UInt64) : PaymentNode × ClaimTracker × Except ReplayEvent Unit :=
  match node.store.recordClaimed (hexStr paymentHash) amountMsat nowMs with
  | (store, .error _) => ({ node with store := store }, tracker, .error ⟨⟩)
  | (store, .ok ()) =>
    let taken := tracker.takeSkim paymentHash
    ({ node with store := store }.emit (.paymentReceived (hexStr paymentHash) amountMsat taken.2), taken.1, .ok ())

end PaymentNode

end WalletCore.Payments
