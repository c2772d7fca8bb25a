import WalletCore.Restore.Plan

/-! # Sending

The send flows: a request is parsed and validated, its amount resolved, and the payment handed
to LDK, whose errors are mapped onto the wallet's own. The parsers of invoices and offers and
the answers of LDK are parameters.
-/

namespace WalletCore.Payments

open Restore

inductive Network where
  | bitcoin
  | testnet
  | testnet4
  | signet
  | regtest
deriving DecidableEq

def Network.display : Network → String
  | .bitcoin => "bitcoin"
  | .testnet => "testnet"
  | .testnet4 => "testnet4"
  | .signet => "signet"
  | .regtest => "regtest"

inductive SendError where
  | notRunning
  | invalidInvoice (message : String)
  | invoiceExpired
  | wrongNetwork (expected found : Network)
  | amountMissing
  | amountOverrideNotAllowed
  | invalidOffer (message : String)
  | offerWrongNetwork (expected : Network)
  | offerExpired
  | duplicatePayment
  | routeNotFound
  | sendFailed (reason : String)
deriving DecidableEq

def SendError.display : SendError → String
  | .notRunning => "the node is not running"
  | .invalidInvoice message => "invalid bolt11 invoice: " ++ message
  | .invoiceExpired => "the invoice is expired"
  | .wrongNetwork expected found =>
    "the invoice is for the " ++ found.display ++ " network, this wallet only pays " ++ expected.display ++ " invoices"
  | .amountMissing => "Amount is required for invoices without an embedded amount"
  | .amountOverrideNotAllowed => "an amount override is only allowed for requests without an embedded amount"
  | .invalidOffer message => "invalid bolt12 offer: " ++ message
  | .offerWrongNetwork expected =>
    "the offer is for a different network, this wallet only pays " ++ expected.display ++ " offers"
  | .offerExpired => "the offer is expired"
  | .duplicatePayment => "a payment for this invoice is already pending"
  | .routeNotFound => "no route to the recipient was found"
  | .sendFailed reason => "sending the payment failed: " ++ reason

/-- The failures after which LDK has abandoned the attempt without an event of its own. -/
def SendError.isAttemptFailure : SendError → Bool
  | .routeNotFound | .sendFailed _ => true
  | _ => false

/-! ## Requests -/

/-- What the flow reads of an invoice. Times are seconds since the epoch. -/
structure Bolt11Invoice where
  paymentHash : List UInt8
  network : Network
  amountMilliSatoshis : Option UInt64
  expiresAt : Nat
deriving DecidableEq

def Bolt11Invoice.wouldExpire (invoice : Bolt11Invoice) (atTime : Nat) : Bool := decide (invoice.expiresAt < atTime)

inductive OfferAmount where
  | bitcoin (amountMsats : UInt64)
  | currency
deriving DecidableEq

structure Offer where
  supportsChain : Network → Bool
  absoluteExpiry : Option Nat
  amount : Option OfferAmount

def Offer.isExpiredNoStd (offer : Offer) (now : Nat) : Bool := offer.absoluteExpiry.any (· < now)

structure Parsers where
  bolt11 : String → Except String Bolt11Invoice
  offer : String → Except String Offer

/-- The payment hash is the payment's id. -/
def paymentIdFor (invoice : Bolt11Invoice) : List UInt8 := invoice.paymentHash

def resolveAmount (embeddedMsat overrideMsat : Option UInt64) : Except SendError UInt64 :=
  match embeddedMsat, overrideMsat with
  | some _, some _ => .error .amountOverrideNotAllowed
  | some embedded, none => .ok embedded
  | none, some overrideAmount => .ok overrideAmount
  | none, none => .error .amountMissing

def parseAndValidate (parsers : Parsers) (bolt11 : String) (network : Network) (now : Nat)
    (amountOverrideMsat : Option UInt64) : Except SendError (Bolt11Invoice × UInt64) :=
  match parsers.bolt11 bolt11 with
  | .error e => .error (.invalidInvoice e)
  | .ok invoice =>
    if invoice.network ≠ network then .error (.wrongNetwork network invoice.network)
    else if invoice.wouldExpire now then .error .invoiceExpired
    else (resolveAmount invoice.amountMilliSatoshis amountOverrideMsat).map fun amountMsat => (invoice, amountMsat)

def validateOffer (parsers : Parsers) (offerStr : String) (network : Network) (now : Nat) :
    Except SendError (Offer × Option UInt64) :=
  match parsers.offer offerStr with
  | .error e => .error (.invalidOffer e)
  | .ok offer =>
    if !offer.supportsChain network then .error (.offerWrongNetwork network)
    else if offer.isExpiredNoStd now then .error .offerExpired
    else
      let embeddedMsat := match offer.amount with
        | some (.bitcoin amountMsats) => some amountMsats
        | _ => none
      .ok (offer, embeddedMsat)

/-! ## The answers of LDK -/

inductive RetryableSendFailure where
  | paymentExpired
  | routeNotFound
  | duplicatePayment
  | onionPacketSizeExceeded
deriving DecidableEq

inductive Bolt11PaymentError where
  | invalidAmount
  | sendingFailed (failure : RetryableSendFailure)
deriving DecidableEq

/-- The errors the flow tells apart; any other goes by its debug text. -/
inductive Bolt12SemanticError where
  | duplicatePaymentId
  | alreadyExpired
  | unsupportedChain
  | missingAmount
  | other (debug : String)
deriving DecidableEq

inductive Retry where
  | attempts (count : Nat)
deriving DecidableEq

def sendRetry : Retry := .attempts 3

abbrev Bolt11Payer := Bolt11Invoice → List UInt8 → Option UInt64 → Retry → Except Bolt11PaymentError Unit

abbrev Bolt12Payer :=
  Offer → Option UInt64 → List UInt8 → Option String → Retry → Except Bolt12SemanticError Unit

def mapPayError : Bolt11PaymentError → SendError
  | .invalidAmount => .amountMissing
  | .sendingFailed .duplicatePayment => .duplicatePayment
  | .sendingFailed .routeNotFound => .routeNotFound
  | .sendingFailed .paymentExpired => .invoiceExpired
  | .sendingFailed .onionPacketSizeExceeded => .sendFailed "OnionPacketSizeExceeded"

def mapOfferError (network : Network) : Bolt12SemanticError → SendError
  | .duplicatePaymentId => .duplicatePayment
  | .alreadyExpired => .offerExpired
  | .unsupportedChain => .offerWrongNetwork network
  | .missingAmount => .amountMissing
  | .other debug => .sendFailed debug

/-! ## The flows -/

/-- LDK's override slot: filled exactly for a request without an amount of its own. -/
def ldkAmount (embeddedMsat amountMsat : Option UInt64) : Option UInt64 :=
  match embeddedMsat with
  | some _ => none
  | none => amountMsat

def sendBolt11 (parsers : Parsers) (pay : Bolt11Payer) (bolt11 : String) (network : Network) (now : Nat)
    (amountOverrideMsat : Option UInt64) : Except SendError (List UInt8) :=
  match parseAndValidate parsers bolt11 network now amountOverrideMsat with
  | .error e => .error e
  | .ok (invoice, _) =>
    let paymentId := paymentIdFor invoice
    match pay invoice paymentId (ldkAmount invoice.amountMilliSatoshis amountOverrideMsat) sendRetry with
    | .error e => .error (mapPayError e)
    | .ok () => .ok paymentId

def sendBolt12 (parsers : Parsers) (payOffer : Bolt12Payer) (offerStr : String) (network : Network) (now : Nat)
    (amountOverrideMsat : Option UInt64) (payerNote : Option String) (paymentId : List UInt8) :
    Except SendError UInt64 :=
  match validateOffer parsers offerStr network now with
  | .error e => .error e
  | .ok (offer, embeddedMsat) =>
    match resolveAmount embeddedMsat amountOverrideMsat with
    | .error e => .error e
    | .ok resolvedMsat =>
      match payOffer offer (ldkAmount embeddedMsat (some resolvedMsat)) paymentId payerNote sendRetry with
      | .error e => .error (mapOfferError network e)
      | .ok () => .ok resolvedMsat

/-! ## What validation settles -/

section

variable {parsers : Parsers} {network : Network} {now : Nat} {amountOverrideMsat : Option UInt64}

theorem parseAndValidate_parsed {bolt11 : String} {invoice : Bolt11Invoice} {amountMsat : UInt64}
    (h : parseAndValidate parsers bolt11 network now amountOverrideMsat = .ok (invoice, amountMsat)) :
    parsers.bolt11 bolt11 = .ok invoice := by
  rw [parseAndValidate] at h
  split at h
  · cases h
  · rename_i parsed hParsed
    split at h
    · cases h
    split at h
    · cases h
    cases hAmount : resolveAmount parsed.amountMilliSatoshis amountOverrideMsat with
    | error e =>
      rw [hAmount] at h
      cases h
    | ok amount =>
      rw [hAmount] at h
      cases h
      exact hParsed

end

end WalletCore.Payments
