import WalletCore.Liquidity.Quote
import WalletCore.Receive.Uri
import WalletCore.SendFlow.Step

/-! # The steps of the receive screen

The pure half of the receive flow. Whether a request needs a new channel, the floor, the fee and the expiry all
come from the core; these functions decide which step is next.
-/

namespace WalletCore.ReceiveFlow

open Events Liquidity SendFlow

/-! ## What the core answers -/

structure ReceiveBundle where
  address : List Char
  bolt11 : Option (List Char)
  paymentHash : Option String
  invoiceError : Option String
  bip321Uri : List Char
  qrValue : List Char
  offer : Option (List Char)
  offerQrValue : Option (List Char)
  needsJit : Bool
  minReceiveSats : UInt64
deriving DecidableEq

structure JitInvoice where
  bolt11 : List Char
  paymentHash : String
  openingFeeMsat : UInt64
  expiresAtUnix : UInt64
deriving DecidableEq

/-- The errors that the screen tells apart; what any other says is the send screen's text. -/
inductive ReceiveException where
  | lsps2 (reason : String)
  | jitReQuoteRequired
  | other (e : SendFlow.WalletException)

/-! ## Steps -/

/-- The invoice that the unified code has in it. -/
inductive InvoicePath where
  | none
  | standard
  | jit
deriving DecidableEq

inductive ReceiveStep where
  | display (invoicePath : InvoicePath)
  | quoting
  | jitReview (amountSats : UInt64) (quote : JitQuote) (quoteUpdated : Bool)
  | jitBelowMinimum (amountSats displayMinSats : UInt64)
  | buying
  | jitError
  | jitExpired
  | received (amountSats : UInt64)
deriving DecidableEq

def editingNeedsJit (usableInboundMsat amountSats : UInt64) : Bool := usableInboundMsat < amountSats * 1000

def belowJitMinimum (needsJit : Bool) (amountSats floorSats : UInt64) : Bool :=
  needsJit && 0 < amountSats && amountSats < floorSats

def numpadNextEnabled (amountSats : UInt64) (belowMinimum : Bool) : Bool := 0 < amountSats && !belowMinimum

inductive ConfirmDecision where
  | blocked
  | request (amountSats : UInt64) (presentQuoting : Bool)

def confirmAmount (amountSats usableInboundMsat floorSats : UInt64) : ConfirmDecision :=
  let needsJit := editingNeedsJit usableInboundMsat amountSats
  if belowJitMinimum needsJit amountSats floorSats then .blocked
  else .request amountSats (needsJit && 0 < amountSats)

def countdownSecondsLeft (expiresAtUnix : UInt64) (nowUnixSecs : Int) : Int :=
  max 0 (expiresAtUnix.toInt64.toInt - nowUnixSecs)

/-- Only an invoice on the screen expires. -/
def applyExpiryFlip (step : ReceiveStep) : ReceiveStep := if step = .display .jit then .jitExpired else step

def applyPaymentReceived (awaitedPaymentHash : Option String) (event : Event) : Option UInt64 :=
  match awaitedPaymentHash, event with
  | some awaited, .paymentReceived paymentHash amountMsat _ =>
    if paymentHash = awaited then some (msatToSatFloor amountMsat.toInt64).toUInt64 else none
  | _, _ => none

/-! ## Failures -/

inductive QuoteFailure where
  | belowMinimum (minPaymentSizeMsat : UInt64)
  | other

def belowMinimumReason : List Char := "is below the LSP minimum payment size of ".toList

def isAsciiDigit (c : Char) : Bool := '0' ≤ c && c ≤ '9'

/-- The digits between the reason and its unit, where these first stand so. -/
def findBelowMinimum : List Char → Option (List Char)
  | [] => none
  | c :: rest =>
    let after := (c :: rest).drop belowMinimumReason.length
    let digits := after.takeWhile isAsciiDigit
    if belowMinimumReason.isPrefixOf (c :: rest) ∧ digits ≠ [] ∧ "msat".toList.isPrefixOf (after.drop digits.length) then
      some digits
    else findBelowMinimum rest

def toULongOrNull (digits : List Char) : Option UInt64 :=
  let value := digits.foldl (fun value c => 10 * value + (c.toNat - '0'.toNat)) 0
  if value < 2 ^ 64 then some value.toUInt64 else none

def classifyQuoteFailure : ReceiveException → QuoteFailure
  | .lsps2 reason => (((findBelowMinimum reason.toList).bind toULongOrNull).map .belowMinimum).getD .other
  | _ => .other

inductive BuyFailure where
  | reQuote
  | error
deriving DecidableEq

def classifyBuyFailure : ReceiveException → BuyFailure
  | .jitReQuoteRequired => .reQuote
  | _ => .error

/-! ## What the screen renders -/

structure ReceiveUiState where
  loading : Bool
  loadError : Option String
  address : Option (List Char)
  bip321Uri : List Char
  qrValue : List Char
  offer : Option (List Char)
  offerQrValue : Option (List Char)
  asyncOffer : Option (List Char)
  asyncOfferQrValue : Option (List Char)
  invoiceError : Option String
  paymentHash : Option String
  openingFeeSats : Option UInt64
  expiresAtUnix : Option UInt64
  needsAmount : Bool
  floorSats : UInt64
  usableInboundMsat : UInt64
  step : ReceiveStep
  editingAmount : Bool
  amountDigits : List Char
  confirmedDigits : List Char
deriving DecidableEq

namespace ReceiveUiState

def initial : ReceiveUiState where
  loading := true
  loadError := none
  address := none
  bip321Uri := []
  qrValue := []
  offer := none
  offerQrValue := none
  asyncOffer := none
  asyncOfferQrValue := none
  invoiceError := none
  paymentHash := none
  openingFeeSats := none
  expiresAtUnix := none
  needsAmount := true
  floorSats := 3000
  usableInboundMsat := 0
  step := .display .none
  editingAmount := false
  amountDigits := []
  confirmedDigits := []

def editingAmountSats (state : ReceiveUiState) : UInt64 := toULong state.amountDigits

def confirmedAmountSats (state : ReceiveUiState) : UInt64 := toULong state.confirmedDigits

def applyBundle (state : ReceiveUiState) (bundle : ReceiveBundle) : ReceiveUiState :=
  { state with
    address := some bundle.address
    bip321Uri := bundle.bip321Uri
    qrValue := bundle.qrValue
    offer := bundle.offer
    offerQrValue := bundle.offerQrValue
    invoiceError := bundle.invoiceError
    paymentHash := bundle.paymentHash
    openingFeeSats := none
    expiresAtUnix := none
    floorSats := bundle.minReceiveSats }

end ReceiveUiState

/-- The part of the screen that is on, each with its own buttons. -/
inductive Screen where
  | received
  | loading
  | loadError
  | quoting
  | review
  | buying
  | expired
  | jitError
  | entry
  | qr
deriving DecidableEq

/-- The expired screen waits until the numpad is put away. -/
def ReceiveUiState.screen (state : ReceiveUiState) : Screen :=
  match state.step with
  | .received _ => .received
  | step =>
    if state.loading then .loading
    else if state.loadError.isSome then .loadError
    else
      match step with
      | .quoting => .quoting
      | .jitReview .. | .jitBelowMinimum .. => .review
      | .buying => .buying
      | .jitError => .jitError
      | .jitExpired => if state.editingAmount then .entry else .expired
      | _ => if state.editingAmount then .entry else .qr

end WalletCore.ReceiveFlow
