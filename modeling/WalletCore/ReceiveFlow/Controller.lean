import WalletCore.Lib.Transition
import WalletCore.ReceiveFlow.Step

/-! # The controller of the receive screen

One coroutine at a time asks the core for what the screen shows next; a new request cancels the one before.
Beside it run the timer of the invoice on the screen, the offers, and the watch on payments. The trace is not part
of the source; it has what the core answered for the screen and the payments that came in for it, the newest first.
-/

namespace WalletCore.ReceiveFlow

open Lib Events Liquidity SendFlow

/-- Where the coroutine of the requests is: launched and not begun, or waiting for the core. -/
inductive Request where
  | usableInbound
  | minReceive (inbound : UInt64)
  | entry (inbound : UInt64)
  | bundle (amountSats : UInt64)
  | quote (amountSats : UInt64) (reQuote : Bool)
  | floor (amountSats : UInt64)
  | buy (amountSats : UInt64) (quote : JitQuote)
  | accept (amountSats : UInt64) (quote : JitQuote)
  | compose (amountSats : UInt64) (invoice : JitInvoice)
deriving DecidableEq

inductive Moment where
  | bundle (amountSats : UInt64) (bundle : ReceiveBundle)
  | accepted (amountSats : UInt64) (invoice : JitInvoice) (address : List Char)
  | paid (event : Event)
deriving DecidableEq

structure Visit where
  state : ReceiveUiState
  requestJob : Option Request
  /-- When the timer runs off. -/
  expiryJob : Option Int
  mintJob : Bool
  asyncOfferJob : Bool
  now : Int
  trace : List Moment
deriving DecidableEq

inductive Answer where
  | failed (e : ReceiveException)
  | inbound (usableInboundMsat : UInt64)
  | minimum (minReceiveSats : UInt64)
  | bundle (bundle : ReceiveBundle)
  | quote (quote : JitQuote)
  | invoice (invoice : JitInvoice)
  | composed

def loadErrorMessage : ReceiveException → String
  | .lsps2 reason => "reason=" ++ reason
  | .jitReQuoteRequired => "Something went wrong"
  | .other e => if isBlank (walletErrorMessage e) then "Failed to load wallet" else walletErrorMessage e

def bundlePath (bundle : ReceiveBundle) : InvoicePath := if bundle.bolt11.isSome then .standard else .none

namespace Visit

/-- The screen is entered. -/
def start (now : Int) : Visit := ⟨.initial, some .usableInbound, none, false, false, now, []⟩

def update (v : Visit) (change : ReceiveUiState → ReceiveUiState) : Visit := { v with state := change v.state }

def record (v : Visit) (moment : Moment) : Visit := { v with trace := moment :: v.trace }

def wait (v : Visit) (request : Option Request) : Visit := { v with requestJob := request }

/-! ## The user -/

def onNumpadKey (v : Visit) (key : NumpadKey) : Visit :=
  v.update fun state => { state with amountDigits := numpadDigitReducer state.amountDigits key }

def confirmAmount (v : Visit) : Visit :=
  match ReceiveFlow.confirmAmount v.state.editingAmountSats v.state.usableInboundMsat v.state.floorSats with
  | .blocked => v
  | .request amountSats presentQuoting =>
    (v.update fun state =>
      { state with
        confirmedDigits := state.amountDigits
        editingAmount := false
        step := if presentQuoting then .quoting else state.step }).wait (some (.bundle amountSats))

def cancelAmount (v : Visit) : Visit :=
  v.update fun state => { state with amountDigits := state.confirmedDigits, editingAmount := false }

def editAmount (v : Visit) : Visit :=
  v.update fun state => { state with amountDigits := state.confirmedDigits, editingAmount := true }

def removeAmount (v : Visit) : Visit :=
  (v.update fun state =>
    { state with
      amountDigits := []
      confirmedDigits := []
      editingAmount := state.needsAmount }).wait (some (.bundle 0))

def backFromReview (v : Visit) : Visit :=
  (v.update fun state =>
    { state with
      amountDigits := state.confirmedDigits
      confirmedDigits := []
      step := .display .none
      editingAmount := true }).wait (some (.bundle 0))

def retryRequest (v : Visit) : Visit :=
  if v.state.confirmedAmountSats = 0 then v.backFromReview
  else (v.update fun state => { state with step := .quoting }).wait (some (.bundle v.state.confirmedAmountSats))

/-! ## The coroutine's turns -/

def run (v : Visit) : Request → Option Visit
  | .buy amountSats quote =>
    some ((v.update fun state => { state with step := .buying }).wait (some (.accept amountSats quote)))
  | _ => none

def load (v : Visit) (e : ReceiveException) : Visit :=
  (v.update fun state => { state with loading := false, loadError := some (loadErrorMessage e) }).wait none

/-- The default bundle is in; the offers are loaded beside the screen. -/
def enter (v : Visit) (inbound : UInt64) (bundle : ReceiveBundle) : Visit :=
  let shown := ((v.update fun state =>
    { state.applyBundle bundle with
      loading := false
      usableInboundMsat := inbound
      needsAmount := bundle.needsJit
      editingAmount := bundle.needsJit
      step := .display (bundlePath bundle) }).record (.bundle 0 bundle)).wait none
  { shown with
    mintJob := !bundle.needsJit && bundle.offer.isNone
    asyncOfferJob := !bundle.needsJit }

def showBundle (v : Visit) (amountSats : UInt64) (bundle : ReceiveBundle) : Visit :=
  if bundle.needsJit ∧ 0 < amountSats then
    ((v.update fun state => { state.applyBundle bundle with step := .quoting }).record
      (.bundle amountSats bundle)).wait (some (.quote amountSats false))
  else
    ((v.update fun state => { state.applyBundle bundle with step := .display (bundlePath bundle) }).record
      (.bundle amountSats bundle)).wait none

/-- The code on the screen stays as it is. -/
def failBundle (v : Visit) (amountSats : UInt64) : Visit :=
  (v.update fun state =>
    { state with
      invoiceError := if 0 < amountSats then some "Failed to create Lightning invoice" else none
      paymentHash := none
      openingFeeSats := none
      expiresAtUnix := none
      step := .display .none }).wait none

def showQuote (v : Visit) (amountSats : UInt64) (quote : JitQuote) (reQuote : Bool) : Visit :=
  (v.update fun state => { state with step := .jitReview amountSats quote reQuote }).wait none

def failQuote (v : Visit) (amountSats : UInt64) (reQuote : Bool) (e : ReceiveException) : Visit :=
  match classifyQuoteFailure e with
  | .belowMinimum _ => v.wait (some (.floor amountSats))
  | .other => (v.update fun state => { state with step := if reQuote then .jitError else .display .none }).wait none

def showBelowMinimum (v : Visit) (amountSats refreshed : UInt64) : Visit :=
  (v.update fun state =>
    let displayMin := if 0 < refreshed then refreshed else state.floorSats
    { state with floorSats := displayMin, step := .jitBelowMinimum amountSats displayMin }).wait none

/-- The code is composed around the invoice, and its timer is set. -/
def showInvoice (v : Visit) (amountSats : UInt64) (invoice : JitInvoice) : Visit :=
  let address := v.state.address.getD []
  let uri := Receive.buildBip321Uri address (some amountSats) (some invoice.bolt11)
  let shown := ((v.update fun state =>
    { state with
      bip321Uri := uri
      qrValue := Receive.toUppercase uri
      paymentHash := some invoice.paymentHash
      openingFeeSats := some (msatToSatCeil invoice.openingFeeMsat.toInt64).toUInt64
      expiresAtUnix := some invoice.expiresAtUnix
      invoiceError := none
      step := .display .jit }).record (.accepted amountSats invoice address)).wait none
  { shown with expiryJob := some (v.now + countdownSecondsLeft invoice.expiresAtUnix v.now) }

def failAccept (v : Visit) (amountSats : UInt64) (e : ReceiveException) : Visit :=
  match classifyBuyFailure e with
  | .reQuote => v.wait (some (.quote amountSats true))
  | .error => (v.update fun state => { state with step := .jitError }).wait none

def resume (v : Visit) : Request → Answer → Option Visit
  | .usableInbound, .inbound inbound =>
    some (v.wait (some (if inbound < v.state.floorSats * 1000 then .minReceive inbound else .entry inbound)))
  | .usableInbound, .failed e => some (v.load e)
  | .minReceive inbound, .minimum _ | .minReceive inbound, .failed _ => some (v.wait (some (.entry inbound)))
  | .entry inbound, .bundle bundle => some (v.enter inbound bundle)
  | .entry _, .failed e => some (v.load e)
  | .bundle amountSats, .bundle bundle => some (v.showBundle amountSats bundle)
  | .bundle amountSats, .failed _ => some (v.failBundle amountSats)
  | .quote amountSats reQuote, .quote quote => some (v.showQuote amountSats quote reQuote)
  | .quote amountSats reQuote, .failed e => some (v.failQuote amountSats reQuote e)
  | .floor amountSats, .minimum refreshed => some (v.showBelowMinimum amountSats refreshed)
  | .floor amountSats, .failed _ => some (v.showBelowMinimum amountSats 0)
  | .accept amountSats _, .invoice invoice => some (v.wait (some (.compose amountSats invoice)))
  | .accept amountSats _, .failed e => some (v.failAccept amountSats e)
  | .compose amountSats invoice, .composed => some (v.showInvoice amountSats invoice)
  | _, _ => none

def hear (v : Visit) (event : Event) : Visit :=
  (applyPaymentReceived v.state.paymentHash event).elim v fun amountSats =>
    (v.update fun state => { state with step := .received amountSats }).record (.paid event)

def expire (v : Visit) : Visit :=
  { v.update fun state => { state with step := applyExpiryFlip state.step } with expiryJob := none }

def minted (v : Visit) (offer : Option (List Char)) : Visit :=
  { v.update fun state =>
      offer.elim state fun offer =>
        { state with offer := some offer, offerQrValue := some (Receive.toUppercase (Receive.buildBolt12PageUri offer)) }
    with mintJob := false }

def asyncOffered (v : Visit) (offer : Option (List Char)) : Visit :=
  { v.update fun state =>
      offer.elim state fun offer =>
        { state with
          asyncOffer := some offer
          asyncOfferQrValue := some (Receive.toUppercase (Receive.buildBolt12PageUri offer)) }
    with asyncOfferJob := false }

end Visit

/-! ## Steps -/

inductive Act where
  | key (key : NumpadKey)
  | confirmAmount
  | cancelAmount
  | editAmount
  | removeAmount
  | back
  | retry
  | generate
  | run
  | answer (answer : Answer)
  | event (event : Event)
  | clock (seconds : Nat)
  | expire
  | minted (offer : Option (List Char))
  | asyncOffered (offer : Option (List Char))

/-- The user can do what the part of the screen that is on offers. -/
def Visit.act (v : Visit) : Act → Option Visit
  | .key key => if v.state.screen = .entry then some (v.onNumpadKey key) else none
  | .confirmAmount =>
    let needsJit := editingNeedsJit v.state.usableInboundMsat v.state.editingAmountSats
    let belowMinimum := belowJitMinimum needsJit v.state.editingAmountSats v.state.floorSats
    if v.state.screen = .entry ∧ numpadNextEnabled v.state.editingAmountSats belowMinimum then some v.confirmAmount
    else none
  | .cancelAmount =>
    if v.state.screen = .entry ∧ (v.state.needsAmount = false ∨ 0 < v.state.confirmedAmountSats) then some v.cancelAmount
    else none
  | .editAmount => if v.state.screen = .qr ∧ v.state.address.isSome then some v.editAmount else none
  | .removeAmount =>
    if v.state.screen = .entry ∧ 0 < v.state.confirmedAmountSats then some v.removeAmount else none
  | .back =>
    if v.state.screen = .review ∨ v.state.screen = .expired ∨ v.state.screen = .jitError then some v.backFromReview
    else none
  | .retry => if v.state.screen = .expired ∨ v.state.screen = .jitError then some v.retryRequest else none
  | .generate =>
    match v.state.screen, v.state.step with
    | .review, .jitReview amountSats quote _ => some (v.wait (some (.buy amountSats quote)))
    | _, _ => none
  | .run => v.requestJob.bind v.run
  | .answer answer => v.requestJob.bind fun request => v.resume request answer
  | .event event => some (v.hear event)
  | .clock seconds => some { v with now := v.now + seconds }
  | .expire => if v.expiryJob.any (· ≤ v.now) then some v.expire else none
  | .minted offer => if v.mintJob then some (v.minted offer) else none
  | .asyncOffered offer => if v.asyncOfferJob then some (v.asyncOffered offer) else none

end WalletCore.ReceiveFlow
