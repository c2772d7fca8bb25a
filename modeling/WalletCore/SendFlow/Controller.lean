import WalletCore.Lib.Transition
import WalletCore.SendFlow.Step

/-! # The controller of the send screen

The controller keeps one coroutine at a time: a call that launches another cancels the one before. A cancelled
coroutine never runs again, but a request that it has already handed to the core is carried out all the same.
Going back from a review moves the step and leaves the coroutine alone; leaving the screen of the flow, by the
header or by the system's Back, cancels it. The trace and the orders given up are not part of the source: they
have what was confirmed, what was ordered and what came back, and which orders nobody waits for any more, the
newest first.
-/

namespace WalletCore.SendFlow

open Lib Events

/-! ## Orders -/

/-- A call of the core that moves money. -/
inductive Order where
  | bolt11 (bolt11 : String) (amountMsat : Option UInt64)
  | offer (offer : String) (amountMsat : Option UInt64)
  | onchain (address : String) (amountSats expectedAmountSats expectedFeeSats : UInt64)
  | onchainMax (address : String) (expectedAmountSats expectedFeeSats : UInt64)
deriving DecidableEq

inductive Review where
  | lightning (review : ReviewLightning)
  | onchain (review : ReviewOnchain)
deriving DecidableEq

/-- The amount goes along for requests without one; a request without its text orders nothing. -/
def ReviewLightning.order (review : ReviewLightning) : Option Order :=
  let override := if review.target.amountMsat = none then some review.amountMsat else none
  if review.target.kind = .bolt12 then review.target.offer.map (.offer · override)
  else review.target.bolt11.map (.bolt11 · override)

def ReviewOnchain.order (review : ReviewOnchain) : Order :=
  if review.isSendMax then .onchainMax review.address review.amountSats review.feeSats
  else .onchain review.address review.amountSats review.amountSats review.feeSats

def Review.order : Review → Option Order
  | .lightning review => review.order
  | .onchain review => some review.order

/-! ## The coroutine -/

/-- Where the coroutine is: launched and not begun, or waiting for the core. The outcome of a payment is awaited
from before its dispatch; it is decided by an event or by the end of its time. -/
inductive Job where
  | classify (trimmed : String)
  | prefill
  | submit (amount : Amount)
  | confirmLightning (review : ReviewLightning)
  | confirmOnchain (review : ReviewOnchain)
  | classifying (trimmed : String)
  | prefilling
  | resolving (input rawInput : String)
  | fetching (amountMsat : UInt64) (rawInput : String) (returnTo : Option Amount)
  | estimating (address : String) (amountSats : UInt64) (returnTo : Option Amount)
  | estimatingMax (address : String) (returnTo : Option Amount)
  | sendingLightning (review : ReviewLightning) (outcome : Option (Option Event))
  | awaiting (review : ReviewLightning)
  | sendingOnchain (review : ReviewOnchain)
  | refreshing (review : ReviewOnchain)
deriving DecidableEq

/-- The order that the coroutine is about to report on. -/
def Job.order : Job → Option Order
  | .sendingLightning review _ | .awaiting review => review.order
  | .sendingOnchain review => some review.order
  | _ => none

inductive Moment where
  | confirmed (review : Review)
  | ordered (order : Order)
  | event (event : Event)
  | returned (txid : String)
deriving DecidableEq

structure Visit where
  step : SendStep
  job : Option Job
  abandoned : List Order
  trace : List Moment
deriving DecidableEq

inductive Answer where
  | failed (e : WalletException)
  | classified (view : ClassifiedView)
  | resolved (classified : ClassifiedView) (lnurl : Option LnurlPayView)
  | invoice (invoice : ClassifiedView)
  | fee (estimate : FeeEstimate)
  | max (estimate : MaxSendEstimate)
  | dispatched
  | sent (txid : String)

/-! ## Screens a slow call was made from -/

def showInlineError (message : String) : SendStep → SendStep
  | .amount amount => .amount { amount with error := some message, fetchingInvoice := false }
  | _ => .input (some message) false

def markBusy (returnTo : Option Amount) : SendStep :=
  returnTo.elim (.input none true) fun amount => .amount { amount with fetchingInvoice := true, error := none }

def failBusy (returnTo : Option Amount) (message : String) : SendStep :=
  returnTo.elim (.input (some message) false) fun amount =>
    .amount { amount with fetchingInvoice := false, error := some message }

/-- The two guard errors go back to the amount; the others offer the review for another try. -/
def routeConfirmFailure (review : ReviewOnchain) (e : WalletException) : SendStep :=
  let message := walletErrorMessage e
  if isAmountStepGuardError e then
    review.returnTo.elim (.input (some message) false) fun amount =>
      .amount { amount with error := some message, fetchingInvoice := false }
  else .failure message (some { review with broadcasting := false })

namespace Visit

def start : Visit := ⟨.input none false, none, [], []⟩

def display (v : Visit) (step : SendStep) : Visit := { v with step := step }

def record (v : Visit) (moment : Moment) : Visit := { v with trace := moment :: v.trace }

/-- The coroutine ends without the result of its order. -/
def giveUp (v : Visit) : Visit :=
  { v with job := none, abandoned := (v.job.bind Job.order).toList ++ v.abandoned }

/-- `job?.cancel()`. -/
def cancel (v : Visit) : Visit := v.giveUp

def launch (v : Visit) (job : Job) : Visit := { v.cancel with job := some job }

/-- The coroutine goes on to its next suspension, or it ends. -/
def go (v : Visit) (step : SendStep) (job : Option Job) : Visit := { v with step := step, job := job }

def execute (v : Visit) (rawInput : String) : SendDecision → Visit
  | .step step => v.go step none
  | .inlineError message => v.go (showInlineError message v.step) none
  | .resolve input => v.go (.input none true) (some (.resolving input rawInput))
  | .fetchLnurlInvoice _ amountMsat rawInput returnTo =>
    v.go (markBusy returnTo) (some (.fetching amountMsat rawInput returnTo))
  | .estimateOnchain address amountSats returnTo =>
    v.go (markBusy returnTo) (some (.estimating address amountSats returnTo))
  | .estimateOnchainMax address returnTo => v.go (markBusy returnTo) (some (.estimatingMax address returnTo))

/-! ## The user -/

def submitInput (v : Visit) (raw : String) : Visit :=
  let trimmed := trim raw
  if trimmed = "" then v.display (.input (some "Enter a payment request or address") false)
  else if sendInputMaxLength < length trimmed then v.display (.input (some "Scanned input is too long") false)
  else v.launch (.classify trimmed)

def abortResolve (v : Visit) : Visit := v.cancel.display (.input none false)

def onNumpadKey (v : Visit) (amount : Amount) (key : NumpadKey) : Visit := v.display (.amount (reduceAmountKey amount key))

def setOnchainSendMax (v : Visit) (amount : Amount) : Visit :=
  if amount.target.address.isSome then v.launch .prefill else v

def setLightningAvailable (v : Visit) (amount : Amount) (capacity : Capacity) : Visit :=
  let prefill := lnAvailablePrefillSats (unifiedTotalSats capacity) amount.maxSats
  if prefill = 0 then v
  else v.display (.amount { amount with digits := (toString prefill).toList, error := none })

def submitAmountStep (v : Visit) (amount : Amount) : Visit :=
  if amount.amountSats = 0 then v else v.launch (.submit amount)

def back (v : Visit) (returnTo : Option Amount) : Visit :=
  v.display (returnTo.elim (.input none false) fun amount =>
    .amount { amount with error := none, fetchingInvoice := false })

def confirm (v : Visit) (review : Review) (job : Job) : Visit := (v.launch job).record (.confirmed review)

/-- The scope of the screen ends with it. The next visit has a controller of its own. -/
def leave (v : Visit) : Visit := v.cancel.display (.input none false)

/-! ## The coroutine's turns -/

/-- The first turn of a launched coroutine. -/
def run (v : Visit) (capacity : Capacity) : Job → Option Visit
  | .classify trimmed => some (v.go v.step (some (.classifying trimmed)))
  | .prefill => some (v.go v.step (some .prefilling))
  | .submit amount => some (v.execute amount.rawInput (submitAmount amount capacity))
  | .confirmLightning review =>
    some (review.order.elim (v.go (.failure "Required value was null." none) none) fun order =>
      (v.record (.ordered order)).go (.dispatching review.amountMsat review.target.paymentHash)
        (some (.sendingLightning review none)))
  | .confirmOnchain review =>
    some ((v.record (.ordered review.order)).go (.reviewOnchain { review with broadcasting := true })
      (some (.sendingOnchain review)))
  | _ => none

/-- An outcome that does not apply is shown like none. A payment whose time ran out may still complete. -/
def settle (v : Visit) (review : ReviewLightning) (outcome : Option Event) : Visit :=
  (outcome.bind (applyOutcome review.amountMsat review.target.paymentHash)).elim
    (v.giveUp.display (.timedOut review.amountMsat)) (v.go · none)

/-- The estimate for the amount that is on the screen by now. -/
def fillMax (v : Visit) (change : Amount → Amount) : Visit :=
  v.go (match v.step with
    | .amount amount => .amount (change amount)
    | step => step) none

def resume (v : Visit) (capacity : Capacity) : Job → Answer → Option Visit
  | .classifying trimmed, .classified view => some (v.execute trimmed (routeInput trimmed view none capacity))
  | .classifying _, .failed e => some (v.go (.input (some (walletErrorMessage e)) false) none)
  | .prefilling, .max estimate => some (v.fillMax fun amount =>
      { amount with digits := (toString estimate.amountSats).toList, isSendMax := true, error := none })
  | .prefilling, .failed e => some (v.fillMax fun amount => { amount with error := some (walletErrorMessage e) })
  | .resolving input rawInput, .resolved classified lnurl =>
    some ((v.display (.input none false)).execute rawInput (routeInput input classified lnurl capacity))
  | .resolving _ _, .failed e => some (v.go (.input (some (walletErrorMessage e)) false) none)
  | .fetching amountMsat rawInput returnTo, .invoice invoice =>
    some (v.go (.reviewLightning (lnurlInvoiceReview invoice amountMsat rawInput returnTo)) none)
  | .fetching _ _ returnTo, .failed e => some (v.go (failBusy returnTo (walletErrorMessage e)) none)
  | .estimating address amountSats returnTo, .fee estimate =>
    some (v.go (.reviewOnchain (onchainReview address amountSats estimate returnTo)) none)
  | .estimating _ _ returnTo, .failed e => some (v.go (failBusy returnTo (walletErrorMessage e)) none)
  | .estimatingMax address returnTo, .max estimate =>
    some (v.go (.reviewOnchain (onchainMaxReview address estimate returnTo)) none)
  | .estimatingMax _ returnTo, .failed e => some (v.go (failBusy returnTo (walletErrorMessage e)) none)
  | .sendingLightning review outcome, .dispatched =>
    some (outcome.elim (v.go v.step (some (.awaiting review))) (v.settle review))
  | .sendingLightning _ _, .failed e => some (v.go (.failure (walletErrorMessage e) none) none)
  | .sendingOnchain review, .sent txid =>
    some ((v.record (.returned txid)).go (.success review.amountSats (some txid)) none)
  | .sendingOnchain review, .failed e =>
    -- Nothing was signed or broadcast when the figures have moved.
    if e = .onchainAmountChanged then some (v.go v.step (some (.refreshing review)))
    else some (v.go (routeConfirmFailure review e) none)
  | .refreshing review, .max estimate =>
    if review.isSendMax then some (v.go (.reviewOnchain (refreshedMaxReview review estimate)) none) else none
  | .refreshing review, .fee estimate =>
    if review.isSendMax then none else some (v.go (.reviewOnchain (refreshedExactReview review estimate)) none)
  | .refreshing review, .failed e => some (v.go (routeConfirmFailure review e) none)
  | _, _ => none

def hear (v : Visit) (event : Event) : Job → Visit
  | .sendingLightning review none =>
    if isPaymentOutcome event review.target.paymentHash then
      v.go v.step (some (.sendingLightning review (some (some event))))
    else v
  | .awaiting review => if isPaymentOutcome event review.target.paymentHash then v.settle review (some event) else v
  | _ => v

def timeOut (v : Visit) : Job → Option Visit
  | .sendingLightning review none => some (v.go v.step (some (.sendingLightning review (some none))))
  | .awaiting review => some (v.settle review none)
  | _ => none

end Visit

/-! ## Steps -/

inductive Act where
  | submitInput (raw : String)
  | abortResolve
  | key (key : NumpadKey)
  | sendMax
  | lnAvailable (capacity : Capacity)
  | next
  | backToInput
  | back
  | confirm
  | retry
  | run (capacity : Capacity)
  | answer (answer : Answer) (capacity : Capacity)
  | event (event : Event)
  | timeOut
  | leave

/-- The user can do what the screen of the current step offers, and can leave from every step. -/
def Visit.act (v : Visit) : Act → Option Visit
  | .submitInput raw =>
    match v.step with
    | .input _ false => some (v.submitInput raw)
    | _ => none
  | .abortResolve =>
    match v.step with
    | .input _ true => some v.abortResolve
    | _ => none
  | .key key =>
    match v.step with
    | .amount amount => some (v.onNumpadKey amount key)
    | _ => none
  | .sendMax =>
    match v.step with
    | .amount amount => if amount.isOnchain then some (v.setOnchainSendMax amount) else none
    | _ => none
  | .lnAvailable capacity =>
    match v.step with
    | .amount amount => if amount.isOnchain then none else some (v.setLightningAvailable amount capacity)
    | _ => none
  | .next =>
    match v.step with
    | .amount amount => if amount.fetchingInvoice then none else some (v.submitAmountStep amount)
    | _ => none
  | .backToInput =>
    match v.step with
    | .amount _ => some (v.display (.input none false))
    | _ => none
  | .back =>
    match v.step with
    | .reviewLightning review => some (v.back review.returnTo)
    | .reviewOnchain review => some (v.back review.returnTo)
    | _ => none
  | .confirm =>
    match v.step with
    | .reviewLightning review => some (v.confirm (.lightning review) (.confirmLightning review))
    | .reviewOnchain review =>
      if review.broadcasting then none else some (v.confirm (.onchain review) (.confirmOnchain review))
    | _ => none
  | .retry =>
    match v.step with
    | .failure _ (some review) => some (v.display (.reviewOnchain review))
    | _ => none
  | .run capacity => v.job.bind (v.run capacity)
  | .answer answer capacity => v.job.bind fun job => v.resume capacity job answer
  | .event event =>
    let heard := v.record (.event event)
    some (v.job.elim heard (heard.hear event))
  | .timeOut => v.job.bind v.timeOut
  | .leave => some v.leave

end WalletCore.SendFlow
