import WalletCore.SendFlow.Controller

/-! # What one action can do

A review stands for one order. Every action moves the visit in one of a few ways, whatever the coroutine is
at, or it is one of the few after which an order under way has lost its screen or its coroutine.
-/

namespace WalletCore.SendFlow

open Lib Events

/-! ## Amounts -/

/-- The amount of a Lightning request is only asked for when the request leaves it open. -/
def Amount.Sound (amount : Amount) : Prop :=
  amount.target.kind = .bolt11 ∨ amount.target.kind = .bolt12 → amount.target.amountMsat = none

def Returns (returnTo : Option Amount) : Prop := ∀ amount, returnTo = some amount → amount.Sound

/-- The review shows the amount that the request asks for, when it asks for one. -/
def ReviewLightning.Faithful (review : ReviewLightning) : Prop :=
  review.target.amountMsat.getD review.amountMsat = review.amountMsat

namespace SendStep

def Sound : SendStep → Prop
  | .amount entry => entry.Sound
  | .reviewLightning review => review.Faithful ∧ Returns review.returnTo
  | .reviewOnchain review => Returns review.returnTo
  | .failure _ retry => ∀ review, retry = some review → review.broadcasting = false ∧ Returns review.returnTo
  | _ => True

/-- The step shows an order under way. -/
def busy : SendStep → Bool
  | .dispatching .. => true
  | .reviewOnchain review => review.broadcasting
  | _ => false

structure Plain (step : SendStep) : Prop where
  sound : step.Sound
  free : step.busy = false
  open_end : ∀ sats txid, step ≠ .success sats txid

end SendStep

/-! ## Reviews and their orders -/

namespace Review

def step : Review → SendStep
  | .lightning review => .reviewLightning review
  | .onchain review => .reviewOnchain review

/-- What the screen shows while the order is under way. -/
def face : Review → SendStep
  | .lightning review => .dispatching review.amountMsat review.target.paymentHash
  | .onchain review => .reviewOnchain { review with broadcasting := true }

def confirming : Review → Job
  | .lightning review => .confirmLightning review
  | .onchain review => .confirmOnchain review

def sending : Review → Job
  | .lightning review => .sendingLightning review none
  | .onchain review => .sendingOnchain review

@[simp] theorem face_busy (review : Review) : review.face.busy = true := by cases review <;> rfl

theorem face_ne_success (review : Review) (sats : UInt64) (txid : Option String) : review.face ≠ .success sats txid := by
  cases review <;> exact SendStep.noConfusion

end Review

namespace Job

/-- The review that a launched coroutine is going to order. -/
def confirmed : Job → Option Review
  | .confirmLightning review => some (.lightning review)
  | .confirmOnchain review => some (.onchain review)
  | _ => none

def sent : Job → Option Review
  | .sendingLightning review _ | .awaiting review => some (.lightning review)
  | .sendingOnchain review | .refreshing review => some (.onchain review)
  | _ => none

def Sound : Job → Prop
  | .submit amount => amount.Sound
  | .fetching _ _ returnTo | .estimating _ _ returnTo | .estimatingMax _ returnTo => Returns returnTo
  | .confirmOnchain review | .sendingOnchain review | .refreshing review => Returns review.returnTo
  | .sendingLightning review outcome => review.order ≠ none ∧
      ∀ event, outcome = some (some event) → isPaymentOutcome event review.target.paymentHash = true
  | .awaiting review => review.order ≠ none
  | _ => True

structure Plain (job : Job) : Prop where
  sound : job.Sound
  unconfirmed : job.confirmed = none
  unsent : job.sent = none

theorem order_of_not_sent {job : Job} (h : job.sent = none) : job.order = none := by
  cases job <;> first | rfl | cases h

theorem sent_of_confirmed {job : Job} {review : Review} (h : job.confirmed = some review) : job.sent = none := by
  cases job <;> first | rfl | cases h

theorem confirmed_of_sent {job : Job} {review : Review} (h : job.sent = some review) : job.confirmed = none := by
  cases job <;> first | rfl | cases h

theorem confirming_confirmed (review : Review) : review.confirming.confirmed = some review := by cases review <;> rfl

@[simp] theorem sending_sent (review : Review) : review.sending.sent = some review := by cases review <;> rfl

end Job

/-! ## Moves -/

namespace Visit

/-- Back on an on-chain review whose order is under way, the end of the visit before an order has its result, and
the end of the time that a payment is waited for, once the core has taken it. -/
def leaves (v : Visit) : Act → Bool
  | .back =>
    match v.step with
    | .reviewOnchain review => review.broadcasting
    | _ => false
  | .leave => (v.job.bind Job.order).isSome
  | .timeOut =>
    match v.job with
    | some (.awaiting _) => true
    | _ => false
  | .answer .dispatched _ =>
    match v.job with
    | some (.sendingLightning _ (some none)) => true
    | _ => false
  | _ => false

structure Sound (v : Visit) : Prop where
  step : v.step.Sound
  job : ∀ job, v.job = some job → job.Sound

inductive Move (v : Visit) : Visit → Prop where
  | shown {step : SendStep} (hHere : v.step.busy = false) (hStep : step.Plain) : Move v (v.display step)
  | cancelled {step : SendStep} {next : Option Job} (hHere : v.step.busy = false)
      (hStep : step = v.step ∨ step.Plain) (hNext : ∀ job, next = some job → job.Plain) : Move v (v.cancel.go step next)
  | confirmed (review : Review) (hHere : v.step.busy = false) (hReview : v.step = review.step) :
      Move v (v.confirm review review.confirming)
  | went {job : Job} {step : SendStep} {next : Option Job} (hJob : v.job = some job) (hPlain : job.Plain)
      (hStep : step = v.step ∨ step.Plain) (hNext : ∀ job, next = some job → job.Plain) : Move v (v.go step next)
  | ordered (review : Review) {order : Order} (hJob : v.job = some review.confirming) (hOrder : review.order = some order) :
      Move v ((v.record (.ordered order)).go review.face (some review.sending))
  | carried {job next : Job} (hJob : v.job = some job) (hSent : job.sent.isSome) (hNext : next.sent = job.sent)
      (hSound : next.Sound) (hOutcome : ∀ review event, next ≠ .sendingLightning review (some (some event))) :
      Move v (v.go v.step (some next))
  | heard (event : Event) : Move v (v.record (.event event))
  | noted {review : ReviewLightning} {event : Event} (hJob : v.job = some (.sendingLightning review none))
      (hCounts : isPaymentOutcome event review.target.paymentHash = true) :
      Move v ((v.record (.event event)).go v.step (some (.sendingLightning review (some (some event)))))
  | settled {review : ReviewLightning} {event : Event} (hJob : v.job = some (.sendingLightning review (some (some event))))
      (hCounts : isPaymentOutcome event review.target.paymentHash = true) :
      Move v (v.settle review (some event))
  | decided {review : ReviewLightning} {event : Event} (hJob : v.job = some (.awaiting review))
      (hCounts : isPaymentOutcome event review.target.paymentHash = true) :
      Move v ((v.record (.event event)).settle review (some event))
  | returned {review : ReviewOnchain} {txid : String} (hJob : v.job = some (.sendingOnchain review)) :
      Move v ((v.record (.returned txid)).go (.success review.amountSats (some txid)) none)
  | ended {job : Job} {step : SendStep} (hJob : v.job = some job) (hStep : step.Plain) : Move v (v.go step none)
  | left (hOrder : v.job.bind Job.order = none) : Move v v.leave

/-- An order under way is hidden, or it is given up without its result. -/
inductive Loss (v : Visit) : Visit → Prop where
  | hidden {review : ReviewOnchain} {step : SendStep} (hAt : v.step = .reviewOnchain review)
      (hBusy : review.broadcasting = true) (hStep : step.Plain) : Loss v (v.display step)
  | unanswered {order : Order} {step : SendStep} (hOrder : v.job.bind Job.order = some order) (hStep : step.Plain) :
      Loss v (v.giveUp.display step)

end Visit

/-! ## What is decided is plain -/

theorem Amount.enter_sound {view : ClassifiedView} {raw : String} {lnurl : Option LnurlPayView}
    (h : view.kind = .bolt11 ∨ view.kind = .bolt12 → view.amountMsat = none) : (Amount.enter view raw lnurl).Sound :=
  h

def SendDecision.Plain : SendDecision → Prop
  | .step next => next.Plain
  | .fetchLnurlInvoice _ _ _ returnTo | .estimateOnchain _ _ returnTo | .estimateOnchainMax _ returnTo => Returns returnTo
  | .inlineError _ | .resolve _ => True

theorem returns_none : Returns none := by rintro _ ⟨⟩

theorem returns_some {amount : Amount} (h : amount.Sound) : Returns (some amount) := by
  rintro _ ⟨⟩
  exact h

theorem plain_input (error : Option String) (resolving : Bool) : (SendStep.input error resolving).Plain :=
  ⟨trivial, rfl, fun _ _ => SendStep.noConfusion⟩

theorem plain_amount {amount : Amount} (h : amount.Sound) : (SendStep.amount amount).Plain :=
  ⟨h, rfl, fun _ _ => SendStep.noConfusion⟩

theorem plain_reviewLightning {review : ReviewLightning} (hFaithful : review.Faithful) (hBack : Returns review.returnTo) :
    (SendStep.reviewLightning review).Plain :=
  ⟨⟨hFaithful, hBack⟩, rfl, fun _ _ => SendStep.noConfusion⟩

theorem plain_reviewOnchain {review : ReviewOnchain} (hFree : review.broadcasting = false) (hBack : Returns review.returnTo) :
    (SendStep.reviewOnchain review).Plain :=
  ⟨hBack, hFree, fun _ _ => SendStep.noConfusion⟩

theorem plain_failure (message : String) {retry : Option ReviewOnchain}
    (h : ∀ review, retry = some review → review.broadcasting = false ∧ Returns review.returnTo) :
    (SendStep.failure message retry).Plain :=
  ⟨h, rfl, fun _ _ => SendStep.noConfusion⟩

theorem plain_timedOut (amountMsat : UInt64) : (SendStep.timedOut amountMsat).Plain :=
  ⟨trivial, rfl, fun _ _ => SendStep.noConfusion⟩

theorem plain_markBusy {returnTo : Option Amount} (h : Returns returnTo) : (markBusy returnTo).Plain := by
  cases returnTo with
  | none => exact plain_input _ _
  | some amount => exact plain_amount (h amount rfl)

theorem plain_failBusy {returnTo : Option Amount} (h : Returns returnTo) (message : String) :
    (failBusy returnTo message).Plain := by
  cases returnTo with
  | none => exact plain_input _ _
  | some amount => exact plain_amount (h amount rfl)

theorem plain_showInlineError {step : SendStep} (h : step.Sound) (message : String) :
    (showInlineError message step).Plain := by
  cases step with
  | amount amount => exact plain_amount h
  | _ => exact plain_input _ _

theorem plain_routeConfirmFailure {review : ReviewOnchain} (h : Returns review.returnTo) (e : WalletException) :
    (routeConfirmFailure review e).Plain := by
  rw [routeConfirmFailure]
  split_ifs
  · exact plain_failBusy h _
  · refine plain_failure _ ?_
    rintro _ ⟨⟩
    exact ⟨rfl, h⟩

theorem lnurlInvoiceReview_faithful (invoice : ClassifiedView) (requestedMsat : UInt64) (rawInput : String)
    (returnTo : Option Amount) : (lnurlInvoiceReview invoice requestedMsat rawInput returnTo).Faithful := by
  rw [ReviewLightning.Faithful, lnurlInvoiceReview]
  cases invoice.amountMsat <;> rfl

theorem routeInput_plain (raw : String) (view : ClassifiedView) (lnurl : Option LnurlPayView) (capacity : Capacity) :
    (routeInput raw view lnurl capacity).Plain := by
  rw [routeInput]
  cases hKind : view.kind with
  | invalid | bip353 => trivial
  | lnurl =>
    cases lnurl with
    | none => trivial
    | some lnurl =>
      rw [Option.elim_some]
      split_ifs
      · exact returns_none
      · exact plain_amount (Amount.enter_sound (by simp [hKind]))
  | onchain =>
    cases view.amountSats with
    | none => exact plain_amount (Amount.enter_sound (by simp [hKind]))
    | some embedded =>
      rw [Option.elim_some]
      split_ifs
      · trivial
      · trivial
      · exact returns_none
  | bolt11 | bolt12 =>
    cases hAmount : view.amountMsat with
    | none => exact plain_amount (Amount.enter_sound fun _ => hAmount)
    | some embeddedMsat =>
      rw [Option.elim_some]
      split_ifs
      · trivial
      · refine plain_reviewLightning ?_ returns_none
        rw [ReviewLightning.Faithful, hAmount, Option.getD_some]

theorem submitAmount_plain {amount : Amount} (h : amount.Sound) (capacity : Capacity) :
    (submitAmount amount capacity).Plain := by
  rw [submitAmount]
  dsimp only
  iterate 3
    split
    · trivial
  cases hKind : amount.target.kind with
  | lnurl =>
    cases amount.lnurl with
    | none => trivial
    | some lnurl => exact returns_some h
  | bolt11 | bolt12 =>
    have hOpen : amount.target.amountMsat = none := h (by simp [hKind])
    dsimp only
    split_ifs
    · trivial
    · refine plain_reviewLightning ?_ (returns_some h)
      rw [ReviewLightning.Faithful, hOpen, Option.getD_none]
  | onchain =>
    dsimp only
    split_ifs
    · exact returns_some h
    · trivial
    · trivial
    · exact returns_some h
  | bip353 | invalid => trivial

/-! ## Every action is a move or a loss -/

namespace Visit

variable {v t : Visit} {job : Job}

/-- What a decision leads to: its step, or its spinner and the coroutine that asks for more. -/
theorem execute_eq (hStep : v.step.Sound) (rawInput : String) {decision : SendDecision} (h : decision.Plain) :
    ∃ step next, v.execute rawInput decision = v.go step next ∧ step.Plain ∧ ∀ job, next = some job → job.Plain := by
  have hAsks : ∀ {asked : Job}, asked.Plain → ∀ job, some asked = some job → job.Plain := by
    rintro asked hAsked _ ⟨⟩
    exact hAsked
  cases decision with
  | step step => exact ⟨step, none, rfl, h, by rintro _ ⟨⟩⟩
  | inlineError message => exact ⟨_, none, rfl, plain_showInlineError hStep message, by rintro _ ⟨⟩⟩
  | resolve input => exact ⟨_, _, rfl, plain_input _ _, hAsks ⟨trivial, rfl, rfl⟩⟩
  | fetchLnurlInvoice lnurl amountMsat raw returnTo => exact ⟨_, _, rfl, plain_markBusy h, hAsks ⟨h, rfl, rfl⟩⟩
  | estimateOnchain address amountSats returnTo => exact ⟨_, _, rfl, plain_markBusy h, hAsks ⟨h, rfl, rfl⟩⟩
  | estimateOnchainMax address returnTo => exact ⟨_, _, rfl, plain_markBusy h, hAsks ⟨h, rfl, rfl⟩⟩

theorem Move.executed (hJob : v.job = some job) (hPlain : job.Plain) (hStep : v.step.Sound) (rawInput : String)
    {decision : SendDecision} (h : decision.Plain) : Move v (v.execute rawInput decision) := by
  obtain ⟨step, next, hGo, hPlainStep, hNext⟩ := execute_eq hStep rawInput h
  rw [hGo]
  exact .went hJob hPlain (.inr hPlainStep) hNext

theorem plain_fillMax (hStep : v.step.Sound) (change : Amount → Amount)
    (hChange : ∀ amount : Amount, amount.Sound → (change amount).Sound) :
    ∃ step, v.fillMax change = v.go step none ∧ (step = v.step ∨ step.Plain) := by
  refine ⟨_, rfl, ?_⟩
  cases hAt : v.step with
  | amount amount =>
    rw [hAt] at hStep
    exact .inr (plain_amount (hChange amount hStep))
  | _ => exact .inl rfl

theorem run_move (hSound : v.Sound) (hJob : v.job = some job) (capacity : Capacity)
    (h : v.run capacity job = some t) : Move v t := by
  have hJobSound := hSound.job job hJob
  cases job with
  | classify trimmed =>
    cases h
    refine .went hJob ⟨trivial, rfl, rfl⟩ (.inl rfl) ?_
    rintro _ ⟨⟩
    exact ⟨trivial, rfl, rfl⟩
  | prefill =>
    cases h
    refine .went hJob ⟨trivial, rfl, rfl⟩ (.inl rfl) ?_
    rintro _ ⟨⟩
    exact ⟨trivial, rfl, rfl⟩
  | submit amount =>
    cases h
    exact .executed hJob ⟨hJobSound, rfl, rfl⟩ hSound.step _ (submitAmount_plain hJobSound capacity)
  | confirmLightning review =>
    rw [run] at h
    cases hOrder : review.order with
    | none =>
      rw [hOrder] at h
      cases h
      exact .ended hJob (plain_failure _ (by rintro _ ⟨⟩))
    | some order =>
      rw [hOrder] at h
      cases h
      exact .ordered (.lightning review) hJob hOrder
  | confirmOnchain review =>
    cases h
    exact .ordered (.onchain review) hJob rfl
  | _ => cases h

theorem Move.halted (hJob : v.job = some job) (hPlain : job.Plain) {step : SendStep} (hStep : step = v.step ∨ step.Plain) :
    Move v (v.go step none) :=
  .went hJob hPlain hStep (by rintro _ ⟨⟩)

theorem resume_move (hSound : v.Sound) (hJob : v.job = some job) {capacity : Capacity} {answer : Answer}
    (hStays : v.leaves (.answer answer capacity) = false) (h : v.resume capacity job answer = some t) : Move v t := by
  have hJobSound := hSound.job job hJob
  cases job with
  | classifying trimmed =>
    cases answer with
    | classified view =>
      cases h
      exact .executed hJob ⟨trivial, rfl, rfl⟩ hSound.step _ (routeInput_plain _ _ _ _)
    | failed e =>
      cases h
      exact .ended hJob (plain_input _ _)
    | _ => cases h
  | prefilling =>
    cases answer with
    | max estimate =>
      cases h
      obtain ⟨step, hFill, hStep⟩ := plain_fillMax hSound.step
        (fun amount =>
          { amount with digits := (toString estimate.amountSats).toList, isSendMax := true, error := none })
        fun _ hAmount => hAmount
      rw [hFill]
      exact .halted hJob ⟨trivial, rfl, rfl⟩ hStep
    | failed e =>
      cases h
      obtain ⟨step, hFill, hStep⟩ := plain_fillMax hSound.step
        (fun amount => { amount with error := some (walletErrorMessage e) }) fun _ hAmount => hAmount
      rw [hFill]
      exact .halted hJob ⟨trivial, rfl, rfl⟩ hStep
    | _ => cases h
  | resolving input rawInput =>
    cases answer with
    | resolved classified lnurl =>
      cases h
      obtain ⟨step, next, hGo, hStep, hNext⟩ := execute_eq (v := v.display (.input none false)) trivial rawInput
        (routeInput_plain input classified lnurl capacity)
      rw [hGo]
      exact .went hJob ⟨trivial, rfl, rfl⟩ (.inr hStep) hNext
    | failed e =>
      cases h
      exact .ended hJob (plain_input _ _)
    | _ => cases h
  | fetching amountMsat rawInput returnTo =>
    cases answer with
    | invoice invoice =>
      cases h
      exact .ended hJob (plain_reviewLightning (lnurlInvoiceReview_faithful _ _ _ _) hJobSound)
    | failed e =>
      cases h
      exact .ended hJob (plain_failBusy hJobSound _)
    | _ => cases h
  | estimating address amountSats returnTo =>
    cases answer with
    | fee estimate =>
      cases h
      exact .ended hJob (plain_reviewOnchain rfl hJobSound)
    | failed e =>
      cases h
      exact .ended hJob (plain_failBusy hJobSound _)
    | _ => cases h
  | estimatingMax address returnTo =>
    cases answer with
    | max estimate =>
      cases h
      exact .ended hJob (plain_reviewOnchain rfl hJobSound)
    | failed e =>
      cases h
      exact .ended hJob (plain_failBusy hJobSound _)
    | _ => cases h
  | sendingLightning review outcome =>
    cases answer with
    | dispatched =>
      rcases outcome with _ | _ | event
      · cases h
        exact .carried hJob rfl rfl hJobSound.1 (by rintro _ _ ⟨⟩)
      · rw [leaves, hJob] at hStays
        cases hStays
      · cases h
        exact .settled hJob (hJobSound.2 event rfl)
    | failed e =>
      cases h
      exact .ended hJob (plain_failure _ (by rintro _ ⟨⟩))
    | _ => cases h
  | sendingOnchain review =>
    cases answer with
    | sent txid =>
      cases h
      exact .returned hJob
    | failed e =>
      rw [resume] at h
      split_ifs at h
      · cases h
        exact .carried hJob rfl rfl hJobSound (by rintro _ _ ⟨⟩)
      · cases h
        exact .ended hJob (plain_routeConfirmFailure hJobSound e)
    | _ => cases h
  | refreshing review =>
    cases answer with
    | max estimate =>
      rw [resume] at h
      split_ifs at h
      cases h
      exact .ended hJob (plain_reviewOnchain rfl hJobSound)
    | fee estimate =>
      rw [resume] at h
      split_ifs at h
      cases h
      exact .ended hJob (plain_reviewOnchain rfl hJobSound)
    | failed e =>
      cases h
      exact .ended hJob (plain_routeConfirmFailure hJobSound e)
    | _ => cases h
  | _ => cases answer <;> cases h

theorem hear_move (hJob : v.job = some job) (event : Event) : Move v ((v.record (.event event)).hear event job) := by
  cases job with
  | sendingLightning review outcome =>
    cases outcome with
    | none =>
      rw [hear]
      split_ifs with hCounts
      · exact .noted hJob hCounts
      · exact .heard event
    | some outcome => exact .heard event
  | awaiting review =>
    rw [hear]
    split_ifs with hCounts
    · exact .decided hJob hCounts
    · exact .heard event
  | _ => exact .heard event

theorem timeOut_move (hSound : v.Sound) (hJob : v.job = some job) (hStays : v.leaves .timeOut = false)
    (h : v.timeOut job = some t) : Move v t := by
  cases job with
  | sendingLightning review outcome =>
    cases outcome with
    | none =>
      cases h
      exact .carried hJob rfl rfl ⟨(hSound.job _ hJob).1, by rintro _ ⟨⟩⟩ (by rintro _ _ ⟨⟩)
    | some outcome => cases h
  | awaiting review =>
    rw [leaves, hJob] at hStays
    cases hStays
  | _ => cases h

theorem back_plain (v : Visit) {returnTo : Option Amount} (h : Returns returnTo) :
    ∃ step, v.back returnTo = v.display step ∧ step.Plain := by
  refine ⟨_, rfl, ?_⟩
  cases returnTo with
  | none => exact plain_input _ _
  | some amount => exact plain_amount (h amount rfl)

theorem free_at {step : SendStep} (hAt : v.step = step) (hFree : step.busy = false) : v.step.busy = false := by
  rw [hAt]
  exact hFree

theorem launch_move (hHere : v.step.busy = false) (hPlain : job.Plain) : Move v (v.launch job) := by
  have hNext : ∀ next, some job = some next → next.Plain := by
    rintro _ ⟨⟩
    exact hPlain
  exact (.cancelled hHere (.inl rfl) hNext : Move v (v.cancel.go v.step (some job)))

theorem timed_out_loss {review : ReviewLightning} (hJob : v.job = some job)
    (hOrders : job.order = review.order) (hOrder : review.order ≠ none) : Loss v (v.settle review none) := by
  obtain ⟨order, hSome⟩ := Option.ne_none_iff_exists'.mp hOrder
  have hHere : v.job.bind Job.order = some order := by
    rw [hJob, Option.bind_some, hOrders, hSome]
  exact .unanswered hHere (plain_timedOut review.amountMsat)

theorem act_loss (hSound : v.Sound) {a : Act} (hLeaves : v.leaves a = true) (h : v.act a = some t) : Loss v t := by
  cases a with
  | back =>
    rw [leaves] at hLeaves
    split at hLeaves
    · next review hAt =>
      have hStep := hSound.step
      rw [hAt] at hStep
      rw [act, hAt] at h
      cases h
      obtain ⟨step, hBack, hPlain⟩ := back_plain v hStep
      rw [hBack]
      exact .hidden hAt hLeaves hPlain
    · cases hLeaves
  | leave =>
    cases h
    obtain ⟨order, hOrder⟩ := Option.isSome_iff_exists.mp hLeaves
    exact .unanswered hOrder (plain_input _ _)
  | timeOut =>
    rw [leaves] at hLeaves
    split at hLeaves
    · next review hJob =>
      rw [act, hJob] at h
      cases h
      exact timed_out_loss hJob rfl (hSound.job _ hJob)
    · cases hLeaves
  | answer answer capacity =>
    cases answer with
    | dispatched =>
      rw [leaves] at hLeaves
      split at hLeaves
      · next review hJob =>
        rw [act, hJob] at h
        cases h
        exact timed_out_loss hJob rfl (hSound.job _ hJob).1
      · cases hLeaves
    | _ => cases hLeaves
  | _ => cases hLeaves

theorem act_move (hSound : v.Sound) {a : Act} (hStays : v.leaves a = false) (h : v.act a = some t) : Move v t := by
  have hStep := hSound.step
  cases a with
  | submitInput raw =>
    rw [act] at h
    split at h
    · next error hAt =>
      cases h
      have hHere := free_at hAt rfl
      rw [submitInput]
      split_ifs
      · exact .shown hHere (plain_input _ _)
      · exact .shown hHere (plain_input _ _)
      · exact launch_move hHere ⟨trivial, rfl, rfl⟩
    · cases h
  | abortResolve =>
    rw [act] at h
    split at h
    · next error hAt =>
      cases h
      have hNext : ∀ next : Job, none = some next → next.Plain := by rintro _ ⟨⟩
      exact .cancelled (free_at hAt rfl) (.inr (plain_input _ _)) hNext
    · cases h
  | key key =>
    rw [act] at h
    split at h
    · next amount hAt =>
      cases h
      rw [hAt] at hStep
      exact .shown (free_at hAt rfl) (plain_amount hStep)
    · cases h
  | sendMax =>
    rw [act] at h
    split at h
    · next amount hAt =>
      split_ifs at h
      cases h
      rw [hAt] at hStep
      have hHere := free_at hAt rfl
      rw [setOnchainSendMax]
      split_ifs
      · exact launch_move hHere ⟨trivial, rfl, rfl⟩
      · exact (.shown hHere (hAt ▸ plain_amount hStep) : Move v (v.display v.step))
    · cases h
  | lnAvailable capacity =>
    rw [act] at h
    split at h
    · next amount hAt =>
      split_ifs at h
      cases h
      rw [hAt] at hStep
      have hHere := free_at hAt rfl
      rw [setLightningAvailable]
      split_ifs
      · exact (.shown hHere (hAt ▸ plain_amount hStep) : Move v (v.display v.step))
      · exact .shown hHere (plain_amount hStep)
    · cases h
  | next =>
    rw [act] at h
    split at h
    · next amount hAt =>
      split_ifs at h
      cases h
      rw [hAt] at hStep
      have hHere := free_at hAt rfl
      rw [submitAmountStep]
      split_ifs
      · exact (.shown hHere (hAt ▸ plain_amount hStep) : Move v (v.display v.step))
      · exact launch_move hHere ⟨hStep, rfl, rfl⟩
    · cases h
  | backToInput =>
    rw [act] at h
    split at h
    · next amount hAt =>
      cases h
      exact .shown (free_at hAt rfl) (plain_input _ _)
    · cases h
  | back =>
    rw [act] at h
    split at h
    · next review hAt =>
      cases h
      rw [hAt] at hStep
      obtain ⟨step, hBack, hPlain⟩ := back_plain v hStep.2
      rw [hBack]
      exact .shown (free_at hAt rfl) hPlain
    · next review hAt =>
      cases h
      rw [leaves, hAt] at hStays
      rw [hAt] at hStep
      obtain ⟨step, hBack, hPlain⟩ := back_plain v hStep
      rw [hBack]
      exact .shown (free_at hAt hStays) hPlain
    · cases h
  | confirm =>
    rw [act] at h
    split at h
    · next review hAt =>
      cases h
      exact .confirmed (.lightning review) (free_at hAt rfl) hAt
    · next review hAt =>
      split_ifs at h with hFree
      cases h
      exact .confirmed (.onchain review) (free_at hAt (Bool.eq_false_iff.mpr hFree)) hAt
    · cases h
  | retry =>
    rw [act] at h
    split at h
    · next message review hAt =>
      cases h
      rw [hAt] at hStep
      obtain ⟨hFree, hBack⟩ := hStep review rfl
      exact .shown (free_at hAt rfl) (plain_reviewOnchain hFree hBack)
    · cases h
  | run capacity =>
    obtain ⟨job, hJob, hRun⟩ := Option.bind_eq_some_iff.mp h
    exact run_move hSound hJob capacity hRun
  | answer answer capacity =>
    obtain ⟨job, hJob, hResume⟩ := Option.bind_eq_some_iff.mp h
    exact resume_move hSound hJob hStays hResume
  | event event =>
    rw [act] at h
    cases hJob : v.job with
    | none =>
      rw [hJob] at h
      cases h
      exact .heard event
    | some job =>
      rw [hJob] at h
      cases h
      exact hear_move hJob event
  | timeOut =>
    obtain ⟨job, hJob, hTimeOut⟩ := Option.bind_eq_some_iff.mp h
    exact timeOut_move hSound hJob hStays hTimeOut
  | leave =>
    cases h
    exact .left (Option.not_isSome_iff_eq_none.mp (Bool.eq_false_iff.mp hStays))

/-! ## What a move keeps -/

theorem settle_cases (v : Visit) {review : ReviewLightning} {event : Event}
    (hCounts : isPaymentOutcome event review.target.paymentHash = true) :
    ∃ step, v.settle review (some event) = v.go step none ∧ step.Sound ∧ step.busy = false ∧
      ∀ sats txid, step = .success sats txid →
        txid = none ∧ applyOutcome review.amountMsat review.target.paymentHash event = some (.success sats none) := by
  rw [settle, Option.bind_some, applyOutcome.eq_def, if_pos hCounts]
  cases event with
  | paymentSuccessful paymentHash feePaidMsat =>
    refine ⟨_, rfl, trivial, rfl, ?_⟩
    rintro _ _ ⟨⟩
    exact ⟨rfl, rfl⟩
  | paymentFailed paymentHash reason => exact ⟨_, rfl, by rintro _ ⟨⟩, rfl, by rintro _ _ ⟨⟩⟩
  | _ => cases hCounts

end Visit

theorem Review.confirming_sound {review : Review} (h : review.step.Sound) : review.confirming.Sound := by
  cases review with
  | lightning review => trivial
  | onchain review => exact h

theorem Review.face_sound {review : Review} (h : review.confirming.Sound) : review.face.Sound := by
  cases review with
  | lightning review => trivial
  | onchain review => exact h

theorem Review.sending_sound {review : Review} {order : Order} (h : review.confirming.Sound)
    (hOrder : review.order = some order) : review.sending.Sound := by
  cases review with
  | lightning review =>
    refine ⟨fun hNone => ?_, by rintro _ ⟨⟩⟩
    exact Option.some_ne_none order (hOrder.symm.trans hNone)
  | onchain review => exact h

namespace Visit

variable {v t : Visit}

theorem sound_of {next : Option Job} (hJob : ∀ job, next = some job → job.Plain) (job : Job) (h : next = some job) :
    job.Sound :=
  (hJob job h).sound

theorem start_sound : start.Sound := ⟨trivial, by rintro _ ⟨⟩⟩

theorem Move.sound (h : Move v t) (hSound : v.Sound) : t.Sound := by
  have hKept : ∀ {step : SendStep}, step = v.step ∨ step.Plain → step.Sound := by
    rintro step (rfl | hStep)
    · exact hSound.step
    · exact hStep.sound
  cases h with
  | shown _ hStep => exact ⟨hStep.sound, hSound.job⟩
  | cancelled _ hStep hNext => exact ⟨hKept hStep, sound_of hNext⟩
  | confirmed _ _ hReview =>
    refine ⟨hSound.step, ?_⟩
    rintro _ ⟨⟩
    exact Review.confirming_sound (hReview ▸ hSound.step)
  | went _ _ hStep hNext => exact ⟨hKept hStep, sound_of hNext⟩
  | ordered _ hJob hOrder =>
    refine ⟨Review.face_sound (hSound.job _ hJob), ?_⟩
    rintro _ ⟨⟩
    exact Review.sending_sound (hSound.job _ hJob) hOrder
  | carried _ _ _ hNext _ =>
    refine ⟨hSound.step, ?_⟩
    rintro _ ⟨⟩
    exact hNext
  | heard event => exact ⟨hSound.step, hSound.job⟩
  | noted hJob hCounts =>
    refine ⟨hSound.step, ?_⟩
    rintro _ ⟨⟩
    refine ⟨(hSound.job _ hJob).1, ?_⟩
    rintro _ ⟨⟩
    exact hCounts
  | settled _ hCounts =>
    obtain ⟨step, hSettle, hStep, -, -⟩ := settle_cases v hCounts
    rw [hSettle]
    exact ⟨hStep, by rintro _ ⟨⟩⟩
  | @decided _ event _ hCounts =>
    obtain ⟨step, hSettle, hStep, -, -⟩ := settle_cases (v.record (.event event)) hCounts
    rw [hSettle]
    exact ⟨hStep, by rintro _ ⟨⟩⟩
  | returned _ => exact ⟨trivial, by rintro _ ⟨⟩⟩
  | ended _ hStep => exact ⟨hStep.sound, by rintro _ ⟨⟩⟩
  | left _ => exact ⟨trivial, by rintro _ ⟨⟩⟩

theorem Loss.sound (h : Loss v t) (hSound : v.Sound) : t.Sound := by
  cases h with
  | hidden _ _ hStep => exact ⟨hStep.sound, hSound.job⟩
  | unanswered _ hStep => exact ⟨hStep.sound, by rintro _ ⟨⟩⟩

theorem act_sound (hSound : v.Sound) {a : Act} (h : v.act a = some t) : t.Sound := by
  cases hLeaves : v.leaves a with
  | false => exact (act_move hSound hLeaves h).sound hSound
  | true => exact (act_loss hSound hLeaves h).sound hSound

end Visit

end WalletCore.SendFlow
