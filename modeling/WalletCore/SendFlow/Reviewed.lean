import WalletCore.SendFlow.Moves

/-! # What is sent is what was reviewed

Whatever the order of taps, answers and events, every order is one that the user confirmed on the review that
was on the screen, once, and for the amount shown there. A success is only shown for the last order, and after
the core has reported it.
-/

namespace WalletCore.SendFlow

open Lib Events

/-! ## The trace -/

def Moment.review : Moment → Option Review
  | .confirmed review => some review
  | _ => none

def Moment.order : Moment → Option Order
  | .ordered order => some order
  | _ => none

/-- The reviews that were confirmed, the newest first. -/
def confirms (trace : List Moment) : List Review := trace.filterMap Moment.review

def orders (trace : List Moment) : List Order := trace.filterMap Moment.order

/-- What came after the last order. -/
def since (trace : List Moment) : List Moment := trace.takeWhile (·.order.isNone)

/-- The success of the last order: of a payment, by an event that counts for its hash; on chain, by its txid. -/
def Backs (trace : List Moment) (sats : UInt64) (txid : Option String) : Prop :=
  ∃ review order, (confirms trace).head? = some review ∧ review.order = some order ∧ (orders trace).head? = some order ∧
    match review, txid with
    | .lightning review, none => ∃ event, .event event ∈ since trace ∧
        applyOutcome review.amountMsat review.target.paymentHash event = some (.success sats none)
    | .onchain review, some txid => sats = review.amountSats ∧ .returned txid ∈ since trace
    | _, _ => False

theorem mem_since_cons {moment other : Moment} {trace : List Moment} (hOther : other.order = none)
    (h : moment ∈ since trace) : moment ∈ since (other :: trace) := by
  rw [since, List.takeWhile_cons_of_pos (by rw [hOther]; rfl)]
  exact List.mem_cons_of_mem _ h

theorem mem_since_self {moment : Moment} (h : moment.order = none) (trace : List Moment) :
    moment ∈ since (moment :: trace) := by
  rw [since, List.takeWhile_cons_of_pos (by rw [h]; rfl)]
  exact List.mem_cons_self

theorem Backs.later {trace : List Moment} {sats : UInt64} {txid : Option String} (h : Backs trace sats txid)
    {moment : Moment} (hReview : moment.review = none) (hOrder : moment.order = none) :
    Backs (moment :: trace) sats txid := by
  obtain ⟨review, order, hConfirmed, hOrdered, hLast, hReport⟩ := h
  refine ⟨review, order, ?_, hOrdered, ?_, ?_⟩
  · rw [confirms, List.filterMap_cons_none hReview]
    exact hConfirmed
  · rw [orders, List.filterMap_cons_none hOrder]
    exact hLast
  · cases review with
    | lightning review =>
      cases txid with
      | none =>
        obtain ⟨event, hEvent, hOutcome⟩ := hReport
        exact ⟨event, mem_since_cons hOrder hEvent, hOutcome⟩
      | some txid => exact hReport
    | onchain review =>
      cases txid with
      | none => exact hReport
      | some txid => exact ⟨hReport.1, mem_since_cons hOrder hReport.2⟩

/-! ## The invariant -/

namespace Visit

structure Reviewed (v : Visit) : Prop where
  faithful : ∀ review, .lightning review ∈ confirms v.trace → review.Faithful
  /-- The review of a launched coroutine is the newest and has no order yet. -/
  ordered : ∃ before, confirms v.trace = (v.job.bind Job.confirmed).toList ++ before ∧
    (orders v.trace).Sublist (before.filterMap Review.order)
  last : ∀ job review, v.job = some job → job.sent = some review →
    (confirms v.trace).head? = some review ∧ ∃ order, review.order = some order ∧ (orders v.trace).head? = some order
  outcome : ∀ review event, v.job = some (.sendingLightning review (some (some event))) → .event event ∈ since v.trace
  success : ∀ sats txid, v.step = .success sats txid → Backs v.trace sats txid

variable {v t : Visit} {job : Job}

theorem start_reviewed : start.Reviewed where
  faithful := by rintro _ ⟨⟩
  ordered := ⟨[], rfl, .slnil⟩
  last := by rintro _ _ ⟨⟩
  outcome := by rintro _ _ ⟨⟩
  success := by rintro _ _ ⟨⟩

theorem Reviewed.all_orders (h : v.Reviewed) : (orders v.trace).Sublist ((confirms v.trace).filterMap Review.order) := by
  obtain ⟨before, hConfirms, hOrders⟩ := h.ordered
  rw [hConfirms, List.filterMap_append]
  exact hOrders.trans (List.sublist_append_right _ _)

/-- A coroutine that is not about to order leaves the orders to be those of any of the reviews. -/
theorem Reviewed.ordered_of (h : v.Reviewed) {next : Option Job} (hNext : next.bind Job.confirmed = none) :
    ∃ before, confirms v.trace = (next.bind Job.confirmed).toList ++ before ∧
      (orders v.trace).Sublist (before.filterMap Review.order) :=
  ⟨confirms v.trace, by rw [hNext, Option.toList_none, List.nil_append], h.all_orders⟩

theorem Reviewed.displayed (h : v.Reviewed) {step : SendStep} (hStep : step.Plain) : (v.display step).Reviewed where
  faithful := h.faithful
  ordered := h.ordered
  last := h.last
  outcome := h.outcome
  success := fun sats txid hAt => (hStep.open_end sats txid hAt).elim

theorem Reviewed.plain (h : v.Reviewed) (hTrace : t.trace = v.trace) (hStep : t.step = v.step ∨ t.step.Plain)
    (hJob : ∀ job, t.job = some job → job.Plain) : t.Reviewed where
  faithful := hTrace ▸ h.faithful
  ordered := by
    rw [hTrace]
    refine h.ordered_of (Option.bind_eq_none_iff.mpr fun job hAt => ?_)
    exact (hJob job hAt).unconfirmed
  last := by
    intro job review hAt hSent
    cases (hJob job hAt).unsent.symm.trans hSent
  outcome := by
    intro review event hAt
    cases (hJob _ hAt).unsent
  success := by
    intro sats txid hAt
    rcases hStep with hSame | hPlain
    · rw [hTrace]
      exact h.success sats txid (hSame ▸ hAt)
    · exact (hPlain.open_end sats txid hAt).elim

theorem Reviewed.recorded (h : v.Reviewed) {moment : Moment} (hReview : moment.review = none)
    (hOrder : moment.order = none) : (v.record moment).Reviewed where
  faithful := by
    rw [record, confirms, List.filterMap_cons_none hReview]
    exact h.faithful
  ordered := by
    rw [record, confirms, orders, List.filterMap_cons_none hReview, List.filterMap_cons_none hOrder]
    exact h.ordered
  last := by
    rw [record, confirms, orders, List.filterMap_cons_none hReview, List.filterMap_cons_none hOrder]
    exact h.last
  outcome := fun review event hAt => mem_since_cons hOrder (h.outcome review event hAt)
  success := fun sats txid hAt => (h.success sats txid hAt).later hReview hOrder

theorem Reviewed.confirmed (h : v.Reviewed) (hSound : v.Sound) {review : Review} (hReview : v.step = review.step) :
    (v.confirm review review.confirming).Reviewed where
  faithful := by
    intro faithful hMem
    rcases List.mem_cons.mp hMem with rfl | hMem
    · have hStep := hSound.step
      rw [hReview] at hStep
      exact hStep.1
    · exact h.faithful faithful hMem
  ordered := ⟨confirms v.trace, by cases review <;> rfl, h.all_orders⟩
  last := by
    rintro _ sent ⟨⟩ hSent
    cases review <;> cases hSent
  outcome := by
    intro sent event hAt
    cases review <;> cases hAt
  success := by
    intro sats txid hAt
    cases review <;> cases hReview.symm.trans hAt

theorem Reviewed.sent (h : v.Reviewed) {review : Review} {order : Order} (hJob : v.job = some review.confirming)
    (hOrder : review.order = some order) :
    ((v.record (.ordered order)).go review.face (some review.sending)).Reviewed := by
  obtain ⟨before, hConfirms, hOrders⟩ := h.ordered
  have hNewest : confirms v.trace = review :: before := by
    rw [hConfirms, hJob]
    cases review <;> rfl
  refine ⟨h.faithful, ⟨review :: before, ?_, ?_⟩, ?_, ?_, ?_⟩
  · rw [← hNewest]
    cases review <;> rfl
  · rw [List.filterMap_cons_some hOrder]
    exact hOrders.cons_cons order
  · rintro _ sent ⟨⟩ hSent
    cases (Job.sending_sent review).symm.trans hSent
    exact ⟨congrArg List.head? hNewest, order, hOrder, rfl⟩
  · intro sent event hAt
    cases review <;> cases hAt
  · exact fun sats txid hAt => (review.face_ne_success sats txid hAt).elim

theorem Reviewed.carried (h : v.Reviewed) {next : Job} (hJob : v.job = some job) (hSent : job.sent.isSome)
    (hNext : next.sent = job.sent)
    (hOutcome : ∀ review event, next = .sendingLightning review (some (some event)) → .event event ∈ since v.trace) :
    (v.go v.step (some next)).Reviewed where
  faithful := h.faithful
  ordered := by
    obtain ⟨review, hReview⟩ := Option.isSome_iff_exists.mp hSent
    exact h.ordered_of (Job.confirmed_of_sent (hNext.trans hReview))
  last := by
    rintro _ review ⟨⟩ hReview
    exact h.last job review hJob (hNext.symm.trans hReview)
  outcome := by
    rintro review event ⟨⟩
    exact hOutcome review event rfl
  success := h.success

theorem Reviewed.reported (h : v.Reviewed) {review : ReviewLightning} {event : Event} (hJob : v.job = some job)
    (hSent : job.sent = some (.lightning review))
    (hCounts : isPaymentOutcome event review.target.paymentHash = true) (hEvent : .event event ∈ since v.trace) :
    (v.settle review (some event)).Reviewed := by
  obtain ⟨step, hSettle, -, -, hSuccess⟩ := settle_cases v hCounts
  obtain ⟨hConfirmed, order, hOrder, hLast⟩ := h.last job _ hJob hSent
  rw [hSettle]
  refine ⟨h.faithful, h.ordered_of rfl, by rintro _ _ ⟨⟩, by rintro _ _ ⟨⟩, fun sats txid hAt => ?_⟩
  obtain ⟨rfl, hOutcome⟩ := hSuccess sats txid hAt
  exact ⟨.lightning review, order, hConfirmed, hOrder, hLast, event, hEvent, hOutcome⟩

theorem Reviewed.returned (h : v.Reviewed) {review : ReviewOnchain} (hJob : v.job = some (.sendingOnchain review))
    {txid : String} (hReturned : .returned txid ∈ since v.trace) :
    (v.go (.success review.amountSats (some txid)) none).Reviewed := by
  obtain ⟨hConfirmed, order, hOrder, hLast⟩ := h.last _ _ hJob rfl
  refine ⟨h.faithful, h.ordered_of rfl, by rintro _ _ ⟨⟩, by rintro _ _ ⟨⟩, ?_⟩
  rintro _ _ ⟨⟩
  exact ⟨.onchain review, order, hConfirmed, hOrder, hLast, rfl, hReturned⟩

theorem Move.reviewed (hMove : Move v t) (hSound : v.Sound) (h : v.Reviewed) : t.Reviewed := by
  cases hMove with
  | shown _ hStep => exact h.displayed hStep
  | cancelled _ hStep hNext => exact h.plain rfl hStep hNext
  | confirmed _ _ hReview => exact h.confirmed hSound hReview
  | went _ _ hStep hNext => exact h.plain rfl hStep hNext
  | ordered _ hJob hOrder => exact h.sent hJob hOrder
  | carried hJob hSent hNext _ hOutcome =>
    exact h.carried hJob hSent hNext fun review event hAt => (hOutcome review event hAt).elim
  | heard event => exact h.recorded rfl rfl
  | noted hJob _ =>
    refine (h.recorded rfl rfl).carried hJob rfl rfl ?_
    rintro _ _ ⟨⟩
    exact mem_since_self rfl v.trace
  | settled hJob hCounts => exact h.reported hJob rfl hCounts (h.outcome _ _ hJob)
  | decided hJob hCounts => exact (h.recorded rfl rfl).reported hJob rfl hCounts (mem_since_self rfl v.trace)
  | returned hJob => exact (h.recorded rfl rfl).returned hJob (mem_since_self rfl v.trace)
  | ended _ hStep => exact h.plain rfl (.inr hStep) (by rintro _ ⟨⟩)
  | left _ => exact h.plain rfl (.inr (plain_input _ _)) (by rintro _ ⟨⟩)

theorem Loss.reviewed (hLoss : Loss v t) (h : v.Reviewed) : t.Reviewed := by
  cases hLoss with
  | hidden _ _ hStep => exact h.displayed hStep
  | unanswered _ hStep => exact h.plain rfl (.inr hStep) (by rintro _ ⟨⟩)

theorem act_reviewed (hSound : v.Sound) (h : v.Reviewed) {a : Act} (hAct : v.act a = some t) : t.Reviewed := by
  cases hLeaves : v.leaves a with
  | false => exact (act_move hSound hLeaves hAct).reviewed hSound h
  | true => exact (act_loss hSound hLeaves hAct).reviewed h

theorem exec_reviewed {acts : List Act} (hRun : exec act start acts = some v) : v.Sound ∧ v.Reviewed :=
  exec_inv_all (P := fun v => v.Sound ∧ v.Reviewed)
    (fun _ _ _ h hAct => ⟨act_sound h.1 hAct, act_reviewed h.1 h.2 hAct⟩) ⟨start_sound, start_reviewed⟩ hRun

end Visit

/-! ## The result -/

theorem send_as_reviewed {v : Visit} {acts : List Act} (hRun : exec Visit.act .start acts = some v) :
    (orders v.trace).Sublist ((confirms v.trace).filterMap Review.order) ∧
      (∀ review, .lightning review ∈ confirms v.trace →
        review.target.amountMsat.getD review.amountMsat = review.amountMsat) ∧
      ∀ sats txid, v.step = .success sats txid → Backs v.trace sats txid := by
  obtain ⟨-, hReviewed⟩ := Visit.exec_reviewed hRun
  exact ⟨hReviewed.all_orders, hReviewed.faithful, hReviewed.success⟩

def openInvoice : ClassifiedView where
  kind := .bolt11
  bolt11 := some "lnbc1"
  paymentHash := some "h1"
  offer := none
  amountMsat := none
  description := none
  address := none
  amountSats := none
  error := none

/-- An earlier payment succeeds in the meantime. -/
def paidRun : List Act :=
  let capacity : Capacity := ⟨21000, 0⟩
  [.submitInput " lnbc1", .run capacity, .answer (.classified openInvoice) capacity, .lnAvailable capacity, .next,
    .run capacity, .confirm, .run capacity, .event (.paymentSuccessful "h0" none), .answer .dispatched capacity,
    .event (.paymentSuccessful "h1" none)]

theorem send_as_reviewed_paid :
    ∃ v, exec Visit.act .start paidRun = some v ∧ orders v.trace = [.bolt11 "lnbc1" (some 21000)] ∧
      Backs v.trace 21 none := by
  have hEnd : (exec Visit.act .start paidRun).map (fun v => (v.step, orders v.trace)) =
      some (.success 21 none, [.bolt11 "lnbc1" (some 21000)]) := by decide +kernel
  obtain ⟨v, hRun, hShown⟩ := Option.map_eq_some_iff.mp hEnd
  obtain ⟨-, -, hSuccess⟩ := send_as_reviewed hRun
  exact ⟨v, hRun, congrArg Prod.snd hShown, hSuccess 21 none (congrArg Prod.fst hShown)⟩

end WalletCore.SendFlow
