import WalletCore.SendFlow.Reviewed

/-! # The order under way is on the screen

While the coroutine has an order under way the screen shows it, and no other coroutine takes its place: no
result is lost and no second order begins. This holds of a run exactly when three things stay away, all of which
the source allows: Back on an on-chain review whose order is under way, the end of the visit before the result, and
a payment that outlives the time it is waited for.
-/

namespace WalletCore.SendFlow

open Lib Events

namespace Visit

/-- What the coroutine orders is shown, and no order was given up without its result. -/
structure OnScreen (v : Visit) : Prop where
  shown : ∀ review, v.job.bind Job.sent = some review → v.step = review.face
  kept : v.abandoned = []

/-- A screen that shows an order under way has its coroutine. -/
def Attended (v : Visit) : Prop := v.step.busy = true → ∃ review, v.job.bind Job.sent = some review ∧ v.step = review.face

variable {v t : Visit}

theorem OnScreen.not_sent (h : v.OnScreen) (hHere : v.step.busy = false) : v.job.bind Job.sent = none := by
  cases hSent : v.job.bind Job.sent with
  | none => rfl
  | some review =>
    rw [h.shown review hSent, Review.face_busy] at hHere
    cases hHere

theorem not_sent_of_plain {next : Option Job} (h : ∀ job, next = some job → job.Plain) : next.bind Job.sent = none :=
  Option.bind_eq_none_iff.mpr fun job hJob => (h job hJob).unsent

theorem onScreen_of_not_sent (hSent : t.job.bind Job.sent = none) (hKept : t.abandoned = []) : t.OnScreen :=
  ⟨fun _ hReview => (Option.some_ne_none _ (hReview.symm.trans hSent)).elim, hKept⟩

theorem attended_of_free (h : t.step.busy = false) : t.Attended := fun hBusy =>
  (Bool.false_ne_true (h.symm.trans hBusy)).elim

theorem OnScreen.not_ordered (h : v.OnScreen) (hHere : v.step.busy = false) : v.job.bind Job.order = none := by
  rw [Option.bind_eq_none_iff]
  intro job hJob
  refine Job.order_of_not_sent ?_
  have hSent := h.not_sent hHere
  rw [hJob] at hSent
  exact hSent

theorem OnScreen.cancel_kept (h : v.OnScreen) (hOrder : v.job.bind Job.order = none) : v.cancel.abandoned = [] := by
  rw [cancel, giveUp, hOrder, h.kept, Option.toList_none, List.nil_append]

theorem Move.attended (hMove : Move v t) (h : v.Attended) : t.Attended := by
  cases hMove with
  | shown _ hStep => exact attended_of_free hStep.free
  | cancelled hHere hStep _ =>
    refine attended_of_free ?_
    rcases hStep with rfl | hStep
    · exact hHere
    · exact hStep.free
  | confirmed _ hHere _ => exact attended_of_free hHere
  | went hJob hPlain hStep _ =>
    refine attended_of_free ?_
    rcases hStep with rfl | hStep
    · -- A coroutine that orders nothing is behind no such screen.
      rw [go, Bool.eq_false_iff]
      intro hBusy
      obtain ⟨review, hSent, -⟩ := h hBusy
      rw [hJob, Option.bind_some, hPlain.unsent] at hSent
      cases hSent
    · exact hStep.free
  | ordered review _ _ => exact fun _ => ⟨review, Job.sending_sent review, rfl⟩
  | carried hJob _ hNext _ _ =>
    intro hBusy
    obtain ⟨review, hSent, hStep⟩ := h hBusy
    rw [hJob] at hSent
    exact ⟨review, hNext.trans hSent, hStep⟩
  | heard event => exact h
  | noted hJob _ =>
    intro hBusy
    obtain ⟨review, hSent, hStep⟩ := h hBusy
    rw [hJob] at hSent
    exact ⟨review, hSent, hStep⟩
  | settled _ hCounts =>
    obtain ⟨step, hSettle, -, hFree, -⟩ := settle_cases v hCounts
    rw [hSettle]
    exact attended_of_free hFree
  | @decided _ event _ hCounts =>
    obtain ⟨step, hSettle, -, hFree, -⟩ := settle_cases (v.record (.event event)) hCounts
    rw [hSettle]
    exact attended_of_free hFree
  | returned _ => exact attended_of_free rfl
  | ended _ hStep => exact attended_of_free hStep.free
  | left _ => exact attended_of_free rfl

theorem Move.onScreen (hMove : Move v t) (h : v.OnScreen) : t.OnScreen := by
  cases hMove with
  | shown hHere _ => exact onScreen_of_not_sent (h.not_sent hHere) h.kept
  | cancelled hHere _ hNext =>
    exact onScreen_of_not_sent (not_sent_of_plain hNext) (h.cancel_kept (h.not_ordered hHere))
  | confirmed _ hHere _ =>
    refine onScreen_of_not_sent ?_ (h.cancel_kept (h.not_ordered hHere))
    exact Job.sent_of_confirmed (Job.confirming_confirmed _)
  | went _ _ _ hNext => exact onScreen_of_not_sent (not_sent_of_plain hNext) h.kept
  | ordered review _ _ =>
    refine ⟨fun other hSent => ?_, h.kept⟩
    cases (Job.sending_sent review).symm.trans hSent
    rfl
  | carried hJob _ hNext _ _ =>
    refine ⟨fun review hSent => h.shown review ?_, h.kept⟩
    rw [hJob]
    exact hNext.symm.trans hSent
  | heard event => exact ⟨h.shown, h.kept⟩
  | noted hJob _ =>
    refine ⟨fun review hSent => h.shown review ?_, h.kept⟩
    rw [hJob]
    exact hSent
  | settled _ hCounts =>
    obtain ⟨step, hSettle, -⟩ := settle_cases v hCounts
    rw [hSettle]
    exact onScreen_of_not_sent rfl h.kept
  | @decided _ event _ hCounts =>
    obtain ⟨step, hSettle, -⟩ := settle_cases (v.record (.event event)) hCounts
    rw [hSettle]
    exact onScreen_of_not_sent rfl h.kept
  | returned _ => exact onScreen_of_not_sent rfl h.kept
  | ended _ _ => exact onScreen_of_not_sent rfl h.kept
  | left hOrder => exact onScreen_of_not_sent rfl (h.cancel_kept hOrder)

theorem Loss.attended (hLoss : Loss v t) : t.Attended := by
  cases hLoss with
  | hidden _ _ hStep => exact attended_of_free hStep.free
  | unanswered _ hStep => exact attended_of_free hStep.free

theorem Loss.not_onScreen (hLoss : Loss v t) (h : v.Attended) : ¬ t.OnScreen := by
  intro hShown
  cases hLoss with
  | @hidden review step hAt hBusy hStep =>
    obtain ⟨sent, hSent, -⟩ := h (hAt ▸ hBusy)
    have hFree := hStep.free
    rw [show step = sent.face from hShown.shown sent hSent, Review.face_busy] at hFree
    cases hFree
  | unanswered hOrder _ =>
    have hKept := hShown.kept
    rw [display, giveUp, hOrder] at hKept
    cases hKept

/-- The step that decides: a loss takes the order off the screen, and nothing else does. -/
theorem act_onScreen (hInv : v.Sound ∧ v.Attended) {a : Act} (hAct : v.act a = some t) :
    (t.Sound ∧ t.Attended) ∧ (v.OnScreen → (t.OnScreen ↔ v.leaves a = false)) := by
  cases hLeaves : v.leaves a with
  | false =>
    have hMove := act_move hInv.1 hLeaves hAct
    exact ⟨⟨hMove.sound hInv.1, hMove.attended hInv.2⟩, fun h => iff_of_true (hMove.onScreen h) rfl⟩
  | true =>
    have hLoss := act_loss hInv.1 hLeaves hAct
    refine ⟨⟨hLoss.sound hInv.1, hLoss.attended⟩, fun _ => ?_⟩
    exact iff_of_false (hLoss.not_onScreen hInv.2) Bool.noConfusion

theorem start_onScreen : start.OnScreen := onScreen_of_not_sent rfl rfl

end Visit

/-! ## The result -/

theorem send_on_screen {v : Visit} {acts : List Act} (hRun : exec Visit.act .start acts = some v) :
    Along Visit.act (fun v a => v.leaves a = false) .start acts ↔
      ∀ before after u, acts = before ++ after → exec Visit.act .start before = some u → u.OnScreen := by
  have hAny : Along Visit.act (fun _ _ => True) .start acts := along_of_forall (fun _ _ => trivial) _
  exact along_iff_prefixes (I := fun v => v.Sound ∧ v.Attended)
    (fun _ _ _ hInv _ hAct => Visit.act_onScreen hInv hAct) ⟨Visit.start_sound, Visit.attended_of_free rfl⟩
    Visit.start_onScreen hAny hRun

def coldAddress : ClassifiedView where
  kind := .onchain
  bolt11 := none
  paymentHash := none
  offer := none
  amountMsat := none
  description := none
  address := some "bc1q"
  amountSats := some 5000
  error := none

/-- The request to send it is classified, reviewed and confirmed. -/
def coldSend : List Act :=
  let capacity : Capacity := ⟨0, 20000⟩
  [.submitInput "bc1q", .run capacity, .answer (.classified coldAddress) capacity, .answer (.fee ⟨150, 3⟩) capacity,
    .confirm, .run capacity]

/-- The same for an invoice; the core takes the payment. -/
def invoiceSend : List Act :=
  let capacity : Capacity := ⟨21000, 0⟩
  [.submitInput " lnbc1", .run capacity, .answer (.classified openInvoice) capacity, .lnAvailable capacity, .next,
    .run capacity, .confirm, .run capacity, .answer .dispatched capacity]

/-- Results that come in, over two visits; then an order that is left behind in each of the ways. -/
theorem send_on_screen_coldSend :
    (∃ v, exec Visit.act .start (coldSend ++ [.answer (.sent "t") ⟨0, 20000⟩, .leave] ++ invoiceSend ++
        [.event (.paymentSuccessful "h1" none)]) = some v ∧ v.step = .success 21 none ∧
      ∀ before after u, coldSend ++ [.answer (.sent "t") ⟨0, 20000⟩, .leave] ++ invoiceSend ++
        [.event (.paymentSuccessful "h1" none)] = before ++ after → exec Visit.act .start before = some u → u.OnScreen) ∧
    ∀ acts ∈ [coldSend ++ .back :: coldSend, coldSend ++ .leave :: coldSend, invoiceSend ++ .timeOut :: .leave :: invoiceSend],
      ∃ v, exec Visit.act .start acts = some v ∧ v.abandoned.length = 1 ∧ (v.job.bind Job.order).isSome = true ∧
        ¬ ∀ before after u, acts = before ++ after → exec Visit.act .start before = some u → u.OnScreen := by
  constructor
  · have hEnd : (exec Visit.act .start (coldSend ++ [.answer (.sent "t") ⟨0, 20000⟩, .leave] ++ invoiceSend ++
        [.event (.paymentSuccessful "h1" none)])).map Visit.step = some (.success 21 none) := by decide +kernel
    obtain ⟨v, hRun, hShown⟩ := Option.map_eq_some_iff.mp hEnd
    exact ⟨v, hRun, hShown, (send_on_screen hRun).mp (by decide +kernel)⟩
  · intro acts hActs
    have hEnd : (exec Visit.act .start acts).map (fun v => (v.abandoned.length, (v.job.bind Job.order).isSome)) =
        some (1, true) := by
      revert acts
      decide +kernel
    have hLost : ¬ Along Visit.act (fun v a => v.leaves a = false) .start acts := by
      revert acts
      decide +kernel
    obtain ⟨v, hRun, hOrders⟩ := Option.map_eq_some_iff.mp hEnd
    refine ⟨v, hRun, congrArg Prod.fst hOrders, congrArg Prod.snd hOrders, fun h => ?_⟩
    exact hLost ((send_on_screen hRun).mpr h)

end WalletCore.SendFlow
