import WalletCore.ReceiveFlow.Controller

/-! # The code on the screen is the one that was asked for

While nothing is under way, the code on the screen is the core's last answer, for the amount that stands above
it, and the payment that is awaited is the one of its invoice. An invoice expires on the screen only after its
time, also when timers of earlier ones still run. What breaks this is a request for a code that fails: it leaves
the old code on the screen and takes the awaited payment and the name of its invoice away.
-/

namespace WalletCore.ReceiveFlow

open Lib Events Liquidity SendFlow

/-! ## The trace -/

def Moment.isPaid : Moment → Bool
  | .paid _ => true
  | _ => false

/-- The core's last answer for the screen. -/
def latest (trace : List Moment) : Option Moment := trace.find? fun moment => !moment.isPaid

/-- The payments since then. -/
def recent (trace : List Moment) : List Moment := trace.takeWhile Moment.isPaid

namespace Moment

def amountSats : Moment → UInt64
  | .bundle amountSats _ | .accepted amountSats .. => amountSats
  | .paid _ => 0

def paymentHash : Moment → Option String
  | .bundle _ found => found.paymentHash
  | .accepted _ invoice _ => some invoice.paymentHash
  | .paid _ => none

/-- The code and what belongs to it are those of the answer. -/
def Describes (state : ReceiveUiState) : Moment → Prop
  | .bundle _ found => state.bip321Uri = found.bip321Uri ∧ state.qrValue = found.qrValue ∧
      state.paymentHash = found.paymentHash ∧ state.openingFeeSats = none ∧ state.expiresAtUnix = none
  | .accepted amountSats invoice address =>
      let uri := Receive.buildBip321Uri address (some amountSats) (some invoice.bolt11)
      state.bip321Uri = uri ∧ state.qrValue = Receive.toUppercase uri ∧
        state.paymentHash = some invoice.paymentHash ∧
        state.openingFeeSats = some (msatToSatCeil invoice.openingFeeMsat.toInt64).toUInt64 ∧
        state.expiresAtUnix = some invoice.expiresAtUnix
  | .paid _ => False

/-- The screen says what kind of invoice the code has. -/
def Labels (state : ReceiveUiState) : Moment → Prop
  | .bundle _ found => state.step = .display (if found.bolt11.isSome then .standard else .none)
  | .accepted .. => state.step = .display .jit
  | .paid _ => False

/-- The code has an invoice in it. -/
def hasInvoice : Moment → Bool
  | .bundle _ found => found.bolt11.isSome
  | .accepted .. => true
  | .paid _ => false

theorem Describes.paymentHash_eq {state : ReceiveUiState} {moment : Moment} (h : moment.Describes state) :
    state.paymentHash = moment.paymentHash := by
  cases moment with
  | bundle amountSats found => exact h.2.2.1
  | accepted amountSats invoice address => exact h.2.2.1
  | paid event => cases h

end Moment

theorem latest_answer {moment : Moment} (h : moment.isPaid = false) (trace : List Moment) :
    latest (moment :: trace) = some moment := by
  rw [latest, List.find?_cons_of_pos (by rw [h]; rfl)]

/-! ## The screen -/

/-- The parts that come after the first code and before a payment. -/
def Screen.ready : Screen → Bool
  | .received | .loading | .loadError => false
  | _ => true

theorem not_ready {state : ReceiveUiState} (h : state.loading = true ∨ state.loadError.isSome = true) :
    state.screen.ready = false := by
  rw [ReceiveUiState.screen]
  cases state.step with
  | received amountSats => rfl
  | _ =>
    dsimp only
    by_cases hLoading : state.loading = true
    · rw [if_pos hLoading]
      rfl
    · rw [if_neg hLoading, if_pos (h.resolve_left hLoading)]
      rfl

theorem step_of_entry {state : ReceiveUiState} (hOn : state.screen = .entry) (amountSats : UInt64) (quote : JitQuote)
    (updated : Bool) : state.step ≠ .jitReview amountSats quote updated := by
  intro hStep
  rw [ReceiveUiState.screen, hStep] at hOn
  dsimp only at hOn
  split_ifs at hOn

/-! ## The invariant -/

/-- What the request is for; nothing before the screen is loaded. -/
def Request.amountSats : Request → Option UInt64
  | .usableInbound | .minReceive _ | .entry _ => none
  | .bundle amountSats | .quote amountSats _ | .floor amountSats | .buy amountSats _ | .accept amountSats _
  | .compose amountSats _ => some amountSats

/-- The request is for a code of its own. -/
def Request.renews : Request → Bool
  | .bundle _ => true
  | _ => false

/-- The step shows no invoice and no payment; a review is for the amount that was confirmed, and the code alone
is one without an invoice. -/
def ReceiveStep.Bare (bundle : ReceiveBundle) (confirmedSats : UInt64) : ReceiveStep → Prop
  | .jitReview amountSats .. => amountSats = confirmedSats
  | .display .none => bundle.bolt11.isSome = false
  | .quoting | .jitBelowMinimum .. | .buying | .jitError => True
  | _ => False

/-- What the screen does when a bundle is in: it waits for a quote, or shows the code. -/
def ReceiveStep.Follows (bundle : ReceiveBundle) (step : ReceiveStep) : Prop :=
  step = .quoting ∨ step = .display .none ∧ bundle.bolt11.isSome = false ∨
    step = .display .standard ∧ bundle.bolt11.isSome = true

theorem follows_display (bundle : ReceiveBundle) : (ReceiveStep.display (bundlePath bundle)).Follows bundle := by
  rw [bundlePath]
  split_ifs with hInvoice
  · exact .inr (.inr ⟨rfl, hInvoice⟩)
  · exact .inr (.inl ⟨rfl, eq_false_of_ne_true hInvoice⟩)

namespace Visit

structure Holds (v : Visit) : Prop where
  entering : latest v.trace = none → (v.state.loading = true ∨ v.state.loadError.isSome) ∧
    v.state.paymentHash = none ∧ v.state.confirmedDigits = []
  loading : ∀ request, v.requestJob = some request → request.amountSats = none → latest v.trace = none
  described : ∀ moment, latest v.trace = some moment → moment.Describes v.state
  asked : ∀ request amountSats, v.requestJob = some request → request.amountSats = some amountSats →
    amountSats = v.state.confirmedAmountSats
  answered : ∀ moment, latest v.trace = some moment → v.requestJob.any Request.renews = false →
    moment.amountSats = v.state.confirmedAmountSats
  /-- A quote, and all that comes of it, is for the code of a bundle. -/
  follows : ∀ request, v.requestJob = some request → request.amountSats.isSome → request.renews = false →
    ∃ amountSats bundle, latest v.trace = some (.bundle amountSats bundle)
  reviewed : ∀ amountSats quote updated, v.state.step = .jitReview amountSats quote updated →
    amountSats = v.state.confirmedAmountSats ∧ v.requestJob.any Request.renews = false ∧
      ∃ asked bundle, latest v.trace = some (.bundle asked bundle)
  standard : v.state.step = .display .standard → v.requestJob.any Request.renews = false →
    ∃ amountSats bundle, latest v.trace = some (.bundle amountSats bundle) ∧ bundle.bolt11.isSome
  running : v.state.step = .display .jit → ∃ amountSats invoice address deadline,
    latest v.trace = some (.accepted amountSats invoice address) ∧ v.expiryJob = some deadline ∧
      invoice.expiresAtUnix.toInt64.toInt ≤ deadline
  expired : v.state.step = .jitExpired → ∃ amountSats invoice address,
    latest v.trace = some (.accepted amountSats invoice address) ∧ invoice.expiresAtUnix.toInt64.toInt ≤ v.now
  bare : v.state.step = .display .none → v.requestJob.any Request.renews = false →
    ∀ moment, latest v.trace = some moment → moment.hasInvoice = false
  received : ∀ amountSats, v.state.step = .received amountSats → ∃ moment event,
    latest v.trace = some moment ∧ .paid event ∈ recent v.trace ∧
      applyPaymentReceived moment.paymentHash event = some amountSats

/-- A request for a code fails, and the code that stays is for another amount, has a payment that is awaited or
an invoice; or a first quote fails, and the code has an invoice. -/
def strands (v : Visit) : Act → Bool
  | .answer (.failed e) =>
    match v.requestJob with
    | some (.bundle amountSats) =>
      v.state.paymentHash.isSome ||
        (latest v.trace).any fun moment => moment.amountSats ≠ amountSats || moment.hasInvoice
    | some (.quote _ false) =>
      match classifyQuoteFailure e with
      | .belowMinimum _ => false
      | .other => (latest v.trace).any Moment.hasInvoice
    | _ => false
  | _ => false

variable {v t : Visit}

theorem Holds.exists_latest (h : v.Holds) (hAwaited : v.state.paymentHash ≠ none) :
    ∃ moment, latest v.trace = some moment := by
  cases hLatest : latest v.trace with
  | some moment => exact ⟨moment, rfl⟩
  | none => exact absurd (h.entering hLatest).2.1 hAwaited

theorem start_holds (now : Int) : (start now).Holds where
  entering := fun _ => ⟨.inl rfl, rfl, rfl⟩
  loading := fun _ _ _ => rfl
  described := by rintro _ ⟨⟩
  asked := by
    rintro _ _ ⟨⟩ hAmount
    cases hAmount
  answered := by rintro _ ⟨⟩
  follows := by
    rintro _ ⟨⟩ hSome
    cases hSome
  reviewed := by rintro _ _ _ ⟨⟩
  standard := by rintro ⟨⟩
  running := by rintro ⟨⟩
  expired := by rintro ⟨⟩
  bare := by rintro _ _ _ ⟨⟩
  received := by rintro _ ⟨⟩

/-! ## The user -/

/-- The numpad is typed on, opened or put away. -/
theorem Holds.typed (h : v.Holds) (amountDigits : List Char) (editingAmount : Bool) :
    (v.update fun state => { state with amountDigits := amountDigits, editingAmount := editingAmount }).Holds :=
  ⟨h.entering, h.loading, h.described, h.asked, h.answered, h.follows, h.reviewed, h.standard, h.running, h.expired,
    h.bare, h.received⟩

/-- The user asks for another code; the screen stays or waits. -/
theorem Holds.ask (h : v.Holds) (hLoaded : latest v.trace ≠ none) (amountDigits confirmedDigits : List Char)
    (editingAmount : Bool) {step : ReceiveStep} (hReview : ∀ amountSats quote updated, step ≠ .jitReview amountSats quote updated)
    (hStep : step = v.state.step ∨ step = .quoting ∨ step = .display .none) :
    ((v.update fun state =>
      { state with
        amountDigits := amountDigits
        confirmedDigits := confirmedDigits
        editingAmount := editingAmount
        step := step }).wait (some (.bundle (toULong confirmedDigits)))).Holds where
  entering := fun hNone => absurd hNone hLoaded
  loading := by
    rintro _ ⟨⟩ hNone
    cases hNone
  described := fun moment hLatest => by cases moment <;> exact h.described _ hLatest
  asked := by
    rintro _ _ ⟨⟩ hAmount
    cases hAmount
    rfl
  answered := by rintro _ _ ⟨⟩
  follows := by rintro _ ⟨⟩ _ ⟨⟩
  reviewed := fun amountSats quote updated hAt => absurd hAt (hReview amountSats quote updated)
  standard := by rintro _ ⟨⟩
  running := by
    rintro hAt
    obtain rfl | rfl | rfl := hStep
    · exact h.running hAt
    all_goals cases hAt
  expired := by
    rintro hAt
    obtain rfl | rfl | rfl := hStep
    · exact h.expired hAt
    all_goals cases hAt
  bare := by rintro _ ⟨⟩
  received := by
    rintro amountSats hAt
    obtain rfl | rfl | rfl := hStep
    · exact h.received amountSats hAt
    all_goals cases hAt

/-! ## The coroutine -/

theorem not_renews_of_loading {request : Request} (h : request.amountSats = none) : request.renews = false := by
  cases request with
  | bundle amountSats => cases h
  | _ => rfl

theorem Holds.loads (h : v.Holds) {request next : Request} (hJob : v.requestJob = some request)
    (hRequest : request.amountSats = none) (hNext : next.amountSats = none) : (v.wait (some next)).Holds where
  entering := h.entering
  loading := fun _ _ _ => h.loading request hJob hRequest
  described := h.described
  asked := by
    rintro _ _ ⟨⟩ hAmount
    cases hNext.symm.trans hAmount
  answered := fun moment hLatest => by cases (h.loading request hJob hRequest).symm.trans hLatest
  follows := by
    rintro _ ⟨⟩ hSome
    rw [hNext] at hSome
    cases hSome
  reviewed := fun amountSats quote updated hAt =>
    let ⟨hAmount, _, hLatest⟩ := h.reviewed amountSats quote updated hAt
    ⟨hAmount, not_renews_of_loading hNext, hLatest⟩
  standard := fun hAt _ => h.standard hAt (by rw [hJob, Option.any_some, not_renews_of_loading hRequest])
  running := h.running
  expired := h.expired
  bare := fun _ _ moment hLatest => by cases (h.loading request hJob hRequest).symm.trans hLatest
  received := h.received

theorem Holds.load (h : v.Holds) {request : Request} (hJob : v.requestJob = some request)
    (hRequest : request.amountSats = none) (e : ReceiveException) : (v.load e).Holds where
  entering := fun hNone => ⟨.inr rfl, (h.entering hNone).2⟩
  loading := by rintro _ ⟨⟩
  described := fun moment hLatest => by cases (h.loading request hJob hRequest).symm.trans hLatest
  asked := by rintro _ _ ⟨⟩
  answered := fun moment hLatest => by cases (h.loading request hJob hRequest).symm.trans hLatest
  follows := by rintro _ ⟨⟩
  reviewed := fun amountSats quote updated hAt =>
    let ⟨hAmount, _, hLatest⟩ := h.reviewed amountSats quote updated hAt
    ⟨hAmount, rfl, hLatest⟩
  standard := fun hAt _ => h.standard hAt (by rw [hJob, Option.any_some, not_renews_of_loading hRequest])
  running := h.running
  expired := h.expired
  bare := fun _ _ moment hLatest => by cases (h.loading request hJob hRequest).symm.trans hLatest
  received := h.received

/-- The request goes on from a bundle's code, or ends, with a step that shows no invoice or the one of before. -/
theorem Holds.rest (h : v.Holds) {asked : UInt64} {bundle : ReceiveBundle}
    (hLatest : latest v.trace = some (.bundle asked bundle)) (hOld : v.requestJob.any Request.renews = false)
    {next : Option Request}
    (hNext : ∀ request, next = some request → request.amountSats = some v.state.confirmedAmountSats ∧ request.renews = false)
    {step : ReceiveStep} (hStep : step = v.state.step ∨ step.Bare bundle v.state.confirmedAmountSats) (floorSats : UInt64) :
    ((v.update fun state => { state with floorSats := floorSats, step := step }).wait next).Holds where
  entering := fun hNone => by cases hNone.symm.trans hLatest
  loading := by
    intro request hJob hNone
    cases (hNext request hJob).1.symm.trans hNone
  described := fun moment hAt => by cases moment <;> exact h.described _ hAt
  asked := by
    intro request amountSats hJob hAmount
    exact Option.some.inj (hAmount.symm.trans (hNext request hJob).1)
  answered := fun moment hAt _ => h.answered moment hAt hOld
  follows := fun _ _ _ _ => ⟨asked, bundle, hLatest⟩
  reviewed := by
    intro amountSats quote updated hAt
    have hOwn : next.any Request.renews = false := by
      cases next with
      | none => rfl
      | some request => exact (hNext request rfl).2
    refine ⟨?_, hOwn, asked, bundle, hLatest⟩
    obtain rfl | hBare := hStep
    · exact (h.reviewed amountSats quote updated hAt).1
    · cases hAt
      exact hBare
  standard := by
    intro hAt _
    obtain rfl | hBare := hStep
    · exact h.standard hAt hOld
    · cases hAt
      cases hBare
  running := by
    intro hAt
    obtain rfl | hBare := hStep
    · exact h.running hAt
    · cases hAt
      cases hBare
  expired := by
    intro hAt
    obtain rfl | hBare := hStep
    · exact h.expired hAt
    · cases hAt
      cases hBare
  bare := by
    intro hAt _ moment hMoment
    obtain rfl | hBare := hStep
    · exact h.bare hAt hOld moment hMoment
    · cases hAt
      cases hLatest.symm.trans hMoment
      exact hBare
  received := by
    intro amountSats hAt
    obtain rfl | hBare := hStep
    · exact h.received amountSats hAt
    · cases hAt
      cases hBare

theorem holds_of_bundle {amountSats : UInt64} {bundle : ReceiveBundle}
    (hLatest : latest t.trace = some (.bundle amountSats bundle)) (hDescribed : (Moment.bundle amountSats bundle).Describes t.state)
    (hAmount : amountSats = t.state.confirmedAmountSats)
    (hJob : ∀ request, t.requestJob = some request → request.amountSats = some amountSats ∧ request.renews = false)
    (hStep : t.state.step.Follows bundle) : t.Holds where
  entering := fun hNone => by cases hNone.symm.trans hLatest
  loading := by
    intro request hRequest hNone
    cases (hJob request hRequest).1.symm.trans hNone
  described := by
    intro moment hAt
    cases hLatest.symm.trans hAt
    exact hDescribed
  asked := by
    intro request asked hRequest hAsked
    rw [← hAmount]
    exact Option.some.inj (hAsked.symm.trans (hJob request hRequest).1)
  answered := by
    intro moment hAt _
    cases hLatest.symm.trans hAt
    exact hAmount
  follows := fun _ _ _ _ => ⟨amountSats, bundle, hLatest⟩
  reviewed := by
    intro asked quote updated hAt
    rw [hAt] at hStep
    obtain hEq | ⟨hEq, -⟩ | ⟨hEq, -⟩ := hStep <;> cases hEq
  standard := by
    intro hAt _
    rw [hAt] at hStep
    obtain hEq | ⟨hEq, -⟩ | ⟨-, hInvoice⟩ := hStep
    · cases hEq
    · cases hEq
    · exact ⟨amountSats, bundle, hLatest, hInvoice⟩
  running := by
    intro hAt
    rw [hAt] at hStep
    obtain hEq | ⟨hEq, -⟩ | ⟨hEq, -⟩ := hStep <;> cases hEq
  expired := by
    intro hAt
    rw [hAt] at hStep
    obtain hEq | ⟨hEq, -⟩ | ⟨hEq, -⟩ := hStep <;> cases hEq
  bare := by
    intro hAt _ moment hMoment
    cases hLatest.symm.trans hMoment
    rw [hAt] at hStep
    obtain hEq | ⟨-, hPlain⟩ | ⟨hEq, -⟩ := hStep
    · cases hEq
    · exact hPlain
    · cases hEq
  received := by
    intro paid hAt
    rw [hAt] at hStep
    obtain hEq | ⟨hEq, -⟩ | ⟨hEq, -⟩ := hStep <;> cases hEq

theorem latest_bundle (v : Visit) (amountSats : UInt64) (bundle : ReceiveBundle) :
    latest (v.record (.bundle amountSats bundle)).trace = some (.bundle amountSats bundle) :=
  latest_answer rfl v.trace

theorem Holds.enter (h : v.Holds) {inbound : UInt64} (hJob : v.requestJob = some (.entry inbound)) (bundle : ReceiveBundle) :
    (v.enter inbound bundle).Holds := by
  obtain ⟨-, -, hConfirmed⟩ := h.entering (h.loading _ hJob rfl)
  refine holds_of_bundle (latest_bundle v 0 bundle) ⟨rfl, rfl, rfl, rfl, rfl⟩ ?_ (by rintro _ ⟨⟩) (follows_display bundle)
  exact (congrArg toULong hConfirmed).symm

theorem Holds.showBundle (h : v.Holds) {amountSats : UInt64} (hJob : v.requestJob = some (.bundle amountSats))
    (bundle : ReceiveBundle) : (v.showBundle amountSats bundle).Holds := by
  have hAmount := h.asked _ amountSats hJob rfl
  rw [Visit.showBundle]
  split_ifs
  · refine holds_of_bundle (latest_bundle v amountSats bundle) ⟨rfl, rfl, rfl, rfl, rfl⟩ hAmount ?_ (.inl rfl)
    rintro _ ⟨⟩
    exact ⟨rfl, rfl⟩
  · exact holds_of_bundle (latest_bundle v amountSats bundle) ⟨rfl, rfl, rfl, rfl, rfl⟩ hAmount (by rintro _ ⟨⟩)
      (follows_display bundle)

/-- The code that a failed request leaves, when that strands nobody. -/
theorem Holds.exists_bundle (h : v.Holds) {amountSats : UInt64} (hJob : v.requestJob = some (.bundle amountSats))
    {e : ReceiveException} (hOwn : v.strands (.answer (.failed e)) = false) {moment : Moment}
    (hLatest : latest v.trace = some moment) :
    ∃ found, moment = .bundle amountSats found ∧ found.paymentHash = none ∧ found.bolt11.isSome = false := by
  rw [strands, hJob] at hOwn
  obtain ⟨hAwaited, hSame⟩ := Bool.or_eq_false_iff.mp hOwn
  have hHash : v.state.paymentHash = none := Option.isNone_iff_eq_none.mp (Option.isSome_eq_false_iff.mp hAwaited)
  have hMoment : moment.paymentHash = none := (h.described moment hLatest).paymentHash_eq.symm.trans hHash
  rw [hLatest, Option.any_some, Bool.or_eq_false_iff, decide_eq_false_iff_not, not_not] at hSame
  obtain ⟨hAmount, hPlain⟩ := hSame
  cases moment with
  | bundle asked found =>
    obtain rfl : asked = amountSats := hAmount
    exact ⟨found, rfl, hMoment, hPlain⟩
  | accepted asked invoice address => cases hMoment
  | paid event => cases h.described _ hLatest

theorem Holds.failBundle (h : v.Holds) {amountSats : UInt64} (hJob : v.requestJob = some (.bundle amountSats))
    {e : ReceiveException} (hOwn : v.strands (.answer (.failed e)) = false) : (v.failBundle amountSats).Holds where
  entering := fun hNone => ⟨(h.entering hNone).1, rfl, (h.entering hNone).2.2⟩
  loading := by rintro _ ⟨⟩
  described := by
    intro moment hAt
    obtain ⟨found, rfl, hNone, -⟩ := h.exists_bundle hJob hOwn hAt
    obtain ⟨hUri, hCode, -⟩ := h.described _ hAt
    exact ⟨hUri, hCode, hNone.symm, rfl, rfl⟩
  asked := by rintro _ _ ⟨⟩
  answered := by
    intro moment hAt _
    obtain ⟨found, rfl, -⟩ := h.exists_bundle hJob hOwn hAt
    exact h.asked _ amountSats hJob rfl
  follows := by rintro _ ⟨⟩
  reviewed := by rintro _ _ _ ⟨⟩
  standard := by rintro ⟨⟩
  running := by rintro ⟨⟩
  expired := by rintro ⟨⟩
  bare := by
    intro _ _ moment hAt
    obtain ⟨found, rfl, -, hPlain⟩ := h.exists_bundle hJob hOwn hAt
    exact hPlain
  received := by rintro _ ⟨⟩

theorem le_countdown (expiresAtUnix : UInt64) (now : Int) :
    expiresAtUnix.toInt64.toInt ≤ now + countdownSecondsLeft expiresAtUnix now := by
  rw [countdownSecondsLeft]
  omega

theorem latest_accepted (v : Visit) (amountSats : UInt64) (invoice : JitInvoice) :
    latest (v.showInvoice amountSats invoice).trace =
      some (.accepted amountSats invoice (v.state.address.getD [])) := latest_answer rfl v.trace

theorem Holds.showInvoice (h : v.Holds) {amountSats : UInt64} {invoice : JitInvoice}
    (hJob : v.requestJob = some (.compose amountSats invoice)) : (v.showInvoice amountSats invoice).Holds where
  entering := fun hNone => by cases hNone.symm.trans (latest_accepted v amountSats invoice)
  loading := by rintro _ ⟨⟩
  described := by
    intro moment hAt
    cases (latest_accepted v amountSats invoice).symm.trans hAt
    exact ⟨rfl, rfl, rfl, rfl, rfl⟩
  asked := by rintro _ _ ⟨⟩
  answered := by
    intro moment hAt _
    cases (latest_accepted v amountSats invoice).symm.trans hAt
    exact h.asked _ amountSats hJob rfl
  follows := by rintro _ ⟨⟩
  reviewed := by rintro _ _ _ ⟨⟩
  standard := by rintro ⟨⟩
  running := fun _ => ⟨amountSats, invoice, _, _, latest_accepted v amountSats invoice, rfl, le_countdown _ _⟩
  expired := by rintro ⟨⟩
  bare := by rintro ⟨⟩
  received := by rintro _ ⟨⟩

theorem Holds.hear (h : v.Holds) (event : Event) : (v.hear event).Holds := by
  rw [Visit.hear]
  cases hPaid : applyPaymentReceived v.state.paymentHash event with
  | none => exact h
  | some amountSats =>
    have hAwaited : v.state.paymentHash ≠ none := by
      intro hNone
      have hUnheard : applyPaymentReceived none event = none := by cases event <;> rfl
      rw [hNone, hUnheard] at hPaid
      cases hPaid
    obtain ⟨moment, hLatest⟩ := h.exists_latest hAwaited
    exact {
      entering := h.entering
      loading := h.loading
      described := fun found hAt => by cases found <;> exact h.described _ hAt
      asked := h.asked
      answered := h.answered
      follows := h.follows
      reviewed := by rintro _ _ _ ⟨⟩
      standard := by rintro ⟨⟩
      running := by rintro ⟨⟩
      expired := by rintro ⟨⟩
      bare := by rintro ⟨⟩
      received := by
        rintro _ ⟨⟩
        rw [(h.described moment hLatest).paymentHash_eq] at hPaid
        exact ⟨moment, event, hLatest, List.mem_cons_self, hPaid⟩ }

theorem Holds.expire (h : v.Holds) (hDue : v.expiryJob.any (· ≤ v.now) = true) : v.expire.Holds := by
  by_cases hShown : v.state.step = .display .jit
  · obtain ⟨amountSats, invoice, address, deadline, hLatest, hTimer, hDeadline⟩ := h.running hShown
    rw [hTimer, Option.any_some, decide_eq_true_eq] at hDue
    rw [Visit.expire, update, applyExpiryFlip, if_pos hShown]
    exact {
      entering := h.entering
      loading := h.loading
      described := fun moment hAt => by cases moment <;> exact h.described _ hAt
      asked := h.asked
      answered := h.answered
      follows := h.follows
      reviewed := by rintro _ _ _ ⟨⟩
      standard := by rintro ⟨⟩
      running := by rintro ⟨⟩
      expired := fun _ => ⟨amountSats, invoice, address, hLatest, hDeadline.trans hDue⟩
      bare := by rintro ⟨⟩
      received := by rintro _ ⟨⟩ }
  · rw [Visit.expire, update, applyExpiryFlip, if_neg hShown]
    exact ⟨h.entering, h.loading, h.described, h.asked, h.answered, h.follows, h.reviewed, h.standard,
      fun hAt => absurd hAt hShown, h.expired, h.bare, h.received⟩

theorem Holds.clock (h : v.Holds) (seconds : Nat) : ({ v with now := v.now + seconds } : Visit).Holds := by
  refine ⟨h.entering, h.loading, h.described, h.asked, h.answered, h.follows, h.reviewed, h.standard, h.running, ?_,
    h.bare, h.received⟩
  intro hAt
  obtain ⟨amountSats, invoice, address, hLatest, hPast⟩ := h.expired hAt
  refine ⟨amountSats, invoice, address, hLatest, ?_⟩
  show invoice.expiresAtUnix.toInt64.toInt ≤ v.now + seconds
  omega

theorem Holds.minted (h : v.Holds) (offer : Option (List Char)) : (v.minted offer).Holds := by
  have hDescribed : ∀ moment, latest v.trace = some moment → moment.Describes (v.minted offer).state := by
    intro moment hAt
    cases offer <;> cases moment <;> exact h.described _ hAt
  cases offer <;> exact ⟨h.entering, h.loading, hDescribed, h.asked, h.answered, h.follows, h.reviewed, h.standard,
    h.running, h.expired, h.bare, h.received⟩

theorem Holds.asyncOffered (h : v.Holds) (offer : Option (List Char)) : (v.asyncOffered offer).Holds := by
  have hDescribed : ∀ moment, latest v.trace = some moment → moment.Describes (v.asyncOffered offer).state := by
    intro moment hAt
    cases offer <;> cases moment <;> exact h.described _ hAt
  cases offer <;> exact ⟨h.entering, h.loading, hDescribed, h.asked, h.answered, h.follows, h.reviewed, h.standard,
    h.running, h.expired, h.bare, h.received⟩

/-! ## Every action -/

theorem Holds.resume (h : v.Holds) {request : Request} {answer : Answer} (hJob : v.requestJob = some request)
    (hOwn : v.strands (.answer answer) = false) (hAct : v.resume request answer = some t) : t.Holds := by
  have hOld : request.renews = false → v.requestJob.any Request.renews = false := by
    intro hRenews
    rw [hJob, Option.any_some, hRenews]
  -- A request of a code that is on the screen goes on with it, or ends.
  have hRest : ∀ (next : Option Request) {amountSats : UInt64} {step : ReceiveStep} {floorSats : UInt64},
      request.amountSats = some amountSats → request.renews = false →
      (∀ found, next = some found → found.amountSats = some amountSats ∧ found.renews = false) →
      (∀ asked bundle, latest v.trace = some (.bundle asked bundle) → step = v.state.step ∨ step.Bare bundle amountSats) →
      ((v.update fun state => { state with floorSats := floorSats, step := step }).wait next).Holds := by
    intro next amountSats step floorSats hAmount hRenews hNext hStep
    obtain ⟨asked, bundle, hLatest⟩ := h.follows request hJob (by rw [hAmount]; rfl) hRenews
    obtain rfl := h.asked request amountSats hJob hAmount
    exact h.rest hLatest (hOld hRenews) hNext (hStep asked bundle hLatest) floorSats
  have hEnd : ∀ {amountSats : UInt64} (found : Request), (none : Option Request) = some found →
      found.amountSats = some amountSats ∧ found.renews = false := by rintro _ _ ⟨⟩
  cases request with
  | usableInbound =>
    cases answer with
    | inbound inbound =>
      cases hAct
      refine h.loads hJob rfl ?_
      split_ifs <;> rfl
    | failed e =>
      cases hAct
      exact h.load hJob rfl e
    | _ => cases hAct
  | minReceive inbound =>
    cases answer with
    | minimum minReceiveSats =>
      cases hAct
      exact h.loads hJob rfl rfl
    | failed e =>
      cases hAct
      exact h.loads hJob rfl rfl
    | _ => cases hAct
  | entry inbound =>
    cases answer with
    | bundle bundle =>
      cases hAct
      exact h.enter hJob bundle
    | failed e =>
      cases hAct
      exact h.load hJob rfl e
    | _ => cases hAct
  | bundle amountSats =>
    cases answer with
    | bundle bundle =>
      cases hAct
      exact h.showBundle hJob bundle
    | failed e =>
      cases hAct
      exact h.failBundle hJob hOwn
    | _ => cases hAct
  | quote amountSats reQuote =>
    cases answer with
    | quote quote =>
      cases hAct
      exact hRest none rfl rfl hEnd fun _ _ _ => .inr rfl
    | failed e =>
      cases hAct
      rw [failQuote]
      cases hFailure : classifyQuoteFailure e with
      | belowMinimum minPaymentSizeMsat =>
        refine hRest (some (.floor amountSats)) rfl rfl ?_ fun _ _ _ => .inl rfl
        rintro _ ⟨⟩
        exact ⟨rfl, rfl⟩
      | other =>
        refine hRest none rfl rfl hEnd fun asked bundle hLatest => .inr ?_
        cases reQuote with
        | true => trivial
        | false =>
          rw [strands, hJob] at hOwn
          simp only [hFailure, hLatest, Option.any_some] at hOwn
          exact hOwn
    | _ => cases hAct
  | floor amountSats =>
    cases answer with
    | minimum refreshed =>
      cases hAct
      exact hRest none rfl rfl hEnd fun _ _ _ => .inr trivial
    | failed e =>
      cases hAct
      exact hRest none rfl rfl hEnd fun _ _ _ => .inr trivial
    | _ => cases hAct
  | buy amountSats quote => cases answer <;> cases hAct
  | accept amountSats quote =>
    cases answer with
    | invoice invoice =>
      cases hAct
      refine hRest (some (.compose amountSats invoice)) rfl rfl ?_ fun _ _ _ => .inl rfl
      rintro _ ⟨⟩
      exact ⟨rfl, rfl⟩
    | failed e =>
      cases hAct
      rw [failAccept]
      cases classifyBuyFailure e with
      | reQuote =>
        refine hRest (some (.quote amountSats true)) rfl rfl ?_ fun _ _ _ => .inl rfl
        rintro _ ⟨⟩
        exact ⟨rfl, rfl⟩
      | error => exact hRest none rfl rfl hEnd fun _ _ _ => .inr trivial
    | _ => cases hAct
  | compose amountSats invoice =>
    cases answer with
    | composed =>
      cases hAct
      exact h.showInvoice hJob
    | _ => cases hAct

theorem Holds.loaded (h : v.Holds) (hOn : v.state.screen.ready = true) : latest v.trace ≠ none := by
  intro hNone
  rw [not_ready (h.entering hNone).1] at hOn
  cases hOn

theorem Holds.confirmAmount (h : v.Holds) (hOn : v.state.screen = .entry) : v.confirmAmount.Holds := by
  have hLoaded := h.loaded (by rw [hOn]; rfl)
  rw [Visit.confirmAmount, ReceiveFlow.confirmAmount]
  by_cases hBelow : belowJitMinimum (editingNeedsJit v.state.usableInboundMsat v.state.editingAmountSats)
      v.state.editingAmountSats v.state.floorSats = true
  · rw [if_pos hBelow]
    exact h
  · rw [if_neg hBelow]
    refine h.ask hLoaded v.state.amountDigits v.state.amountDigits false ?_ ?_
    · intro amountSats quote updated
      split_ifs
      · rintro ⟨⟩
      · exact step_of_entry hOn amountSats quote updated
    · split_ifs
      · exact .inr (.inl rfl)
      · exact .inl rfl

theorem Holds.backFromReview (h : v.Holds) (hLoaded : latest v.trace ≠ none) : v.backFromReview.Holds :=
  h.ask hLoaded v.state.confirmedDigits [] true (by rintro _ _ _ ⟨⟩) (.inr (.inr rfl))

theorem Holds.retryRequest (h : v.Holds) (hLoaded : latest v.trace ≠ none) : v.retryRequest.Holds := by
  rw [Visit.retryRequest]
  split_ifs
  · exact h.backFromReview hLoaded
  · exact h.ask hLoaded v.state.amountDigits v.state.confirmedDigits v.state.editingAmount (by rintro _ _ _ ⟨⟩)
      (.inr (.inl rfl))

theorem Holds.buys (h : v.Holds) {amountSats : UInt64} {quote : JitQuote} {updated : Bool}
    (hStep : v.state.step = .jitReview amountSats quote updated) : (v.wait (some (.buy amountSats quote))).Holds := by
  obtain ⟨rfl, hOld, asked, bundle, hLatest⟩ := h.reviewed _ _ _ hStep
  refine h.rest hLatest hOld ?_ (.inl rfl) v.state.floorSats
  rintro _ ⟨⟩
  exact ⟨rfl, rfl⟩

theorem Holds.run (h : v.Holds) {request : Request} (hJob : v.requestJob = some request)
    (hAct : v.run request = some t) : t.Holds := by
  cases request with
  | buy amountSats quote =>
    cases hAct
    obtain ⟨asked, bundle, hLatest⟩ := h.follows _ hJob rfl rfl
    obtain rfl := h.asked _ amountSats hJob rfl
    refine h.rest hLatest (by rw [hJob]; rfl) ?_ (.inr (show ReceiveStep.Bare _ _ .buying from trivial)) v.state.floorSats
    rintro _ ⟨⟩
    exact ⟨rfl, rfl⟩
  | _ => cases hAct

theorem Holds.act (h : v.Holds) {a : Act} (hOwn : v.strands a = false) (hAct : v.act a = some t) : t.Holds := by
  cases a with
  | key key =>
    obtain ⟨-, ⟨⟩⟩ := Option.ite_none_right_eq_some.mp hAct
    exact h.typed _ v.state.editingAmount
  | confirmAmount =>
    obtain ⟨⟨hOn, -⟩, ⟨⟩⟩ := Option.ite_none_right_eq_some.mp hAct
    exact h.confirmAmount hOn
  | cancelAmount =>
    obtain ⟨-, ⟨⟩⟩ := Option.ite_none_right_eq_some.mp hAct
    exact h.typed v.state.confirmedDigits false
  | editAmount =>
    obtain ⟨-, ⟨⟩⟩ := Option.ite_none_right_eq_some.mp hAct
    exact h.typed v.state.confirmedDigits true
  | removeAmount =>
    obtain ⟨⟨hOn, -⟩, ⟨⟩⟩ := Option.ite_none_right_eq_some.mp hAct
    exact h.ask (h.loaded (by rw [hOn]; rfl)) [] [] v.state.needsAmount (step_of_entry hOn) (.inl rfl)
  | back =>
    obtain ⟨hOn, ⟨⟩⟩ := Option.ite_none_right_eq_some.mp hAct
    refine h.backFromReview (h.loaded ?_)
    rcases hOn with hOn | hOn | hOn <;> rw [hOn] <;> rfl
  | retry =>
    obtain ⟨hOn, ⟨⟩⟩ := Option.ite_none_right_eq_some.mp hAct
    refine h.retryRequest (h.loaded ?_)
    rcases hOn with hOn | hOn <;> rw [hOn] <;> rfl
  | generate =>
    rw [Visit.act] at hAct
    split at hAct
    · rename_i hStep
      cases hAct
      exact h.buys hStep
    · cases hAct
  | run =>
    obtain ⟨request, hJob, hRun⟩ := Option.bind_eq_some_iff.mp hAct
    exact h.run hJob hRun
  | answer answer =>
    obtain ⟨request, hJob, hResume⟩ := Option.bind_eq_some_iff.mp hAct
    exact h.resume hJob hOwn hResume
  | event event =>
    cases hAct
    exact h.hear event
  | clock seconds =>
    cases hAct
    exact h.clock seconds
  | expire =>
    obtain ⟨hDue, ⟨⟩⟩ := Option.ite_none_right_eq_some.mp hAct
    exact h.expire hDue
  | minted offer =>
    obtain ⟨-, ⟨⟩⟩ := Option.ite_none_right_eq_some.mp hAct
    exact h.minted offer
  | asyncOffered offer =>
    obtain ⟨-, ⟨⟩⟩ := Option.ite_none_right_eq_some.mp hAct
    exact h.asyncOffered offer

/-! ## What the user is told -/

structure Honest (v : Visit) : Prop where
  /-- Once the request has ended, the code is the last one, for the amount above it. -/
  shown : v.requestJob = none → ∀ moment, latest v.trace = some moment →
    moment.Describes v.state ∧ moment.amountSats = v.state.confirmedAmountSats
  /-- Also while the numpad is open over it. -/
  labelled : v.requestJob = none → ∀ path, v.state.step = .display path → ∀ moment, latest v.trace = some moment →
    moment.Labels v.state
  answered : v.state.screen = .qr → ∃ moment, latest v.trace = some moment
  expired : v.state.step = .jitExpired → ∃ amountSats invoice address,
    latest v.trace = some (.accepted amountSats invoice address) ∧ invoice.expiresAtUnix.toInt64.toInt ≤ v.now
  /-- The payment came in for the code, and this is what it brought. -/
  received : ∀ amountSats, v.state.step = .received amountSats → ∃ moment event,
    latest v.trace = some moment ∧ .paid event ∈ recent v.trace ∧
      applyPaymentReceived moment.paymentHash event = some amountSats

theorem Holds.labels (h : v.Holds) (hIdle : v.requestJob = none) {path : InvoicePath} (hStep : v.state.step = .display path)
    {moment : Moment} (hLatest : latest v.trace = some moment) : moment.Labels v.state := by
  have hOld : v.requestJob.any Request.renews = false := by rw [hIdle]; rfl
  cases path with
  | none =>
    have hPlain := h.bare hStep hOld moment hLatest
    cases moment with
    | bundle amountSats found =>
      rw [Moment.hasInvoice] at hPlain
      rw [Moment.Labels, if_neg (ne_true_of_eq_false hPlain)]
      exact hStep
    | accepted amountSats invoice address => cases hPlain
    | paid event => exact h.described _ hLatest
  | standard =>
    obtain ⟨asked, bundle, hAt, hInvoice⟩ := h.standard hStep hOld
    cases hLatest.symm.trans hAt
    rw [Moment.Labels, if_pos hInvoice]
    exact hStep
  | jit =>
    obtain ⟨_, _, _, _, hAt, -⟩ := h.running hStep
    cases hLatest.symm.trans hAt
    exact hStep

theorem Holds.honest (h : v.Holds) : v.Honest where
  shown := fun hIdle moment hLatest =>
    ⟨h.described moment hLatest, h.answered moment hLatest (by rw [hIdle]; rfl)⟩
  labelled := fun hIdle _ hStep _ hLatest => h.labels hIdle hStep hLatest
  answered := fun hOn => Option.ne_none_iff_exists'.mp (h.loaded (by rw [hOn]; rfl))
  expired := h.expired
  received := h.received

/-- A code that is shown alone has no invoice. -/
theorem Honest.plain (h : v.Honest) (hIdle : v.requestJob = none) (hStep : v.state.step = .display .none)
    {moment : Moment} (hLatest : latest v.trace = some moment) : moment.hasInvoice = false := by
  have hLabels := h.labelled hIdle .none hStep moment hLatest
  cases moment with
  | bundle amountSats found =>
    rw [Moment.Labels, hStep] at hLabels
    rw [Moment.hasInvoice]
    by_contra hInvoice
    rw [if_pos (eq_true_of_ne_false hInvoice)] at hLabels
    cases hLabels
  | accepted amountSats invoice address => cases hStep.symm.trans hLabels
  | paid event => rfl

theorem Holds.not_strands (h : v.Holds) {a : Act} (hAct : v.act a = some t) (hHonest : t.Honest) : v.strands a = false := by
  cases a with
  | answer answer =>
    cases answer with
    | failed e =>
      cases hJob : v.requestJob with
      | none => rw [strands, hJob]
      | some request =>
        cases request with
        | bundle amountSats =>
          rw [Visit.act, hJob] at hAct
          cases hAct
          rw [strands, hJob]
          refine Bool.or_eq_false_iff.mpr ⟨?_, ?_⟩
          · cases hHash : v.state.paymentHash with
            | none => rfl
            | some hash =>
              obtain ⟨moment, hLatest⟩ := h.exists_latest (by rw [hHash]; exact Option.some_ne_none hash)
              have hGone : none = moment.paymentHash := (hHonest.shown rfl moment hLatest).1.paymentHash_eq
              rw [(h.described moment hLatest).paymentHash_eq, ← hGone] at hHash
              cases hHash
          · cases hLatest : latest v.trace with
            | none => rfl
            | some moment =>
              have hSame : moment.amountSats = v.state.confirmedAmountSats := (hHonest.shown rfl moment hLatest).2
              rw [Option.any_some, Bool.or_eq_false_iff, decide_eq_false_iff_not, not_not, hSame]
              exact ⟨(h.asked _ amountSats hJob rfl).symm, hHonest.plain rfl rfl hLatest⟩
        | quote amountSats reQuote =>
          cases reQuote with
          | true => rw [strands, hJob]
          | false =>
            rw [strands, hJob]
            cases hFailure : classifyQuoteFailure e with
            | belowMinimum minPaymentSizeMsat => rfl
            | other =>
              rw [Visit.act, hJob] at hAct
              simp only [Option.bind_some, Visit.resume, failQuote, hFailure] at hAct
              cases hAct
              cases hLatest : latest v.trace with
              | none => rfl
              | some moment => exact hHonest.plain rfl rfl hLatest
        | _ => rw [strands, hJob]
    | _ => rfl
  | _ => rfl

end Visit

/-! ## The result -/

theorem receive_honest (now : Int) {v : Visit} {acts : List Act} (hRun : exec Visit.act (.start now) acts = some v) :
    Along Visit.act (fun v a => v.strands a = false) (.start now) acts ↔
      ∀ before after u, acts = before ++ after → exec Visit.act (.start now) before = some u → u.Honest :=
  along_iff_shown (fun _ h => h.honest)
    (fun _ _ _ h hAct => ⟨fun hOwn => h.act hOwn hAct, fun hHonest => h.not_strands hAct hHonest⟩)
    (Visit.start_holds now) hRun

def jitBundle : ReceiveBundle where
  address := ['b', 'c']
  bolt11 := none
  paymentHash := none
  invoiceError := none
  bip321Uri := ['u']
  qrValue := ['U']
  offer := none
  offerQrValue := none
  needsJit := true
  minReceiveSats := 5

def standardBundle : ReceiveBundle :=
  { jitBundle with bolt11 := some ['l', 'n'], paymentHash := some "h0", needsJit := false }

/-- An invoice from the provider is asked for, bought and paid; nine is over the floor. -/
def boughtInvoice : List Act :=
  [.answer (.inbound 0), .answer (.minimum 5), .answer (.bundle jitBundle), .key (.digit (.last 9)), .confirmAmount,
    .answer (.bundle jitBundle), .answer (.quote ⟨0, 9000, 1000, 8000, 600, true⟩), .generate, .run,
    .answer (.invoice ⟨['l', 'n'], "h1", 1000, 500⟩), .answer .composed, .event (.paymentReceived "h1" 8000 none)]

/-- The channels take what comes; an amount is put on the code. -/
def standardCode : List Act :=
  [.answer (.inbound 9000000), .answer (.bundle standardBundle), .editAmount, .key (.digit (.last 9)), .confirmAmount,
    .answer (.bundle standardBundle)]

/-- An amount is put on a code that is on the screen, and the core does not answer. -/
def strandedInvoice : List Act :=
  [.answer (.inbound 9000000), .answer (.bundle standardBundle), .editAmount, .key (.digit (.last 9)), .confirmAmount,
    .answer (.failed .jitReQuoteRequired)]

theorem receive_honest_runs :
    (∀ run ∈ [(boughtInvoice, ReceiveStep.received 8), (standardCode, .display .standard)],
      ∃ v, exec Visit.act (.start 0) run.1 = some v ∧ v.state.step = run.2 ∧
        ∀ before after u, run.1 = before ++ after → exec Visit.act (.start 0) before = some u → u.Honest) ∧
    ∃ v, exec Visit.act (.start 0) strandedInvoice = some v ∧ v.state.screen = .qr ∧
      v.state.qrValue = standardBundle.qrValue ∧ v.state.paymentHash = none ∧
      ¬ ∀ before after u, strandedInvoice = before ++ after →
        exec Visit.act (.start 0) before = some u → u.Honest := by
  constructor
  · intro run hMem
    have hEnd : (exec Visit.act (.start 0) run.1).map (·.state.step) = some run.2 := by
      revert run
      decide +kernel
    have hOwn : Along Visit.act (fun v a => v.strands a = false) (.start 0) run.1 := by
      revert run
      decide +kernel
    obtain ⟨v, hRun, hStep⟩ := Option.map_eq_some_iff.mp hEnd
    exact ⟨v, hRun, hStep, (receive_honest 0 hRun).mp hOwn⟩
  · have hEnd : (exec Visit.act (.start 0) strandedInvoice).map
        (fun v => (v.state.screen, v.state.qrValue, v.state.paymentHash)) =
          some (.qr, standardBundle.qrValue, none) := by decide +kernel
    obtain ⟨v, hRun, hLeft⟩ := Option.map_eq_some_iff.mp hEnd
    obtain ⟨hScreen, hRest⟩ := Prod.mk.inj hLeft
    obtain ⟨hCode, hHash⟩ := Prod.mk.inj hRest
    refine ⟨v, hRun, hScreen, hCode, hHash, fun h => ?_⟩
    exact absurd ((receive_honest 0 hRun).mpr h) (by decide +kernel)

end WalletCore.ReceiveFlow
