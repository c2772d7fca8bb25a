import WalletCore.Shell.EventLoop

/-! # The sync banner

The sync task keeps whether the last pass over the chain reached the tip and tells the shell when that changes.
A start reads the same flag once more, after the node is up and its sync task runs, and reports a failure on its
own. The banner is what the shell makes of these events, in the order in which they came into the queue.
-/

namespace WalletCore.Shell

open Lib Events

/-- What a start does once the node is up. -/
inductive StartStage where
  | purge
  | started
  | check
  | failed
deriving DecidableEq

structure Session where
  /-- The flag of the running node. -/
  chainSynced : Option Bool
  stage : Option StartStage
  /-- The sync task has changed the flag and not told it yet. -/
  untold : Bool
  queue : EventQueue
  loopJob : Option LoopStep
  state : UiState

/-- A stop waits for the task's turn to end. The shell starts and stops one after the other. -/
inductive SessionAct where
  | up (chainSynced : Bool)
  | notify
  | sync (nowSynced : Bool)
  | tell
  | emit (event : CoreEvent)
  | stop
  | pushStopped
  | ensureEventLoop
  | loop
  | restart (readError : Option String)

namespace Session

/-- A new process over the queue that the last one left. -/
def fresh (queue : EventQueue) : Session := ⟨none, none, false, queue, none, .initial⟩

def push (s : Session) (event : Event) : Session := { s with queue := s.queue.push event }

/-- `Wallet::start` after the node's own start. -/
def notify (s : Session) : StartStage → Session
  | .purge => { s with queue := s.queue.purge, stage := some .started }
  | .started => { s.push .nodeStarted with stage := some .check }
  | .check => { s with stage := if s.chainSynced = some true then none else some .failed }
  | .failed => { s.push .syncFailed with stage := none }

/-- A pass of the sync task ends; the flag is swapped before anything is told. -/
def sync (s : Session) (nowSynced wasSynced : Bool) : Session :=
  { s with chainSynced := some nowSynced, untold := wasSynced ≠ nowSynced }

def tell (s : Session) (nowSynced : Bool) : Session :=
  { s.push (if nowSynced then CoreEvent.chainSyncCompleted else .chainSyncFailed).toEvent with untold := false }

def runEventLoop (s : Session) : LoopStep → Option Session
  | .next => s.queue.peek.map fun event => { s with loopJob := some (.handle event) }
  | .handle event => some { s with state := s.state.reduce event, loopJob := some (.ack event) }
  | .ack event =>
    if s.queue.queue = [] then none
    else some { s with queue := s.queue.ack.1, loopJob := if event = .nodeStopped then none else some .next }

def step (s : Session) : SessionAct → Option Session
  | .up chainSynced =>
    if s.chainSynced = none then some { s with chainSynced := some chainSynced, stage := some .purge } else none
  | .notify => s.stage.map s.notify
  | .sync nowSynced => if s.untold then none else s.chainSynced.map (s.sync nowSynced)
  | .tell => if s.untold then s.chainSynced.map s.tell else none
  | .emit event =>
    if event = .chainSyncCompleted ∨ event = .chainSyncFailed then none else some (s.push event.toEvent)
  | .stop => if s.untold ∨ s.stage ≠ none then none else s.chainSynced.map fun _ => { s with chainSynced := none }
  | .pushStopped => some (s.push .nodeStopped)
  | .ensureEventLoop => some { s with loopJob := some (s.loopJob.getD .next) }
  | .loop => s.loopJob.bind s.runEventLoop
  | .restart readError => some (fresh (.new s.queue.kvStore readError))

/-- What the loop has not shown yet. -/
def pending (s : Session) : List Event :=
  match s.loopJob with
  | some (.ack _) => s.queue.queue.tail
  | _ => s.queue.queue

/-- The banner that the events on their way lead to. -/
def banner (s : Session) : Bool := (s.pending.foldl UiState.reduce s.state).syncBanner.isSome

/-- Once a start has asked, the banner tells whether the chain is behind; before, it is not up over a chain
that is not. -/
def Honest (s : Session) : Prop :=
  ∀ synced, s.chainSynced = some synced → s.untold = false → s.stage ≠ some .failed →
    s.stage = none ∨ synced = true → s.banner = !synced

/-- A start that comes up synced under a banner, or reports a failure that the sync task has made good. -/
def misleads (s : Session) : SessionAct → Bool
  | .up chainSynced => chainSynced && s.banner
  | .notify => s.stage = some .failed && s.chainSynced = some true && !s.untold
  | _ => false

/-- A start drops the end of a session that the loop has in hand. -/
def dropsInHand (s : Session) : SessionAct → Bool
  | .notify => s.stage = some .purge && s.loopJob.bind LoopStep.inHand = some .nodeStopped
  | _ => false

end Session

/-! ## What events do to the banner -/

def marks : Event → Option Bool
  | .syncFailed => some true
  | .syncCompleted => some false
  | _ => none

def leadsTo (banner : Bool) (events : List Event) : Bool := events.foldl (fun banner event => (marks event).getD banner) banner

theorem reduce_banner (state : UiState) (event : Event) :
    (state.reduce event).syncBanner.isSome = (marks event).getD state.syncBanner.isSome := by
  cases event with
  | restoreProgress step =>
    rw [UiState.reduce]
    split_ifs <;> rfl
  | _ => rfl

theorem foldl_reduce_banner (events : List Event) (state : UiState) :
    (events.foldl UiState.reduce state).syncBanner.isSome = leadsTo state.syncBanner.isSome events := by
  induction events generalizing state with
  | nil => rfl
  | cons event rest ih => rw [List.foldl_cons, ih, reduce_banner, leadsTo, leadsTo, List.foldl_cons]

theorem leadsTo_append (banner : Bool) (events : List Event) (event : Event) :
    leadsTo banner (events ++ [event]) = (marks event).getD (leadsTo banner events) := by
  rw [leadsTo, List.foldl_append, List.foldl_cons, List.foldl_nil, leadsTo]

theorem leadsTo_filter (banner : Bool) (events : List Event) :
    leadsTo banner (events.filter fun event => event ≠ .nodeStopped) = leadsTo banner events := by
  induction events generalizing banner with
  | nil => rfl
  | cons event rest ih =>
    by_cases hStopped : event = .nodeStopped
    · rw [List.filter_cons_of_neg (by simp [hStopped]), ih, leadsTo, leadsTo, List.foldl_cons, hStopped]
      rfl
    · rw [List.filter_cons_of_pos (by simp [hStopped]), leadsTo, List.foldl_cons]
      exact ih _

theorem marks_toEvent {event : CoreEvent} (h : ¬ (event = .chainSyncCompleted ∨ event = .chainSyncFailed)) :
    marks event.toEvent = none := by
  cases event with
  | chainSyncCompleted => exact absurd (.inl rfl) h
  | chainSyncFailed => exact absurd (.inr rfl) h
  | _ => rfl

namespace Session

variable {s t : Session} {event : Event}

theorem banner_eq (s : Session) : s.banner = leadsTo s.state.syncBanner.isSome s.pending :=
  foldl_reduce_banner s.pending s.state

/-- What the loop has in hand is at the front of the queue. -/
def Held (s : Session) : Prop :=
  ∀ event, s.loopJob.bind LoopStep.inHand = some event → s.queue.queue.head? = some event

theorem Held.push (h : s.Held) (event : Event) : (s.push event).Held := by
  intro held hHand
  rw [Session.push, EventQueue.queue_push]
  exact Holder.head?_append (h held hHand) event

theorem pending_push (h : s.Held) (event : Event) : (s.push event).pending = s.pending ++ [event] := by
  rw [pending, pending, Session.push]
  dsimp only
  rw [EventQueue.queue_push]
  cases hLoop : s.loopJob with
  | none => rfl
  | some step =>
    cases step with
    | ack held =>
      have hFront := h held (by rw [hLoop]; rfl)
      obtain ⟨rest, hQueue⟩ := List.head?_eq_some_iff.mp hFront
      rw [hQueue]
      rfl
    | _ => rfl

theorem banner_push (h : s.Held) (event : Event) : (s.push event).banner = (marks event).getD s.banner := by
  rw [banner_eq, pending_push h, leadsTo_append, banner_eq]
  rfl

/-! ## The step that decides -/

structure Inv (s : Session) : Prop where
  held : s.Held
  told : s.chainSynced = none → s.untold = false

theorem Honest.same (h : s.Honest) (hFlag : t.chainSynced = s.chainSynced) (hUntold : t.untold = s.untold)
    (hStage : t.stage = s.stage) (hBanner : t.banner = s.banner) : t.Honest := by
  intro synced hSynced hTold hNot hAsked
  rw [hBanner]
  exact h synced (hFlag ▸ hSynced) (hUntold ▸ hTold) (hStage ▸ hNot) (hStage ▸ hAsked)

theorem pending_of_not_ack (h : ∀ event, s.loopJob ≠ some (.ack event)) : s.pending = s.queue.queue := by
  rw [pending]
  split
  · next event hLoop => exact absurd hLoop (h event)
  · rfl

theorem Inv.loop (h : s.Inv) {step : LoopStep} (hLoop : s.loopJob = some step) (hRun : s.runEventLoop step = some t) :
    t.Inv ∧ (s.Honest → t.Honest) := by
  cases step with
  | next =>
    obtain ⟨event, hPeek, rfl⟩ := Option.map_eq_some_iff.mp hRun
    refine ⟨⟨?_, h.told⟩, fun hHonest => hHonest.same rfl rfl rfl ?_⟩
    · rintro _ ⟨⟩
      exact hPeek
    · rw [banner_eq, banner_eq, pending_of_not_ack (by rintro _ ⟨⟩), pending_of_not_ack (by simp [hLoop])]
  | handle event =>
    cases hRun
    have hFront := h.held event (by rw [hLoop]; rfl)
    refine ⟨⟨?_, h.told⟩, fun hHonest => hHonest.same rfl rfl rfl ?_⟩
    · rintro _ ⟨⟩
      exact hFront
    · -- The event moves from the front of the queue to the screen.
      obtain ⟨rest, hQueue⟩ := List.head?_eq_some_iff.mp hFront
      rw [banner, banner, pending_of_not_ack (s := s) (by simp [hLoop]), pending, hQueue, List.tail_cons, List.foldl_cons]
  | ack event =>
    rw [runEventLoop] at hRun
    split_ifs at hRun
    all_goals
      cases hRun
      refine ⟨⟨by rintro _ ⟨⟩, h.told⟩, fun hHonest => hHonest.same rfl rfl rfl ?_⟩
      rw [banner_eq, banner_eq, pending_of_not_ack (by rintro _ ⟨⟩), EventQueue.queue_ack, pending, hLoop]

theorem banner_purge (hHeld : s.Held) (hKept : s.loopJob.bind LoopStep.inHand ≠ some .nodeStopped) :
    (s.notify .purge).Held ∧ (s.notify .purge).banner = s.banner := by
  have hFront : ∀ event, s.loopJob.bind LoopStep.inHand = some event → event ≠ .nodeStopped := by
    rintro _ hHand rfl
    exact hKept hHand
  refine ⟨fun event hHand => ?_, ?_⟩
  · rw [notify, EventQueue.queue_purge]
    exact Holder.head?_filter (hHeld event hHand) (hFront event hHand)
  · rw [banner_eq, banner_eq, pending, pending, notify]
    dsimp only
    rw [EventQueue.queue_purge]
    cases hLoop : s.loopJob with
    | none => exact leadsTo_filter _ _
    | some step =>
      cases step with
      | ack event =>
        have hHand : s.loopJob.bind LoopStep.inHand = some event := by rw [hLoop]; rfl
        obtain ⟨rest, hQueue⟩ := List.head?_eq_some_iff.mp (hHeld event hHand)
        have hOther := hFront event hHand
        rw [hQueue, List.filter_cons_of_pos (by simpa using hOther)]
        exact leadsTo_filter _ rest
      | _ => exact leadsTo_filter _ _

theorem Honest.before (h : s.Honest) (hStage : s.stage ≠ some .failed) (hSynced : s.chainSynced = some true)
    (hTold : s.untold = false) : s.banner = false :=
  h true hSynced hTold hStage (.inr rfl)

/-- While a start has not asked yet only a chain that is synced binds the banner. -/
theorem honest_of_asking (hStage : t.stage ≠ none)
    (hBefore : t.chainSynced = some true → t.untold = false → t.banner = false) : t.Honest := by
  intro synced hSynced hTold _ hAsked
  rw [hAsked.resolve_left hStage] at hSynced ⊢
  exact hBefore hSynced hTold

theorem Inv.notify (h : s.Inv) {stage : StartStage} (hStage : s.stage = some stage)
    (hOwn : s.dropsInHand .notify = false) :
    (s.notify stage).Inv ∧ (s.Honest → ((s.notify stage).Honest ↔ s.misleads .notify = false)) := by
  cases stage with
  | purge =>
    have hKept : s.loopJob.bind LoopStep.inHand ≠ some .nodeStopped := by simpa [dropsInHand, hStage] using hOwn
    obtain ⟨hHeld, hBanner⟩ := banner_purge h.held hKept
    refine ⟨⟨hHeld, h.told⟩, fun hHonest => iff_of_true ?_ (by simp [misleads, hStage])⟩
    refine honest_of_asking (Option.some_ne_none _) fun hSynced hTold => ?_
    exact hBanner.trans (hHonest.before (by simp [hStage]) hSynced hTold)
  | started =>
    refine ⟨⟨h.held.push _, h.told⟩, fun hHonest => iff_of_true ?_ (by simp [misleads, hStage])⟩
    refine honest_of_asking (Option.some_ne_none _) fun hSynced hTold => ?_
    exact (banner_push h.held .nodeStarted).trans (hHonest.before (by simp [hStage]) hSynced hTold)
  | check =>
    refine ⟨⟨h.held, h.told⟩, fun hHonest => iff_of_true ?_ (by simp [misleads, hStage])⟩
    intro synced hSynced hTold hNot _
    -- A start that goes on to report a failure is bound by nothing until it has.
    have hFlag : s.chainSynced = some true := by
      by_contra hFlag
      exact hNot (if_neg hFlag)
    cases hFlag.symm.trans hSynced
    exact hHonest.before (by simp [hStage]) hFlag hTold
  | failed =>
    refine ⟨⟨h.held.push _, h.told⟩, fun _ => ?_⟩
    have hBanner : (s.notify .failed).banner = true := banner_push h.held .syncFailed
    constructor
    · intro hHonest
      rw [misleads, hStage, Bool.and_eq_false_iff]
      by_contra hMisleads
      simp only [decide_true, Bool.true_and, not_or, Bool.not_eq_false, decide_eq_true_eq, Bool.not_eq_true'] at hMisleads
      have hFalse := hHonest true hMisleads.1 hMisleads.2 (by rintro ⟨⟩) (.inl rfl)
      rw [hBanner] at hFalse
      cases hFalse
    · intro hRight synced hSynced hTold _ _
      have hFlag : s.chainSynced ≠ some true := by
        intro hFlag
        have hTold : s.untold = false := hTold
        simp [misleads, hStage, hFlag, hTold] at hRight
      rw [hBanner]
      cases synced with
      | false => rfl
      | true => exact absurd hSynced hFlag

theorem Inv.step (h : s.Inv) {a : SessionAct} (hOwn : s.dropsInHand a = false) (hStep : s.step a = some t) :
    t.Inv ∧ (s.Honest → (t.Honest ↔ s.misleads a = false)) := by
  cases a with
  | up chainSynced =>
    rw [Session.step] at hStep
    split_ifs at hStep with hDown
    cases hStep
    refine ⟨⟨h.held, by rintro ⟨⟩⟩, fun _ => ?_⟩
    have hTold := h.told hDown
    cases chainSynced with
    | false => exact iff_of_true (honest_of_asking (Option.some_ne_none _) (by rintro ⟨⟩)) rfl
    | true =>
      constructor
      · exact fun hHonest => hHonest.before (by simp) rfl hTold
      · exact fun hRight => honest_of_asking (Option.some_ne_none _) fun _ _ => hRight
  | notify =>
    obtain ⟨stage, hStage, rfl⟩ := Option.map_eq_some_iff.mp hStep
    exact h.notify hStage hOwn
  | sync nowSynced =>
    rw [Session.step] at hStep
    split_ifs at hStep with hUntold
    obtain ⟨wasSynced, hWas, rfl⟩ := Option.map_eq_some_iff.mp hStep
    refine ⟨⟨h.held, by rintro ⟨⟩⟩, fun hHonest => iff_of_true ?_ rfl⟩
    intro synced hSynced hTold hNot hAsked
    obtain rfl : wasSynced = nowSynced := by simpa [sync] using hTold
    exact hHonest synced (hWas.trans hSynced) (Bool.eq_false_iff.mpr hUntold) hNot hAsked
  | tell =>
    rw [Session.step] at hStep
    split_ifs at hStep
    obtain ⟨synced, hFlag, rfl⟩ := Option.map_eq_some_iff.mp hStep
    refine ⟨⟨h.held.push _, fun _ => rfl⟩, fun _ => iff_of_true ?_ rfl⟩
    intro told hTold _ _ _
    cases hFlag.symm.trans hTold
    refine (banner_push h.held _).trans ?_
    cases synced <;> rfl
  | emit event =>
    rw [Session.step] at hStep
    split_ifs at hStep with hOther
    cases hStep
    refine ⟨⟨h.held.push _, h.told⟩, fun hHonest => iff_of_true (hHonest.same rfl rfl rfl ?_) rfl⟩
    rw [banner_push h.held, marks_toEvent hOther, Option.getD_none]
  | stop =>
    rw [Session.step] at hStep
    split_ifs at hStep with hBusy
    obtain ⟨synced, -, rfl⟩ := Option.map_eq_some_iff.mp hStep
    refine ⟨⟨h.held, fun _ => ?_⟩, fun _ => iff_of_true (by rintro _ ⟨⟩) rfl⟩
    exact Bool.eq_false_iff.mpr (not_or.mp hBusy).1
  | pushStopped =>
    cases hStep
    refine ⟨⟨h.held.push _, h.told⟩, fun hHonest => iff_of_true (hHonest.same rfl rfl rfl ?_) rfl⟩
    exact banner_push h.held .nodeStopped
  | ensureEventLoop =>
    cases hStep
    refine ⟨⟨?_, h.told⟩, fun hHonest => iff_of_true (hHonest.same rfl rfl rfl ?_) rfl⟩
    · intro event hHand
      refine h.held event ?_
      cases hLoop : s.loopJob with
      | none =>
        rw [hLoop] at hHand
        cases hHand
      | some step =>
        rw [hLoop] at hHand
        exact hHand
    · rw [banner_eq, banner_eq, pending, pending]
      cases s.loopJob <;> rfl
  | loop =>
    obtain ⟨step, hLoop, hRun⟩ := Option.bind_eq_some_iff.mp hStep
    obtain ⟨hInv, hKept⟩ := h.loop hLoop hRun
    exact ⟨hInv, fun hHonest => iff_of_true (hKept hHonest) rfl⟩
  | restart readError =>
    cases hStep
    exact ⟨⟨by rintro _ ⟨⟩, fun _ => rfl⟩, fun _ => iff_of_true (by rintro _ ⟨⟩) rfl⟩

theorem fresh_inv (queue : EventQueue) : (fresh queue).Inv := ⟨by rintro _ ⟨⟩, fun _ => rfl⟩

theorem fresh_honest (queue : EventQueue) : (fresh queue).Honest := by rintro _ ⟨⟩

end Session

/-! ## The result -/

theorem banner_honest (queue : EventQueue) {s : Session} {acts : List SessionAct}
    (hOwn : Along Session.step (fun s a => s.dropsInHand a = false) (.fresh queue) acts)
    (hRun : exec Session.step (.fresh queue) acts = some s) :
    Along Session.step (fun s a => s.misleads a = false) (.fresh queue) acts ↔
      ∀ before after u, acts = before ++ after → exec Session.step (.fresh queue) before = some u → u.Honest :=
  along_iff_prefixes (fun _ _ _ hInv hOwn hStep => Session.Inv.step hInv hOwn hStep) (Session.fresh_inv queue)
    (Session.fresh_honest queue) hOwn hRun

def emptyQueue : EventQueue := ⟨[], ⟨none, fun _ => none, 0⟩⟩

/-- A start that finds the chain behind; the sync task catches up after it. -/
def behindThenSynced : List SessionAct :=
  [.up false, .notify, .notify, .notify, .notify, .ensureEventLoop, .loop, .sync true, .tell, .loop, .loop, .loop]

/-- The sync task catches up between the question and the report. -/
def reportedLate : List SessionAct := [.up false, .notify, .notify, .notify, .sync true, .tell, .notify]

/-- The shell goes to the background while the chain is behind, and comes back to one that is synced. -/
def backOverBanner : List SessionAct :=
  [.up false, .notify, .notify, .notify, .notify, .stop, .pushStopped, .up true, .notify, .notify, .notify]

theorem banner_honest_runs :
    (∃ s, exec Session.step (.fresh emptyQueue) behindThenSynced = some s ∧
      ∀ before after u, behindThenSynced = before ++ after →
        exec Session.step (.fresh emptyQueue) before = some u → u.Honest) ∧
    ∀ acts ∈ [reportedLate, backOverBanner], ∃ s, exec Session.step (.fresh emptyQueue) acts = some s ∧
      s.chainSynced = some true ∧ s.banner = true ∧
      ¬ ∀ before after u, acts = before ++ after → exec Session.step (.fresh emptyQueue) before = some u → u.Honest := by
  constructor
  · have hEnd : (exec Session.step (.fresh emptyQueue) behindThenSynced).isSome = true := by decide +kernel
    obtain ⟨s, hRun⟩ := Option.isSome_iff_exists.mp hEnd
    exact ⟨s, hRun, (banner_honest emptyQueue (by decide +kernel) hRun).mp (by decide +kernel)⟩
  · intro acts hActs
    have hEnd : (exec Session.step (.fresh emptyQueue) acts).map (fun s => (s.chainSynced, s.banner)) =
        some (some true, true) := by
      revert acts
      decide +kernel
    have hOwn : Along Session.step (fun s a => s.dropsInHand a = false) (.fresh emptyQueue) acts := by
      clear hEnd
      revert acts
      decide +kernel
    have hMisled : ¬ Along Session.step (fun s a => s.misleads a = false) (.fresh emptyQueue) acts := by
      clear hEnd hOwn
      revert acts
      decide +kernel
    obtain ⟨s, hRun, hLeft⟩ := Option.map_eq_some_iff.mp hEnd
    refine ⟨s, hRun, congrArg Prod.fst hLeft, congrArg Prod.snd hLeft, fun h => ?_⟩
    exact hMisled ((banner_honest emptyQueue hOwn hRun).mpr h)

end WalletCore.Shell
