import WalletCore.Shell.Lifecycle

/-! # The event loop beside the chain

The loop has at most one event in hand, which stays at the front of the queue until the loop acknowledges it.
The one exception is the end of a session: a start drops it from the queue, also from the loop's hand.
-/

namespace WalletCore.Shell

open Lib Events

def LoopStep.inHand : LoopStep → Option Event
  | .next => none
  | .handle event | .ack event => some event

/-- A start on its way through the queue. -/
inductive Link.Notifies : Link → List QueueOp → Prop
  | start (ops : List QueueOp) : Notifies (.start (.core (.notify ops))) ops
  | restore (exit : Exit) (ops : List QueueOp) : Notifies (.restore (.core exit (.notify ops))) ops

/-- The steps that see to the loop. -/
inductive Link.Ensures : Link → Prop
  | start : Ensures (.start .loop)
  | restore : Ensures (.restore .loop)

def Link.ensures : Link → Bool
  | .start .loop | .restore .loop => true
  | _ => false

def Link.purges : Link → Bool
  | .start (.core (.notify (.purge :: _))) | .restore (.core _ (.notify (.purge :: _))) => true
  | _ => false

/-- The loop has been seen to since the node came up, and for a restore since it began. -/
def Link.seenTo (running : Bool) : Link → Bool
  | .start (.core (.notify _)) | .start .loop => false
  | .restore .call | .restore .replaced | .restore (.restart _) | .restore (.core ..) | .restore (.settle _) => true
  | _ => running

/-- The steps that end a session. -/
inductive Link.Ends : Link → Prop
  | stop : Ends (.stop .push)
  | restore : Ends (.restore .push)

namespace Holder

def pending (h : Holder) : List Event := h.events.queue.queue

def InHand (h : Holder) (event : Event) : Prop := h.loopJob.bind LoopStep.inHand = some event

instance decidableInHand (h : Holder) (event : Event) : Decidable (h.InHand event) :=
  inferInstanceAs (Decidable (h.loopJob.bind LoopStep.inHand = some event))

/-- The loop has a session's end before it. -/
def Departing (h : Holder) : Prop := .nodeStopped ∈ h.pending ∨ h.InHand .nodeStopped

instance decidableDeparting (h : Holder) : Decidable h.Departing := instDecidableOr

section

variable {h h' : Holder} {link : Link} {found : Option Link} {rest : List Link} {answer : CoreAnswer} {quiet : Prop}

/-! ## The queue -/

theorem pending_push (h : Holder) (event : Event) : (h.queue (.push event)).pending = h.pending ++ [event] :=
  EventQueue.queue_push ..

theorem pending_purge (h : Holder) : (h.queue .purge).pending = h.pending.filter fun event => event ≠ .nodeStopped :=
  EventQueue.queue_purge _

theorem pending_ack (h : Holder) : (h.queue .ack).pending = h.pending.tail := EventQueue.queue_ack _

theorem pending_next (h : Holder) : (h.queue .next).pending = h.pending := by
  rw [pending, queue, Ledger.step]
  cases h.events.queue.peek <;> rfl

theorem toEvent_ne_stopped (event : CoreEvent) : event.toEvent ≠ .nodeStopped := by cases event <;> simp [CoreEvent.toEvent]

theorem head?_filter {queue : List Event} {event : Event} (hFirst : queue.head? = some event)
    (hOther : event ≠ .nodeStopped) : (queue.filter fun event => event ≠ .nodeStopped).head? = some event := by
  cases queue with
  | nil => cases hFirst
  | cons first rest =>
    cases hFirst
    rw [List.filter_cons_of_pos (by simpa using hOther)]
    rfl

theorem head?_append {queue : List Event} {event : Event} (hFirst : queue.head? = some event) (last : Event) :
    (queue ++ [last]).head? = some event := by
  rw [List.head?_append, hFirst]
  rfl

/-! ## What a step of the chain does beside it -/

inductive Effect (h h' : Holder) (link : Link) (found : Option Link) : Prop
  | none (hQuiet : ∀ op ops, ¬ link.Notifies (op :: ops)) (hOther : ¬ link.Ensures) (hEvents : h'.events = h.events)
      (hLoop : h'.loopJob = h.loopJob)
  | notified (op : QueueOp) (ops : List QueueOp) (next : Link) (hLink : link.Notifies (op :: ops))
      (hNext : found = some next) (hLeft : next.Notifies ops) (hEvents : h'.events = (h.queue op).events)
      (hLoop : h'.loopJob = h.loopJob)
  | ended (hLink : link.Ends) (hEvents : h'.events = (h.queue (.push .nodeStopped)).events)
      (hLoop : h'.loopJob = h.loopJob)
  | ensured (hLink : link.Ensures) (hEvents : h'.events = h.events) (hLoop : h'.loopJob = some (h.loopJob.getD .next))

/-- What the main thread does: at most a link joins the chain. -/
structure Main (h h' : Holder) : Prop where
  events : h'.events = h.events
  loopJob : h'.loopJob = h.loopJob
  running : h'.running = h.running
  chain : h'.chain = h.chain ∨ ∃ link : Link, link.Unstarted ∧ h'.chain = h.chain ++ [link]

theorem step_cases {act : Act} (hStep : h.step act = some h') :
    Main h h' ∨
    (∃ answer link rest h'' found, act = .link answer ∧ h.chain = link :: rest ∧
      h.runLink answer link = some (h'', found) ∧ { h'' with chain := found.toList ++ rest } = h') ∨
    (∃ step, h.loopJob = some step ∧ h.runEventLoop step = some h') ∨
    ∃ event : CoreEvent, h.queue (.push event.toEvent) = h' := by
  cases act with
  | moveTo foregrounded =>
    rw [Holder.step] at hStep
    split at hStep
    · cases hStep
      exact .inl ⟨rfl, rfl, rfl, .inl rfl⟩
    · cases hStep
  | callback =>
    obtain ⟨foregrounded, -, rfl⟩ := Option.map_eq_some_iff.mp hStep
    refine .inl ⟨rfl, rfl, rfl, .inr ⟨.asked foregrounded, ?_, rfl⟩⟩
    cases foregrounded <;> trivial
  | startRestore =>
    rw [Holder.step] at hStep
    split at hStep
    · cases hStep
    · split at hStep
      · cases hStep
        exact .inl ⟨rfl, rfl, rfl, .inl rfl⟩
      · cases hStep
        exact .inl ⟨rfl, rfl, rfl, .inr ⟨.restore .stop, trivial, rfl⟩⟩
  | clearRestore =>
    rw [Holder.step] at hStep
    split at hStep
    · cases hStep
    · cases hStep
      exact .inl ⟨rfl, rfl, rfl, .inl rfl⟩
  | link answer =>
    rw [Holder.step] at hStep
    split at hStep
    · cases hStep
    · next link rest hChain =>
      obtain ⟨⟨h'', found⟩, hRun, hEq⟩ := Option.map_eq_some_iff.mp hStep
      exact .inr (.inl ⟨answer, link, rest, h'', found, rfl, hChain, hRun, hEq⟩)
  | loop =>
    obtain ⟨step, hLoop, hRun⟩ := Option.bind_eq_some_iff.mp hStep
    exact .inr (.inr (.inl ⟨step, hLoop, hRun⟩))
  | emit event => exact .inr (.inr (.inr ⟨event, Option.some.inj hStep⟩))

theorem startCore_effect (h : Holder) (answer : StartAnswer) (start : CoreStart) :
    (∃ op ops, start = .notify (op :: ops) ∧ h.startCore answer start = (h.queue op, .inl (.notify ops))) ∨
      ((∀ op ops, start ≠ .notify (op :: ops)) ∧ (h.startCore answer start).1.events = h.events ∧
        (h.startCore answer start).1.loopJob = h.loopJob) := by
  cases start with
  | call =>
    right
    unfold startCore
    dsimp only
    refine ⟨by simp, ?_⟩
    split
    · exact ⟨rfl, rfl⟩
    · cases answer <;> exact ⟨rfl, rfl⟩
  | notify ops =>
    cases ops with
    | nil => exact .inr ⟨by simp, rfl, rfl⟩
    | cons op ops => exact .inl ⟨op, ops, rfl, rfl⟩

theorem runLink_effect (hStep : h.runLink answer link = some (h', found)) : Effect h h' link found := by
  cases link with
  | start step =>
    have hEq : h.startNode answer step = (h', found) := Option.some.inj hStep
    cases step with
    | check =>
      cases hEq
      exact .none (by rintro op ops ⟨⟩) (by rintro ⟨⟩) rfl rfl
    | core start =>
      simp only [startNode] at hEq
      obtain ⟨op, ops, rfl, hPosted⟩ | hSame := h.startCore_effect answer.start start
      · rw [hPosted] at hEq
        cases hEq
        exact .notified op ops _ (.start _) rfl (.start _) rfl rfl
      · split at hEq
        all_goals
          next hCore =>
          rw [hCore] at hSame
          cases hEq
          refine .none ?_ (by rintro ⟨⟩) hSame.2.1 hSame.2.2
          rintro op ops ⟨⟩
          exact hSame.1 op ops rfl
    | loop =>
      cases hEq
      exact .ensured .start rfl rfl
  | stop step =>
    have hEq : h.stopNode step = (h', found) := Option.some.inj hStep
    cases step with
    | check =>
      cases hEq
      exact .none (by rintro op ops ⟨⟩) (by rintro ⟨⟩) rfl rfl
    | call =>
      rw [stopNode] at hEq
      split at hEq <;> cases hEq <;> exact .none (by rintro op ops ⟨⟩) (by rintro ⟨⟩) rfl rfl
    | push =>
      cases hEq
      exact .ended .stop rfl rfl
  | restore step =>
    have hEq : h.restoreNode answer step = some (h', found) := hStep
    cases step with
    | stop | call | join =>
      rw [restoreNode] at hEq
      split at hEq <;> cases hEq <;> exact .none (by rintro op ops ⟨⟩) (by rintro ⟨⟩) rfl rfl
    | push =>
      cases hEq
      exact .ended .restore rfl rfl
    | loop =>
      cases hEq
      exact .ensured .restore rfl rfl
    | replaced | restart exit | settle exit =>
      cases hEq
      exact .none (by rintro op ops ⟨⟩) (by rintro ⟨⟩) rfl rfl
    | core exit start =>
      simp only [restoreNode] at hEq
      obtain ⟨op, ops, rfl, hPosted⟩ | hSame := h.startCore_effect answer.start start
      · rw [hPosted] at hEq
        cases hEq
        exact .notified op ops _ (.restore ..) rfl (.restore ..) rfl rfl
      · split at hEq
        all_goals
          next hCore =>
          rw [hCore] at hSame
          cases hEq
          refine .none ?_ (by rintro ⟨⟩) hSame.2.1 hSame.2.2
          rintro op ops ⟨⟩
          exact hSame.1 op ops rfl

/-! ## A restore never waits for good -/

structure Consumes (h : Holder) : Prop where
  front : ∀ event, h.InHand event → event ≠ .nodeStopped → h.pending.head? = some event
  ending : ∀ rest, h.chain = .restore .join :: rest → h.loopJob ≠ none → h.Departing
  held : h.InHand .nodeStopped → h.pending ≠ [] ∨
    ∃ link rest ops, h.chain = link :: rest ∧ link.Notifies (.push .nodeStarted :: ops)

theorem InHand.of_eq (hLoop : h'.loopJob = h.loopJob) {event : Event} (hHand : h'.InHand event) : h.InHand event := by
  rw [InHand, hLoop] at hHand
  exact hHand

theorem pending_of_eq (hEvents : h'.events = h.events) : h'.pending = h.pending := by rw [pending, hEvents, pending]

theorem Consumes.main (hConsumes : h.Consumes) (hMain : Main h h') : h'.Consumes := by
  obtain ⟨hEvents, hLoop, -, hChain⟩ := hMain
  have hPending := pending_of_eq hEvents
  have hFirst : ∀ link rest, h.chain = link :: rest → ∃ rest, h'.chain = link :: rest := by
    intro link rest hHere
    obtain hSame | ⟨last, -, hMore⟩ := hChain
    · exact ⟨rest, hSame.trans hHere⟩
    · exact ⟨rest ++ [last], by rw [hMore, hHere, List.cons_append]⟩
  refine ⟨?_, ?_, ?_⟩
  · intro event hHand hOther
    rw [hPending]
    exact hConsumes.front event (hHand.of_eq hLoop) hOther
  · intro rest hJoin hSome
    rw [hLoop] at hSome
    have hDeparting : ∀ rest, h.chain = .restore .join :: rest → h'.Departing := by
      intro rest hHere
      rw [Departing, InHand, hPending, hLoop]
      exact hConsumes.ending rest hHere hSome
    obtain hSame | ⟨last, hLast, hMore⟩ := hChain
    · exact hDeparting rest (hSame.symm.trans hJoin)
    · obtain ⟨-, rfl, -⟩ | ⟨others, hHere, -⟩ := first_of_append (hMore.symm.trans hJoin)
      · exact hLast.elim
      · exact hDeparting others hHere
  · intro hHand
    rw [hPending]
    refine (hConsumes.held (hHand.of_eq hLoop)).imp_right ?_
    rintro ⟨link, rest, ops, hHere, hNotifies⟩
    obtain ⟨rest, hThere⟩ := hFirst link rest hHere
    exact ⟨link, rest, ops, hThere, hNotifies⟩

theorem inHand_iff {step : LoopStep} (hLoop : h.loopJob = some step) (event : Event) :
    h.InHand event ↔ step.inHand = some event := by
  rw [InHand, hLoop]
  rfl

theorem Consumes.loop {step : LoopStep} (hConsumes : h.Consumes) (hLoop : h.loopJob = some step)
    (hStep : h.runEventLoop step = some h') : h'.Consumes := by
  have hBusy : h.loopJob ≠ none := by
    rw [hLoop]
    exact Option.some_ne_none _
  have hHand := fun event => inHand_iff hLoop event
  cases step with
  | next =>
    obtain ⟨event, hPeek, hEq⟩ := Option.map_eq_some_iff.mp hStep
    have hLoop' : h'.loopJob = some (.handle event) := by rw [← hEq]
    have hChain : h'.chain = h.chain := by rw [← hEq]; rfl
    have hSame : h'.pending = h.pending := by rw [← hEq]; exact pending_next h
    refine ⟨?_, ?_, fun _ => .inl ?_⟩
    · intro other hOther _
      rw [hSame]
      cases (inHand_iff hLoop' other).mp hOther
      exact hPeek
    · intro rest hJoin _
      obtain hMem | hHeld := hConsumes.ending rest (hChain.symm.trans hJoin) hBusy
      · left
        rw [hSame]
        exact hMem
      · cases (hHand _).mp hHeld
    · rw [hSame]
      intro hNil
      rw [pending] at hNil
      rw [EventQueue.peek, hNil] at hPeek
      cases hPeek
  | handle event =>
    have hEq : { h.update (·.reduce event) with loopJob := some (.ack event) } = h' := Option.some.inj hStep
    have hLoop' : h'.loopJob = some (.ack event) := by rw [← hEq]
    have hChain : h'.chain = h.chain := by rw [← hEq]; rfl
    have hSame : h'.pending = h.pending := by rw [← hEq]; rfl
    have hHeld : ∀ other, h'.InHand other ↔ h.InHand other := fun other => (inHand_iff hLoop' other).trans (hHand other).symm
    refine ⟨?_, ?_, ?_⟩
    · intro other hOther
      rw [hSame]
      exact hConsumes.front other ((hHeld other).mp hOther)
    · intro rest hJoin _
      rw [Departing, hSame, hHeld]
      exact hConsumes.ending rest (hChain.symm.trans hJoin) hBusy
    · rw [hHeld, hSame, hChain]
      exact hConsumes.held
  | ack event =>
    rw [runEventLoop] at hStep
    split at hStep
    · cases hStep
    have hEq : { h.queue .ack with loopJob := if event = .nodeStopped then none else some .next } = h' :=
      Option.some.inj hStep
    have hLoop' : h'.loopJob = if event = .nodeStopped then none else some .next := by rw [← hEq]
    have hChain : h'.chain = h.chain := by rw [← hEq]; rfl
    have hSame : h'.pending = h.pending.tail := by rw [← hEq]; exact pending_ack h
    have hFree : ∀ other, ¬ h'.InHand other := by
      intro other
      rw [InHand, hLoop']
      split <;> simp [LoopStep.inHand]
    refine ⟨fun other hOther => absurd hOther (hFree other), ?_, fun hOther => absurd hOther (hFree _)⟩
    intro rest hJoin hSome
    have hOther : event ≠ .nodeStopped := by
      rintro rfl
      exact hSome (hLoop'.trans (if_pos rfl))
    have hFirst := hConsumes.front event ((hHand event).mpr rfl) hOther
    left
    rw [hSame]
    obtain hMem | hHeld := hConsumes.ending rest (hChain.symm.trans hJoin) hBusy
    · cases hPending : h.pending with
      | nil =>
        rw [hPending] at hMem
        cases hMem
      | cons first others =>
        rw [hPending] at hMem hFirst
        cases hFirst
        exact (List.mem_cons.mp hMem).resolve_left (Ne.symm hOther)
    · cases (hHand _).mp hHeld
      exact absurd rfl hOther

theorem Consumes.emit (hConsumes : h.Consumes) (event : Event) : (h.queue (.push event)).Consumes := by
  refine ⟨?_, ?_, fun _ => .inl ?_⟩
  · intro other hHand hOther
    rw [pending_push]
    exact head?_append (hConsumes.front other hHand hOther) event
  · intro rest hJoin hSome
    refine (hConsumes.ending rest hJoin hSome).imp_left fun hMem => ?_
    rw [pending_push]
    exact List.mem_append_left _ hMem
  · rw [pending_push]
    exact List.append_ne_nil_of_right_ne_nil _ (List.cons_ne_nil _ _)

/-- Only a stop that has just ended a session goes on to wait for the loop. -/
theorem ends_of_join (hStep : h.runLink answer link = some (h', some (.restore .join))) : link = .restore .push := by
  cases link with
  | start step =>
    have hEq : h.startNode answer step = (h', some (.restore .join)) := Option.some.inj hStep
    cases step with
    | check =>
      rw [startNode] at hEq
      split at hEq <;> cases hEq
    | core start =>
      simp only [startNode] at hEq
      split at hEq
      · cases hEq
      · split at hEq <;> cases hEq
    | loop => cases hEq
  | stop step =>
    have hEq : h.stopNode step = (h', some (.restore .join)) := Option.some.inj hStep
    cases step with
    | check | call =>
      rw [stopNode] at hEq
      split at hEq <;> cases hEq
    | push => cases hEq
  | restore step =>
    have hEq : h.restoreNode answer step = some (h', some (.restore .join)) := hStep
    cases step with
    | push => rfl
    | stop | call | join =>
      rw [restoreNode] at hEq
      split at hEq <;> cases hEq
    | restart exit =>
      rw [restoreNode] at hEq
      split at hEq <;> cases hEq
    | core exit start =>
      simp only [restoreNode] at hEq
      split at hEq <;> cases hEq
    | loop | replaced | settle exit => cases hEq

theorem following_of_stands {ops : List QueueOp} (hNotifies : link.Notifies ops) (hStands : h.Stands quiet link) :
    Following ops := by
  cases hNotifies with
  | start ops => exact hStands.2
  | restore exit ops => exact hStands.2.1

/-- After the purge comes the push of the start, and no push ends a session. -/
theorem following_cases {op : QueueOp} {ops : List QueueOp} (h : Following (op :: ops)) :
    (op = .purge ∧ ∃ others, ops = .push .nodeStarted :: others) ∨ ∃ event, op = .push event ∧ event ≠ .nodeStopped := by
  obtain ⟨chainSynced, front, hEq⟩ := h
  -- what is before the operation is shorter than the whole
  rcases front with _ | ⟨first, _ | ⟨second, _ | ⟨third, front⟩⟩⟩ <;> cases chainSynced <;> first
    | cases hEq
    | simp [startOps] at hEq
  · exact .inl ⟨rfl, _, rfl⟩
  · exact .inl ⟨rfl, _, rfl⟩
  · exact .inr ⟨_, rfl, by simp⟩
  · exact .inr ⟨_, rfl, by simp⟩
  · exact .inr ⟨_, rfl, by simp⟩

theorem inHand_ensured (hLoop : h'.loopJob = some (h.loopJob.getD .next)) (event : Event) :
    h'.InHand event ↔ h.InHand event := by
  rw [InHand, InHand, hLoop]
  cases h.loopJob <;> rfl

theorem inHand_eq (hLoop : h'.loopJob = h.loopJob) (event : Event) : h'.InHand event ↔ h.InHand event := by
  rw [InHand, hLoop, InHand]

theorem Consumes.advance (hConsumes : h.Consumes) (hSerial : h.Serial) (hChain : h.chain = link :: rest)
    (hStep : h.runLink answer link = some (h', found)) : { h' with chain := found.toList ++ rest }.Consumes := by
  have hEffect := runLink_effect hStep
  have hStands := hSerial.first link rest hChain
  have hUnstarted := hSerial.unstarted
  rw [hChain, List.tail_cons] at hUnstarted
  -- a link that comes to wait has just ended the session
  have hWaits : ∀ others, found.toList ++ rest = .restore .join :: others → .nodeStopped ∈ h'.pending := by
    intro others hJoin
    cases found with
    | none =>
      have hMem : Link.restore .join ∈ rest := by
        rw [show rest = .restore .join :: others from hJoin]
        exact List.mem_cons_self
      exact (hUnstarted _ hMem).elim
    | some next =>
      cases hJoin
      obtain rfl := ends_of_join hStep
      cases hStep
      rw [pending_push]
      exact List.mem_append_right _ List.mem_cons_self
  have hPushed : ∀ event, h'.events = (h.queue (.push event)).events → h'.loopJob = h.loopJob →
      { h' with chain := found.toList ++ rest }.Consumes := by
    intro event hEvents hLoop
    have hPending : h'.pending = h.pending ++ [event] := (pending_of_eq hEvents).trans (pending_push h event)
    refine ⟨?_, fun others hJoin _ => .inl (hWaits others hJoin), fun _ => .inl ?_⟩
    · intro other hHand hOther
      change h'.pending.head? = some other
      rw [hPending]
      exact head?_append (hConsumes.front other ((inHand_eq hLoop other).mp hHand) hOther) event
    · change h'.pending ≠ []
      rw [hPending]
      exact List.append_ne_nil_of_right_ne_nil _ (List.cons_ne_nil _ _)
  have hSame : (∀ op ops, ¬ link.Notifies (op :: ops)) → h'.events = h.events →
      (∀ event, h'.InHand event → h.InHand event) → { h' with chain := found.toList ++ rest }.Consumes := by
    intro hQuiet hEvents hHand
    have hPending := pending_of_eq hEvents
    refine ⟨?_, fun others hJoin _ => .inl (hWaits others hJoin), fun hHeld => .inl ?_⟩
    · intro other hOther
      change _ → h'.pending.head? = some other
      rw [hPending]
      exact hConsumes.front other (hHand other hOther)
    · change h'.pending ≠ []
      rw [hPending]
      refine (hConsumes.held (hHand _ hHeld)).resolve_right ?_
      rintro ⟨first, others, ops, hFirst, hNotifies⟩
      cases hChain.symm.trans hFirst
      exact hQuiet _ _ hNotifies
  cases hEffect with
  | none hQuiet hOther hEvents hLoop => exact hSame hQuiet hEvents fun event => (inHand_eq hLoop event).mp
  | ended hLink hEvents hLoop => exact hPushed _ hEvents hLoop
  | ensured hLink hEvents hLoop =>
    refine hSame ?_ hEvents fun event => (inHand_ensured hLoop event).mp
    intro op ops hNotifies
    cases hLink <;> cases hNotifies
  | notified op ops next hLink hNext hLeft hEvents hLoop =>
    subst hNext
    obtain ⟨rfl, others, rfl⟩ | ⟨event, rfl, -⟩ := following_cases (following_of_stands hLink hStands)
    · have hPending : h'.pending = h.pending.filter fun event => event ≠ .nodeStopped :=
        (pending_of_eq hEvents).trans (pending_purge h)
      refine ⟨?_, fun others hJoin _ => .inl (hWaits others hJoin), fun _ => .inr ⟨next, rest, others, rfl, hLeft⟩⟩
      intro other hHand hOther
      change h'.pending.head? = some other
      rw [hPending]
      exact head?_filter (hConsumes.front other ((inHand_eq hLoop other).mp hHand) hOther) hOther
    · exact hPushed event hEvents hLoop

theorem Consumes.step {act : Act} (hConsumes : h.Consumes) (hSerial : h.Serial) (hStep : h.step act = some h') :
    h'.Consumes := by
  obtain hMain | ⟨answer, link, rest, h'', found, -, hChain, hRun, rfl⟩ | ⟨step, hLoop, hRun⟩ | ⟨event, rfl⟩ := step_cases hStep
  · exact hConsumes.main hMain
  · exact hConsumes.advance hSerial hChain hRun
  · exact hConsumes.loop hLoop hRun
  · exact hConsumes.emit event.toEvent

theorem consumes_fresh (kvStore : QueueFile) : (fresh kvStore).Consumes := by
  refine ⟨?_, ?_, ?_⟩
  · intro event hHand
    cases hHand
  · intro rest hChain
    cases hChain
  · intro hHand
    cases hHand

theorem serial_consumes_run {kvStore : QueueFile} {acts : List Act} (hRun : exec step (fresh kvStore) acts = some h) :
    h.Serial ∧ h.Consumes :=
  exec_inv_all (P := fun h => h.Serial ∧ h.Consumes) (fun _ _ _ hInv hStep => ⟨hInv.1.step hStep, hInv.2.step hInv.1 hStep⟩)
    ⟨serial_fresh kvStore, consumes_fresh kvStore⟩ hRun

theorem runLink_isSome (h : Holder) (answer : CoreAnswer) (hLink : link ≠ .restore .join) :
    (h.runLink answer link).isSome = true := by
  cases link with
  | start step | stop step => rfl
  | restore step =>
    cases step with
    | join => exact absurd rfl hLink
    | push | loop | replaced | restart exit | settle exit => rfl
    | stop | call =>
      rw [runLink, restoreNode]
      split <;> rfl
    | core exit start =>
      simp only [runLink, restoreNode]
      split <;> rfl

/-- The chain goes on, or it waits for the loop, which then goes on. -/
theorem Consumes.unstuck (hConsumes : h.Consumes) (hBusy : h.chain ≠ []) (answer : CoreAnswer) :
    (h.step (.link answer)).isSome = true ∨ (h.step .loop).isSome = true := by
  obtain ⟨link, rest, hChain⟩ := List.exists_cons_of_ne_nil hBusy
  have hLink : (h.step (.link answer)).isSome = (h.runLink answer link).isSome := by
    simp only [Holder.step, hChain, Option.isSome_map]
  by_cases hJoin : link = .restore .join
  · subst hJoin
    cases hLoop : h.loopJob with
    | none =>
      left
      rw [hLink, runLink, restoreNode, if_pos hLoop]
      rfl
    | some step =>
      right
      have hDeparting := hConsumes.ending rest hChain (by rw [hLoop]; exact Option.some_ne_none _)
      rw [Holder.step, hLoop, Option.bind_some]
      cases step with
      | next =>
        have hMem := hDeparting.resolve_right fun hHand => by cases (inHand_iff hLoop _).mp hHand
        rw [runEventLoop, Option.isSome_map, EventQueue.peek, List.isSome_head?]
        rw [pending] at hMem
        simpa using List.ne_nil_of_mem hMem
      | handle event => rfl
      | ack event =>
        have hHand : h.InHand event := (inHand_iff hLoop event).mpr rfl
        have hPending : h.pending ≠ [] := by
          by_cases hEnd : event = .nodeStopped
          · subst hEnd
            refine (hConsumes.held hHand).resolve_right ?_
            rintro ⟨first, others, ops, hFirst, hNotifies⟩
            cases hChain.symm.trans hFirst
            cases hNotifies
          · intro hNil
            have hFirst := hConsumes.front event hHand hEnd
            rw [hNil] at hFirst
            cases hFirst
        rw [pending] at hPending
        rw [runEventLoop, if_neg hPending]
        rfl
  · left
    rw [hLink]
    exact h.runLink_isSome answer hJoin

/-! ## Who consumes the queue -/

def seenTo (h : Holder) : Bool :=
  match h.chain with
  | [] => h.running
  | link :: _ => link.seenTo h.running

/-- No loop is found on its way out, and no session's end is dropped from the loop's hand. -/
def Clear (h : Holder) : Act → Prop
  | .link _ => ∀ link ∈ h.chain.head?,
    (link.ensures = true → ¬ h.Departing) ∧ (link.purges = true → ¬ h.InHand .nodeStopped)
  | _ => True

instance decidableClear (h : Holder) : (act : Act) → Decidable (h.Clear act)
  | .link _ => inferInstanceAs (Decidable (∀ link ∈ h.chain.head?,
      (link.ensures = true → ¬ h.Departing) ∧ (link.purges = true → ¬ h.InHand .nodeStopped)))
  | .moveTo _ | .callback | .startRestore | .clearRestore | .loop | .emit _ => isTrue trivial

structure Consumer (h : Holder) : Prop where
  ledger : h.events.Inv
  front : ∀ event, h.InHand event → h.pending.head? = some event ∧ h.events.handed = true
  live : h.seenTo = true → h.loopJob ≠ none ∧ ¬ h.Departing

theorem seenTo_unstarted {running : Bool} (hLink : link.Unstarted) : link.seenTo running = running := by
  cases link with
  | start step | stop step | restore step => cases step <;> first
    | rfl
    | exact hLink.elim

/-- A step after which the loop is seen to comes from one before which it was, unless it saw to it itself. -/
theorem seenTo_before (hStep : h.runLink answer link = some (h', found)) (hLink : ¬ link.Ensures)
    (hSeen : (found.map (Link.seenTo h'.running)).getD h'.running = true) : link.seenTo h.running = true := by
  cases link with
  | start step =>
    have hEq : h.startNode answer step = (h', found) := Option.some.inj hStep
    cases step with
    | check =>
      rw [startNode] at hEq
      split at hEq <;> cases hEq <;> exact hSeen
    | core start =>
      cases start with
      | call =>
        simp only [startNode, startCore] at hEq
        by_cases hRunning : h.running = true
        · exact hRunning
        · rw [if_neg hRunning] at hEq
          cases hAnswer : answer.start <;> rw [hAnswer] at hEq <;> cases hEq
          · cases hSeen
          · exact hSeen
          · exact hSeen
      | notify ops =>
        cases ops <;> cases hEq <;> cases hSeen
    | loop => exact absurd .start hLink
  | stop step =>
    have hEq : h.stopNode step = (h', found) := Option.some.inj hStep
    cases step with
    | check =>
      rw [stopNode] at hEq
      split at hEq <;> cases hEq <;> exact hSeen
    | call =>
      rw [stopNode] at hEq
      split at hEq
      · cases hEq
        cases hSeen
      · cases hEq
        exact hSeen
    | push =>
      cases hEq
      exact hSeen
  | restore step =>
    have hEq : h.restoreNode answer step = some (h', found) := hStep
    cases step with
    | stop =>
      rw [restoreNode] at hEq
      split at hEq
      · cases hEq
        cases hSeen
      · cases hEq
        exact hSeen
    | push =>
      cases hEq
      exact hSeen
    | join =>
      rw [restoreNode] at hEq
      split at hEq
      · cases hEq
        exact hSeen
      · cases hEq
    | loop => exact absurd .restore hLink
    | call | replaced | restart exit | core exit start | settle exit => rfl

theorem seenTo_of_ended (hLink : link.Ends) (hStands : h.Stands quiet link) : link.seenTo h.running = false := by
  cases hLink <;> exact hStands

theorem ensures_of (hLink : link.Ensures) : link.ensures = true := by cases hLink <;> rfl

theorem purges_of {ops : List QueueOp} (hLink : link.Notifies (.purge :: ops)) : link.purges = true := by
  cases hLink <;> rfl

theorem departing_iff (hEvents : h'.pending = h.pending) (hHand : ∀ event, h'.InHand event ↔ h.InHand event) :
    h'.Departing ↔ h.Departing := by
  rw [Departing, hEvents, hHand, Departing]

theorem Consumer.main (hConsumer : h.Consumer) (hMain : Main h h') : h'.Consumer := by
  obtain ⟨hEvents, hLoop, hRunning, hChain⟩ := hMain
  have hPending := pending_of_eq hEvents
  have hSeen : h'.seenTo = h.seenTo := by
    rw [Holder.seenTo, Holder.seenTo, hRunning]
    obtain hSame | ⟨last, hLast, hMore⟩ := hChain
    · rw [hSame]
    · rw [hMore]
      cases h.chain with
      | nil => exact seenTo_unstarted hLast
      | cons first others => rfl
  refine ⟨?_, ?_, ?_⟩
  · rw [hEvents]
    exact hConsumer.ledger
  · intro event hHand
    rw [hPending, hEvents]
    exact hConsumer.front event ((inHand_eq hLoop event).mp hHand)
  · rw [hSeen, hLoop, departing_iff hPending (inHand_eq hLoop)]
    exact hConsumer.live

theorem events_push (h : Holder) (event : Event) : h.events.step (.push event) = some (h.queue (.push event)).events := rfl

theorem events_purge (h : Holder) : h.events.step .purge = some (h.queue .purge).events := rfl

theorem events_ack (h : Holder) : h.events.step .ack = some (h.queue .ack).events := rfl

theorem handed_purge (h : Holder) :
    (h.queue .purge).events.handed = (h.events.handed && decide (h.pending.head? ≠ some .nodeStopped)) := rfl

theorem Consumer.emit (hConsumer : h.Consumer) {event : Event} (hEvent : event ≠ .nodeStopped) :
    (h.queue (.push event)).Consumer := by
  refine ⟨hConsumer.ledger.push event (events_push h event), ?_, ?_⟩
  · intro other hHand
    obtain ⟨hFirst, hHanded⟩ := hConsumer.front other hHand
    rw [pending_push]
    exact ⟨head?_append hFirst event, hHanded⟩
  · intro hSeen
    obtain ⟨hLoop, hStays⟩ := hConsumer.live hSeen
    refine ⟨hLoop, fun hDeparting => hStays (hDeparting.imp_left fun hMem => ?_)⟩
    rw [pending_push, List.mem_append, List.mem_singleton] at hMem
    exact hMem.resolve_right (Ne.symm hEvent)

theorem seenTo_eq (hChain : h'.chain = h.chain) (hRunning : h'.running = h.running) : h'.seenTo = h.seenTo := by
  rw [Holder.seenTo, Holder.seenTo, hChain, hRunning]

theorem Consumer.loop {step : LoopStep} (hConsumer : h.Consumer) (hLoop : h.loopJob = some step)
    (hStep : h.runEventLoop step = some h') : h'.Consumer := by
  have hBeside := beside_loop hStep
  have hSeen := seenTo_eq hBeside.chain hBeside.running
  have hHand := fun event => inHand_iff hLoop event
  cases step with
  | next =>
    obtain ⟨event, hPeek, hEq⟩ := Option.map_eq_some_iff.mp hStep
    have hLoop' : h'.loopJob = some (.handle event) := by rw [← hEq]
    have hSame : h'.pending = h.pending := by rw [← hEq]; exact pending_next h
    have hNext : h.events.step .next = some h'.events := by
      rw [← hEq]
      change h.events.step .next = some ((h.events.step .next).getD h.events)
      rw [Ledger.step, hPeek]
      rfl
    have hHanded : h'.events.handed = true := by
      obtain ⟨-, -, hEvents⟩ := Option.map_eq_some_iff.mp hNext
      rw [← hEvents]
    refine ⟨hConsumer.ledger.next hNext, ?_, ?_⟩
    · intro other hOther
      cases (inHand_iff hLoop' other).mp hOther
      rw [hSame]
      exact ⟨hPeek, hHanded⟩
    · rw [hSeen]
      intro hLive
      obtain ⟨-, hStays⟩ := hConsumer.live hLive
      refine ⟨by rw [hLoop']; exact Option.some_ne_none _, ?_⟩
      rintro (hMem | hHeld)
      · rw [hSame] at hMem
        exact hStays (.inl hMem)
      · cases (inHand_iff hLoop' _).mp hHeld
        exact hStays (.inl (List.mem_of_mem_head? hPeek))
  | handle event =>
    have hEq : { h.update (·.reduce event) with loopJob := some (.ack event) } = h' := Option.some.inj hStep
    have hLoop' : h'.loopJob = some (.ack event) := by rw [← hEq]
    have hEvents : h'.events = h.events := by rw [← hEq]; rfl
    have hSame := pending_of_eq hEvents
    have hHeld : ∀ other, h'.InHand other ↔ h.InHand other := fun other => (inHand_iff hLoop' other).trans (hHand other).symm
    refine ⟨?_, ?_, ?_⟩
    · rw [hEvents]
      exact hConsumer.ledger
    · intro other hOther
      rw [hSame, hEvents]
      exact hConsumer.front other ((hHeld other).mp hOther)
    · rw [hSeen, departing_iff hSame hHeld]
      exact fun hLive => ⟨by rw [hLoop']; exact Option.some_ne_none _, (hConsumer.live hLive).2⟩
  | ack event =>
    rw [runEventLoop] at hStep
    split at hStep
    · cases hStep
    have hEq : { h.queue .ack with loopJob := if event = .nodeStopped then none else some .next } = h' :=
      Option.some.inj hStep
    have hLoop' : h'.loopJob = if event = .nodeStopped then none else some .next := by rw [← hEq]
    have hSame : h'.pending = h.pending.tail := by rw [← hEq]; exact pending_ack h
    have hAck : h.events.step .ack = some h'.events := by rw [← hEq]; exact events_ack h
    obtain ⟨hFirst, hHanded⟩ := hConsumer.front event ((hHand event).mpr rfl)
    have hFree : ∀ other, ¬ h'.InHand other := by
      intro other
      rw [InHand, hLoop']
      split <;> simp [LoopStep.inHand]
    refine ⟨hConsumer.ledger.ack (fun _ => hHanded) hAck, fun other hOther => absurd hOther (hFree other), ?_⟩
    rw [hSeen]
    intro hLive
    obtain ⟨-, hStays⟩ := hConsumer.live hLive
    have hOther : event ≠ .nodeStopped := by
      rintro rfl
      exact hStays (.inr ((hHand _).mpr rfl))
    rw [hLoop', if_neg hOther]
    refine ⟨Option.some_ne_none _, ?_⟩
    rintro (hMem | hHeld)
    · rw [hSame] at hMem
      exact hStays (.inl (List.mem_of_mem_tail hMem))
    · exact hFree _ hHeld

theorem Consumer.advance (hConsumer : h.Consumer) (hSerial : h.Serial) (hChain : h.chain = link :: rest)
    (hClear : h.Clear (.link answer)) (hStep : h.runLink answer link = some (h', found)) :
    { h' with chain := found.toList ++ rest }.Consumer := by
  have hEffect := runLink_effect hStep
  have hStands := hSerial.first link rest hChain
  have hUnstarted := hSerial.unstarted
  rw [hChain, List.tail_cons] at hUnstarted
  obtain ⟨hArrives, hKeeps⟩ := hClear link (by rw [hChain]; rfl)
  have hHere : h.seenTo = link.seenTo h.running := by rw [Holder.seenTo, hChain]
  -- a step that does not see to the loop finds it seen to
  have hBefore : ¬ link.Ensures → { h' with chain := found.toList ++ rest }.seenTo = true → h.seenTo = true := by
    intro hLink hSeen
    rw [hHere]
    refine seenTo_before hStep hLink ?_
    cases found with
    | some next => exact hSeen
    | none =>
      cases hRest : rest with
      | nil =>
        rw [hRest] at hSeen
        exact hSeen
      | cons first others =>
        rw [hRest] at hSeen
        change first.seenTo h'.running = true at hSeen
        rw [seenTo_unstarted (hUnstarted first (by rw [hRest]; exact List.mem_cons_self))] at hSeen
        exact hSeen
  have hPushed : ∀ event, (h.seenTo = true → event ≠ .nodeStopped) → ¬ link.Ensures →
      h'.events = (h.queue (.push event)).events → h'.loopJob = h.loopJob →
      { h' with chain := found.toList ++ rest }.Consumer := by
    intro event hEvent hLink hEvents hLoop
    have hPending : h'.pending = h.pending ++ [event] := (pending_of_eq hEvents).trans (pending_push h event)
    refine ⟨?_, ?_, ?_⟩
    · change h'.events.Inv
      rw [hEvents]
      exact hConsumer.ledger.push event (events_push h event)
    · intro other hHand
      obtain ⟨hFirst, hHanded⟩ := hConsumer.front other ((inHand_eq hLoop other).mp hHand)
      change h'.pending.head? = some other ∧ h'.events.handed = true
      rw [hPending, hEvents]
      exact ⟨head?_append hFirst event, hHanded⟩
    · intro hSeen
      have hLive := hBefore hLink hSeen
      obtain ⟨hSome, hStays⟩ := hConsumer.live hLive
      refine ⟨by rw [← hLoop] at hSome; exact hSome, ?_⟩
      rintro (hMem | hHeld)
      · change .nodeStopped ∈ h'.pending at hMem
        rw [hPending, List.mem_append, List.mem_singleton] at hMem
        exact hStays (.inl (hMem.resolve_right (Ne.symm (hEvent hLive))))
      · exact hStays (.inr ((inHand_eq hLoop _).mp hHeld))
  cases hEffect with
  | none hQuiet hOther hEvents hLoop =>
    have hPending := pending_of_eq hEvents
    refine ⟨?_, ?_, ?_⟩
    · change h'.events.Inv
      rw [hEvents]
      exact hConsumer.ledger
    · intro other hHand
      change h'.pending.head? = some other ∧ h'.events.handed = true
      rw [hPending, hEvents]
      exact hConsumer.front other ((inHand_eq hLoop other).mp hHand)
    · intro hSeen
      obtain ⟨hSome, hStays⟩ := hConsumer.live (hBefore hOther hSeen)
      rw [← hLoop] at hSome
      exact ⟨hSome, fun hDeparting => hStays ((departing_iff hPending (inHand_eq hLoop)).mp hDeparting)⟩
  | ended hLink hEvents hLoop =>
    refine hPushed .nodeStopped ?_ (by cases hLink <;> rintro ⟨⟩) hEvents hLoop
    intro hLive
    rw [hHere, seenTo_of_ended hLink hStands] at hLive
    cases hLive
  | ensured hLink hEvents hLoop =>
    have hPending := pending_of_eq hEvents
    refine ⟨?_, ?_, fun _ => ⟨?_, ?_⟩⟩
    · change h'.events.Inv
      rw [hEvents]
      exact hConsumer.ledger
    · intro other hHand
      change h'.pending.head? = some other ∧ h'.events.handed = true
      rw [hPending, hEvents]
      exact hConsumer.front other ((inHand_ensured hLoop other).mp hHand)
    · change h'.loopJob ≠ none
      rw [hLoop]
      exact Option.some_ne_none _
    · exact fun hDeparting => hArrives (ensures_of hLink) ((departing_iff hPending (inHand_ensured hLoop)).mp hDeparting)
  | notified op ops next hLink hNext hLeft hEvents hLoop =>
    have hOther : ¬ link.Ensures := by cases hLink <;> rintro ⟨⟩
    obtain ⟨rfl, others, rfl⟩ | ⟨event, rfl, hEvent⟩ := following_cases (following_of_stands hLink hStands)
    · have hKept := hKeeps (purges_of hLink)
      have hPending : h'.pending = h.pending.filter fun event => event ≠ .nodeStopped :=
        (pending_of_eq hEvents).trans (pending_purge h)
      refine ⟨?_, ?_, ?_⟩
      · change h'.events.Inv
        rw [hEvents]
        exact hConsumer.ledger.purge (events_purge h)
      · intro other hHand
        have hHeld := (inHand_eq hLoop other).mp hHand
        obtain ⟨hFirst, hHanded⟩ := hConsumer.front other hHeld
        have hGoesOn : other ≠ .nodeStopped := fun hEnd => hKept (hEnd ▸ hHeld)
        change h'.pending.head? = some other ∧ h'.events.handed = true
        rw [hPending, hEvents, handed_purge, hHanded, hFirst]
        exact ⟨head?_filter hFirst hGoesOn, by simpa using hGoesOn⟩
      · intro hSeen
        obtain ⟨hSome, hStays⟩ := hConsumer.live (hBefore hOther hSeen)
        refine ⟨by rw [← hLoop] at hSome; exact hSome, ?_⟩
        rintro (hMem | hHeld)
        · change .nodeStopped ∈ h'.pending at hMem
          rw [hPending] at hMem
          exact hStays (.inl (List.mem_filter.mp hMem).1)
        · exact hStays (.inr ((inHand_eq hLoop _).mp hHeld))
    · exact hPushed event (fun _ => hEvent) hOther hEvents hLoop

theorem Consumer.step {act : Act} (hConsumer : h.Consumer) (hSerial : h.Serial) (hClear : h.Clear act)
    (hStep : h.step act = some h') : h'.Consumer := by
  obtain hMain | ⟨answer, link, rest, h'', found, rfl, hChain, hRun, rfl⟩ | ⟨step, hLoop, hRun⟩ | ⟨event, rfl⟩ := step_cases hStep
  · exact hConsumer.main hMain
  · exact hConsumer.advance hSerial hChain hClear hRun
  · exact hConsumer.loop hLoop hRun
  · exact hConsumer.emit (toEvent_ne_stopped event)

theorem consumer_fresh {kvStore : QueueFile} (hWrites : ∀ n, kvStore.failure n = none) : (fresh kvStore).Consumer := by
  refine ⟨Ledger.start_inv hWrites, ?_, ?_⟩
  · intro event hHand
    cases hHand
  · intro hSeen
    cases hSeen

theorem consumer_run {kvStore : QueueFile} (hWrites : ∀ n, kvStore.failure n = none) {acts : List Act}
    (hClear : Along step Clear (fresh kvStore) acts) (hRun : exec step (fresh kvStore) acts = some h) : h.Consumer :=
  (exec_inv (P := fun h => h.Serial ∧ h.Consumer)
    (fun _ _ _ hInv hGuard hStep => ⟨hInv.1.step hStep, hInv.2.step hInv.1 hGuard hStep⟩)
    ⟨serial_fresh kvStore, consumer_fresh hWrites⟩ hClear hRun).2

end

end Holder

/-! ## Runs of a process -/

/-- Whatever the order of callbacks, restores, answers of the core and turns of the loop: when all transitions are
through, the node runs just when the app is in the foreground, unless the screen shows that it could not be started.
A restore never meets a running node, and transitions that are queued never get stuck. -/
theorem lifecycle_settles (kvStore : QueueFile) (acts : List Act) (h : Holder)
    (hRun : exec Holder.step (.fresh kvStore) acts = some h) :
    (h.chain = [] → h.callback = none →
      if h.foregrounded then h.running = true ∨ h.state.fenced = true ∨ h.state.startError ≠ none else h.running = false) ∧
    (∀ rest, h.chain = .restore .call :: rest → h.running = false) ∧
    (h.chain ≠ [] → ∀ answer, (h.step (.link answer)).isSome = true ∨ (h.step .loop).isSome = true) := by
  obtain ⟨hSerial, hConsumes⟩ := Holder.serial_consumes_run hRun
  refine ⟨hSerial.idle, fun rest hChain => hSerial.first _ rest hChain, fun hBusy answer => hConsumes.unstuck hBusy answer⟩

/-- The core starts, and restores what it is given. -/
def willing : CoreAnswer := ⟨.up true, .ok ()⟩

/-- The app leaves during a restore, and comes back after it. -/
def restoredAway : List Act :=
  [.moveTo true, .callback] ++ List.replicate 6 (.link willing) ++
    [.startRestore, .moveTo false, .callback, .link willing, .link willing] ++ List.replicate 6 .loop ++
    List.replicate 8 (.link willing) ++ [.moveTo true, .callback] ++ List.replicate 6 (.link willing)

theorem lifecycle_settles_restoredAway :
    ∃ h, exec Holder.step (.fresh emptyFile) restoredAway = some h ∧ h.foregrounded = true ∧
      (h.running = true ∨ h.state.fenced = true ∨ h.state.startError ≠ none) := by
  have hEnd : (exec Holder.step (.fresh emptyFile) restoredAway).map
      (fun h => (h.chain.length, h.callback, h.foregrounded)) = some (0, none, true) := by decide +kernel
  obtain ⟨h, hRun, hSeen⟩ := Option.map_eq_some_iff.mp hEnd
  obtain ⟨hChain, hCallback, hFront⟩ : h.chain.length = 0 ∧ h.callback = none ∧ h.foregrounded = true := by simpa using hSeen
  have hSettled := (lifecycle_settles emptyFile restoredAway h hRun).1 (List.length_eq_zero_iff.mp hChain) hCallback
  rw [hFront] at hSettled
  exact ⟨h, hRun, hFront, hSettled⟩

/-- As long as no loop is found on its way out and no session's end is dropped from its hand: the queue's contract
holds, what the loop has in hand is what it acknowledges, and a running node has its consumer once all transitions
are through. -/
theorem event_loop_consumes (kvStore : QueueFile) (hWrites : ∀ n, kvStore.failure n = none) (acts : List Act)
    (hClear : Along Holder.step Holder.Clear (.fresh kvStore) acts) (h : Holder)
    (hRun : exec Holder.step (.fresh kvStore) acts = some h) :
    h.events.Delivers ∧ (∀ event, h.InHand event → h.pending.head? = some event) ∧
    (h.chain = [] → h.running = true → h.loopJob ≠ none ∧ ¬ h.Departing) := by
  have hConsumer := Holder.consumer_run hWrites hClear hRun
  refine ⟨hConsumer.ledger.delivers, fun event hHand => (hConsumer.front event hHand).1, fun hIdle hRunning => ?_⟩
  refine hConsumer.live ?_
  rw [Holder.seenTo, hIdle]
  exact hRunning

theorem event_loop_consumes_restoredAway :
    ∃ h, exec Holder.step (.fresh emptyFile) restoredAway = some h ∧ h.events.Delivers ∧ h.loopJob ≠ none := by
  have hEnd : (exec Holder.step (.fresh emptyFile) restoredAway).map
      (fun h => (h.chain.length, h.running)) = some (0, true) := by decide +kernel
  obtain ⟨h, hRun, hSeen⟩ := Option.map_eq_some_iff.mp hEnd
  obtain ⟨hChain, hRunning⟩ : h.chain.length = 0 ∧ h.running = true := by simpa using hSeen
  obtain ⟨hDelivers, -, hLive⟩ := event_loop_consumes emptyFile (fun _ => rfl) restoredAway (by decide +kernel) h hRun
  exact ⟨h, hRun, hDelivers, (hLive (List.length_eq_zero_iff.mp hChain) hRunning).1⟩

/-- A stop is through but its end of session not consumed when the user comes back and restores: the loop that the
restore finds goes away under it, and nobody sees to a new one. -/
def restoredInHaste : List Act :=
  [.moveTo true, .callback] ++ List.replicate 6 (.link willing) ++
    [.loop, .loop, .loop, .moveTo false, .callback, .link willing, .link willing, .link willing, .moveTo true, .callback,
      .startRestore, .link willing, .link willing, .link willing, .loop, .loop, .loop] ++ List.replicate 8 (.link willing)

theorem restoredInHaste_unconsumed :
    ∃ h, exec Holder.step (.fresh emptyFile) restoredInHaste = some h ∧ h.chain.length = 0 ∧ h.running = true ∧
      h.loopJob = none := by
  have hEnd : (exec Holder.step (.fresh emptyFile) restoredInHaste).map
      (fun h => (h.chain.length, h.running, h.loopJob)) = some (0, true, none) := by decide +kernel
  obtain ⟨h, hRun, hSeen⟩ := Option.map_eq_some_iff.mp hEnd
  exact ⟨h, hRun, by simpa using hSeen⟩

end WalletCore.Shell
