import WalletCore.Shell.Holder

/-! # Where the transitions lead

The chain ends in what the last callback asked for, and a restore that steps in between ends in what the
foreground asks for when it restarts the node.
-/

namespace WalletCore.Shell

open Lib Events

/-! ## What a link of the chain will do -/

namespace Link

/-- What the callback that queued the link asks for. -/
def wish : Link → Option Bool
  | .start _ => some true
  | .stop _ => some false
  | .restore _ => none

def restores : Link → Bool
  | .restore _ => true
  | .start _ | .stop _ => false

def Unstarted : Link → Prop
  | .start .check | .stop .check | .restore .stop => True
  | _ => False

end Link

/-- What is left of a start's operations on the queue. -/
def Following (ops : List QueueOp) : Prop := ∃ chainSynced, ops <:+ startOps chainSynced

namespace Holder

/-- Running, or a failed start on the screen. -/
def Up (h : Holder) : Prop := h.running = true ∨ h.state.fenced = true ∨ h.state.startError ≠ none

def AsAsked (h : Holder) : Prop := if h.foregrounded then h.Up else h.running = false

/-- The callbacks whose transitions are not through, in their order. -/
def wishes (h : Holder) (links : List Link) : List Bool := links.filterMap Link.wish ++ h.callback.toList

/-- How the node stands while the link is the first of the chain; `quiet` when nothing was asked for since
it was queued. -/
def Stands (h : Holder) (quiet : Prop) : Link → Prop
  | .start (.core (.notify ops)) => h.running = true ∧ Following ops
  | .start .loop => h.running = true
  | .start .check | .start (.core .call) | .stop .check | .stop .call | .restore .stop => True
  | .stop .push => h.running = false
  | .restore .push | .restore .join | .restore .loop | .restore .call | .restore .replaced
  | .restore (.restart _) => h.running = false
  | .restore (.core _ .call) => h.running = false ∧ (quiet → h.foregrounded = true)
  | .restore (.core _ (.notify ops)) =>
    h.running = true ∧ Following ops ∧ (quiet → h.foregrounded = true)
  | .restore (.settle _) => quiet → h.AsAsked

structure Serial (h : Holder) : Prop where
  last : ∀ wish ∈ (h.wishes h.chain).getLast?, wish = h.foregrounded
  first : ∀ link rest, h.chain = link :: rest → h.Stands (h.wishes rest = []) link
  idle : h.chain = [] → h.callback = none → h.AsAsked
  unstarted : ∀ link ∈ h.chain.tail, link.Unstarted
  restoring : h.chain.countP Link.restores = if h.state.restoring then 1 else 0

section

variable {h h' : Holder} {link next : Link} {rest : List Link} {answer : CoreAnswer} {quiet : Prop}
  {found : Option Link}

/-! ## Steps beside the chain -/

/-- Nothing that the chain depends on changes; a failure on the screen stays. -/
structure Beside (h h' : Holder) : Prop where
  running : h'.running = h.running
  foregrounded : h'.foregrounded = h.foregrounded
  callback : h'.callback = h.callback
  chain : h'.chain = h.chain
  restoring : h'.state.restoring = h.state.restoring
  fenced : h.state.fenced = true → h'.state.fenced = true
  startError : h'.state.startError = h.state.startError

theorem Beside.asAsked (hBeside : Beside h h') (hAsked : h.AsAsked) : h'.AsAsked := by
  rw [AsAsked] at hAsked ⊢
  rw [hBeside.foregrounded]
  split
  · next hFront =>
    rw [if_pos hFront] at hAsked
    rw [Up, hBeside.running, hBeside.startError]
    exact hAsked.imp_right (Or.imp_left hBeside.fenced)
  · next hBack =>
    rw [if_neg hBack] at hAsked
    exact hBeside.running.trans hAsked

theorem Beside.stands (hBeside : Beside h h') (hStands : h.Stands quiet link) : h'.Stands quiet link := by
  have hAsked := hBeside.asAsked
  rw [Stands.eq_def] at hStands ⊢
  rw [hBeside.running, hBeside.foregrounded]
  split at hStands <;> first
    | exact hStands
    | exact fun hQuiet => hAsked (hStands hQuiet)

theorem Beside.serial (hBeside : Beside h h') (hSerial : h.Serial) : h'.Serial := by
  have hWishes : ∀ links, h'.wishes links = h.wishes links := fun links => by rw [wishes, wishes, hBeside.callback]
  refine ⟨?_, ?_, ?_, ?_, ?_⟩
  · rw [hWishes, hBeside.chain, hBeside.foregrounded]
    exact hSerial.last
  · intro link rest hChain
    rw [hWishes]
    exact hBeside.stands (hSerial.first link rest (hBeside.chain.symm.trans hChain))
  · intro hNil hNone
    exact hBeside.asAsked (hSerial.idle (hBeside.chain.symm.trans hNil) (hBeside.callback.symm.trans hNone))
  · rw [hBeside.chain]
    exact hSerial.unstarted
  · rw [hBeside.chain, hBeside.restoring]
    exact hSerial.restoring

theorem reduce_restoring (state : UiState) (event : Event) : (state.reduce event).restoring = state.restoring := by
  cases event with
  | restoreProgress step =>
    rw [UiState.reduce]
    split
    · next hRestoring => exact hRestoring.symm
    · rfl
  | _ => rfl

theorem reduce_startError (state : UiState) (event : Event) : (state.reduce event).startError = state.startError := by
  cases event with
  | restoreProgress step =>
    rw [UiState.reduce]
    split <;> rfl
  | _ => rfl

theorem reduce_fenced {state : UiState} (event : Event) (h : state.fenced = true) : (state.reduce event).fenced = true := by
  cases event with
  | fenced detail => rfl
  | restoreProgress step =>
    rw [UiState.reduce]
    split <;> exact h
  | _ => exact h

theorem beside_queue (h : Holder) (op : QueueOp) : Beside h (h.queue op) := ⟨rfl, rfl, rfl, rfl, rfl, id, rfl⟩

theorem beside_loop {step : LoopStep} (hStep : h.runEventLoop step = some h') : Beside h h' := by
  cases step with
  | next =>
    obtain ⟨event, -, rfl⟩ := Option.map_eq_some_iff.mp hStep
    exact ⟨rfl, rfl, rfl, rfl, rfl, id, rfl⟩
  | handle event =>
    cases hStep
    exact ⟨rfl, rfl, rfl, rfl, reduce_restoring .., reduce_fenced event, reduce_startError ..⟩
  | ack event =>
    rw [runEventLoop] at hStep
    split at hStep
    · cases hStep
    · cases hStep
      exact ⟨rfl, rfl, rfl, rfl, rfl, id, rfl⟩

/-! ## Steps of the chain -/

theorem AsAsked.of_up (hUp : h.Up) (hFront : h.foregrounded = true) : h.AsAsked := by
  rw [AsAsked, if_pos hFront]
  exact hUp

theorem AsAsked.of_stopped (hStopped : h.running = false) (hBack : h.foregrounded = false) : h.AsAsked := by
  rw [AsAsked, hBack, if_neg Bool.false_ne_true]
  exact hStopped

/-- The chain and what it was asked for stay, and so does a restore on the screen. -/
structure Kept (h h' : Holder) : Prop where
  foregrounded : h'.foregrounded = h.foregrounded
  callback : h'.callback = h.callback
  chain : h'.chain = h.chain
  restoring : h'.state.restoring = h.state.restoring

theorem startCore_kept (h : Holder) (answer : StartAnswer) (start : CoreStart) : Kept h (h.startCore answer start).1 := by
  cases start with
  | call =>
    unfold startCore
    dsimp only
    split
    · exact ⟨rfl, rfl, rfl, rfl⟩
    · cases answer <;> exact ⟨rfl, rfl, rfl, rfl⟩
  | notify ops => cases ops <;> exact ⟨rfl, rfl, rfl, rfl⟩

/-- How the node stands within a start of the core. -/
def InStart (h : Holder) : CoreStart → Prop
  | .call => True
  | .notify ops => h.running = true ∧ Following ops

/-- A start goes on with the node running, and ends with it running or with its failure on the screen. -/
inductive Started (h' : Holder) : CoreStart ⊕ Bool → Prop
  | on (ops : List QueueOp) (hRunning : h'.running = true) (hOps : Following ops) : Started h' (.inl (.notify ops))
  | up (hRunning : h'.running = true) : Started h' (.inr true)
  | failed (hStopped : h'.running = false) (hUp : h'.Up) : Started h' (.inr false)

theorem startCore_started {start : CoreStart} (answer : StartAnswer) (hStart : h.InStart start) :
    Started (h.startCore answer start).1 (h.startCore answer start).2 := by
  cases start with
  | call =>
    unfold startCore
    dsimp only
    split
    · next hRunning => exact .up hRunning
    · next hRunning =>
      have hStopped : h.running = false := by simpa using hRunning
      cases answer with
      | up chainSynced => exact .on _ rfl ⟨chainSynced, List.suffix_rfl⟩
      | fenced => exact .failed hStopped (.inr (.inl rfl))
      | failed message => exact .failed hStopped (.inr (.inr (Option.some_ne_none _)))
  | notify ops =>
    cases ops with
    | nil => exact .up hStart.1
    | cons op ops =>
      obtain ⟨hRunning, chainSynced, hSuffix⟩ := hStart
      exact .on ops hRunning ⟨chainSynced, (List.suffix_cons ..).trans hSuffix⟩

/-- What a step of the first link does: it goes on under the same wish, or it is through. A link that is left
out for a restore is through without having done anything. -/
structure Turn (h h' : Holder) (quiet : Prop) (link : Link) (next : Option Link) : Prop where
  foregrounded : h'.foregrounded = h.foregrounded
  callback : h'.callback = h.callback
  goesOn : ∀ link', next = some link' → h'.state.restoring = h.state.restoring ∧ link'.wish = link.wish ∧
    link'.restores = link.restores ∧ h'.Stands quiet link'
  through : next = none → h'.state.restoring = (h.state.restoring && !link.restores) ∧
    ((h.state.restoring = true ∧ link.restores = false) ∨
      (quiet → (∀ wish, link.wish = some wish → wish = h.foregrounded) → h'.AsAsked))

theorem kept_refl (h : Holder) : Kept h h := ⟨rfl, rfl, rfl, rfl⟩

theorem Turn.on (hKept : Kept h h') (hWish : next.wish = link.wish) (hRestores : next.restores = link.restores)
    (hStands : h'.Stands quiet next) : Turn h h' quiet link (some next) := by
  refine ⟨hKept.foregrounded, hKept.callback, ?_, fun hNone => by cases hNone⟩
  rintro _ ⟨⟩
  exact ⟨hKept.restoring, hWish, hRestores, hStands⟩

theorem Turn.ended (hKept : Kept h h') (hRestores : link.restores = false)
    (hAsked : (∀ wish, link.wish = some wish → wish = h.foregrounded) → h'.AsAsked) : Turn h h' quiet link none := by
  refine ⟨hKept.foregrounded, hKept.callback, fun _ hSome => (by cases hSome), fun _ => ⟨?_, .inr fun _ => hAsked⟩⟩
  rw [hKept.restoring, hRestores, Bool.not_false, Bool.and_true]

theorem Turn.skipped (hRestoring : h.state.restoring = true) (hRestores : link.restores = false) :
    Turn h h quiet link none := by
  refine ⟨rfl, rfl, fun _ hSome => (by cases hSome), fun _ => ⟨?_, .inl ⟨hRestoring, hRestores⟩⟩⟩
  rw [hRestores, Bool.not_false, Bool.and_true]

theorem startNode_turn {step : StartStep} (answer : CoreAnswer) (hStands : h.Stands quiet (.start step)) :
    Turn h (h.startNode answer step).1 quiet (.start step) (h.startNode answer step).2 := by
  cases step with
  | check =>
    rw [startNode]
    split
    · next hRestoring => exact .skipped hRestoring rfl
    · exact .on (kept_refl h) rfl rfl trivial
  | core start =>
    have hKept := h.startCore_kept answer.start start
    have hStarted := startCore_started answer.start (show h.InStart start by cases start <;> exact hStands)
    simp only [startNode]
    generalize h.startCore answer.start start = result at hKept hStarted
    obtain ⟨h', outcome⟩ := result
    cases hStarted with
    | on ops hRunning hOps => exact .on hKept rfl rfl ⟨hRunning, hOps⟩
    | up hRunning => exact .on hKept rfl rfl hRunning
    | failed hStopped hUp =>
      exact .ended hKept rfl fun hWish => .of_up hUp (hKept.foregrounded.trans (hWish true rfl).symm)
  | loop => exact .ended ⟨rfl, rfl, rfl, rfl⟩ rfl fun hWish => .of_up (.inl hStands) (hWish true rfl).symm

theorem stopNode_turn {step : StopStep} (hStands : h.Stands quiet (.stop step)) :
    Turn h (h.stopNode step).1 quiet (.stop step) (h.stopNode step).2 := by
  cases step with
  | check =>
    rw [stopNode]
    split
    · next hRestoring => exact .skipped hRestoring rfl
    · exact .on (kept_refl h) rfl rfl trivial
  | call =>
    rw [stopNode]
    split
    · exact .on ⟨rfl, rfl, rfl, rfl⟩ rfl rfl rfl
    · next hRunning =>
      exact .ended (kept_refl h) rfl fun hWish => .of_stopped (by simpa using hRunning) (hWish false rfl).symm
  | push => exact .ended ⟨rfl, rfl, rfl, rfl⟩ rfl fun hWish => .of_stopped hStands (hWish false rfl).symm

theorem restoreNode_turn {step : RestoreStep} (hStands : h.Stands quiet (.restore step))
    (hStep : h.restoreNode answer step = some (h', found)) : Turn h h' quiet (.restore step) found := by
  cases step with
  | stop =>
    rw [restoreNode] at hStep
    split at hStep
    · cases hStep
      exact .on ⟨rfl, rfl, rfl, rfl⟩ rfl rfl rfl
    · next hRunning =>
      cases hStep
      exact .on (kept_refl h) rfl rfl (show h.running = false by simpa using hRunning)
  | push | loop | replaced =>
    cases hStep
    exact .on ⟨rfl, rfl, rfl, rfl⟩ rfl rfl hStands
  | join =>
    rw [restoreNode] at hStep
    split at hStep
    · cases hStep
      exact .on (kept_refl h) rfl rfl hStands
    · cases hStep
  | call =>
    rw [restoreNode] at hStep
    split at hStep
    all_goals
      cases hStep
      exact .on (kept_refl h) rfl rfl hStands
  | restart exit =>
    cases hStep
    split
    · next hFront => exact .on (kept_refl h) rfl rfl ⟨hStands, fun _ => hFront⟩
    · next hBack => exact .on (kept_refl h) rfl rfl fun _ => .of_stopped hStands (by simpa using hBack)
  | core exit start =>
    have hKept := h.startCore_kept answer.start start
    have hIn : h.InStart start ∧ (quiet → h.foregrounded = true) := by
      cases start with
      | call => exact ⟨trivial, hStands.2⟩
      | notify ops => exact ⟨⟨hStands.1, hStands.2.1⟩, hStands.2.2⟩
    have hStarted := startCore_started answer.start hIn.1
    simp only [restoreNode] at hStep
    generalize h.startCore answer.start start = result at hKept hStarted hStep
    obtain ⟨h'', outcome⟩ := result
    have hFront : quiet → h''.foregrounded = true := fun hQuiet => hKept.foregrounded.trans (hIn.2 hQuiet)
    cases hStarted with
    | on ops hRunning hOps =>
      cases hStep
      exact .on hKept rfl rfl ⟨hRunning, hOps, hFront⟩
    | up hRunning =>
      cases hStep
      exact .on hKept rfl rfl fun hQuiet => .of_up (.inl hRunning) (hFront hQuiet)
    | failed hStopped hUp =>
      cases hStep
      exact .on hKept rfl rfl fun hQuiet => .of_up hUp (hFront hQuiet)
  | settle exit =>
    cases hStep
    refine ⟨rfl, rfl, fun _ hSome => (by cases hSome), fun _ => ⟨?_, .inr fun hQuiet _ => hStands hQuiet⟩⟩
    cases exit <;> simp [update, UiState.restoring, Exit.ui, Link.restores]

theorem runLink_turn (hStands : h.Stands quiet link) (hStep : h.runLink answer link = some (h', found)) :
    Turn h h' quiet link found := by
  cases link with
  | start step =>
    have hTurn := startNode_turn answer hStands
    rw [Option.some.inj hStep] at hTurn
    exact hTurn
  | stop step =>
    have hTurn := stopNode_turn hStands
    rw [Option.some.inj hStep] at hTurn
    exact hTurn
  | restore step => exact restoreNode_turn hStands hStep

theorem stands_of_unstarted (hLink : link.Unstarted) : h.Stands quiet link := by
  cases link with
  | start step | stop step | restore step => cases step <;> trivial

theorem getLast?_append_right {α : Type} {front back : List α} {a : α} (h : a ∈ back.getLast?) :
    a ∈ (front ++ back).getLast? := by
  have hBack : back ≠ [] := by
    rintro rfl
    cases h
  rw [List.getLast?_append_of_ne_nil _ hBack]
  exact h

theorem Serial.advance (hSerial : h.Serial) (hChain : h.chain = link :: rest)
    (hStep : h.runLink answer link = some (h', found)) : { h' with chain := found.toList ++ rest }.Serial := by
  have hTurn := runLink_turn (hSerial.first link rest hChain) hStep
  have hWishes : ∀ links, { h' with chain := found.toList ++ rest }.wishes links = h.wishes links := fun links => by
    rw [wishes, wishes, hTurn.callback]
  have hLast := hSerial.last
  have hUnstarted := hSerial.unstarted
  have hCount := hSerial.restoring
  have hOnwards : h.wishes (link :: rest) = link.wish.toList ++ h.wishes rest := by
    cases hWish : link.wish <;> simp [wishes, hWish]
  rw [hChain, hOnwards] at hLast
  rw [hChain] at hUnstarted
  rw [hChain, List.countP_cons] at hCount
  cases found with
  | some next =>
    obtain ⟨hRestoring, hWish, hRestores, hStands⟩ := hTurn.goesOn next rfl
    have hSame : h.wishes (next :: rest) = h.wishes (link :: rest) := by
      simp only [wishes, List.filterMap_cons, hWish]
    refine ⟨?_, ?_, fun hNil => (by cases hNil), hUnstarted, ?_⟩
    · rw [hWishes, hTurn.foregrounded]
      refine fun wish hMem => hLast wish ?_
      rw [← hOnwards, ← hSame]
      exact hMem
    · rintro _ _ ⟨⟩
      rw [hWishes]
      exact hStands
    · change (next :: rest).countP Link.restores = _
      rw [List.countP_cons, hRestores, hRestoring]
      exact hCount
  | none =>
    obtain ⟨hRestoring, hEnd⟩ := hTurn.through rfl
    refine ⟨?_, ?_, ?_, fun other hOther => hUnstarted other (List.mem_of_mem_tail hOther), ?_⟩
    · rw [hWishes, hTurn.foregrounded]
      exact fun wish hMem => hLast wish (getLast?_append_right hMem)
    · intro first others hFirst
      have hMem : first ∈ rest := by
        rw [show rest = first :: others from hFirst]
        exact List.mem_cons_self
      exact stands_of_unstarted (hUnstarted first hMem)
    · intro hNil hNone
      obtain rfl : rest = [] := hNil
      have hQuiet : h.wishes [] = [] := by rw [wishes, ← hTurn.callback, show h'.callback = none from hNone]; rfl
      rcases hEnd with ⟨hSkipped, hOther⟩ | hAsked
      · -- a transition is left out for a restore behind it only
        rw [hSkipped, hOther] at hCount
        cases hCount
      · refine hAsked hQuiet fun wish hWish => hLast wish ?_
        rw [hQuiet, hWish]
        rfl
    · change rest.countP Link.restores = if h'.state.restoring = true then 1 else 0
      rw [hRestoring]
      cases hRestores : link.restores <;> cases hHere : h.state.restoring <;> simp_all

/-! ## Steps of the main thread -/

theorem wishes_append (h : Holder) (links : List Link) (link : Link) (hNone : h.callback = none) :
    h.wishes (links ++ [link]) = h.wishes links ++ link.wish.toList := by
  rw [wishes, wishes, hNone, List.filterMap_append]
  cases hWish : link.wish <;> simp [hWish]

/-- A link that joins the chain is the first of it or has others before it. -/
theorem first_of_append {links : List Link} (hFirst : links ++ [link] = next :: rest) :
    (links = [] ∧ next = link ∧ rest = []) ∨ ∃ others, links = next :: others ∧ rest = others ++ [link] := by
  cases links with
  | nil =>
    cases hFirst
    exact .inl ⟨rfl, rfl, rfl⟩
  | cons head others =>
    cases hFirst
    exact .inr ⟨others, rfl, rfl⟩

theorem unstarted_append {links : List Link} (hTail : ∀ other ∈ links.tail, other.Unstarted) (hLink : link.Unstarted) :
    ∀ other ∈ (links ++ [link]).tail, other.Unstarted := by
  cases links with
  | nil => simp
  | cons head others =>
    intro other hOther
    rw [List.cons_append, List.tail_cons, List.mem_append, List.mem_singleton] at hOther
    rcases hOther with hOther | rfl
    · exact hTail other hOther
    · exact hLink

theorem Serial.moveTo (hSerial : h.Serial) (foregrounded : Bool) :
    { h with foregrounded := foregrounded, callback := some foregrounded }.Serial := by
  have hBusy : ∀ links, { h with foregrounded := foregrounded, callback := some foregrounded }.wishes links =
      links.filterMap Link.wish ++ [foregrounded] := fun _ => rfl
  refine ⟨?_, ?_, fun _ hNone => (by cases hNone), hSerial.unstarted, hSerial.restoring⟩
  · rw [hBusy, List.getLast?_concat]
    rintro _ ⟨⟩
    rfl
  · intro link rest hChain
    have hStands := hSerial.first link rest hChain
    have hNot : ¬ { h with foregrounded := foregrounded, callback := some foregrounded }.wishes rest = [] := by
      rw [hBusy]
      simp
    rw [Stands.eq_def] at hStands ⊢
    split at hStands <;> first
      | exact hStands
      | exact ⟨hStands.1, fun hQuiet => absurd hQuiet hNot⟩
      | exact ⟨hStands.1, hStands.2.1, fun hQuiet => absurd hQuiet hNot⟩
      | exact fun hQuiet => absurd hQuiet hNot

/-- What a callback asked for is queued. -/
theorem Serial.callback (hSerial : h.Serial) {foregrounded : Bool} (hCallback : h.callback = some foregrounded) :
    ({ h with callback := none }.enqueueLifecycle (.asked foregrounded)).Serial := by
  have hWish : (Link.asked foregrounded).wish = some foregrounded := by cases foregrounded <;> rfl
  have hUnstarted : (Link.asked foregrounded).Unstarted := by cases foregrounded <;> trivial
  have hRestores : (Link.asked foregrounded).restores = false := by cases foregrounded <;> rfl
  generalize Link.asked foregrounded = link at *
  have hAsked : foregrounded = h.foregrounded := hSerial.last foregrounded (by rw [wishes, hCallback]; simp)
  have hWishes : ∀ links, ({ h with callback := none }.enqueueLifecycle link).wishes (links ++ [link]) =
      links.filterMap Link.wish ++ [foregrounded] := fun links => by
    rw [wishes_append _ _ _ rfl, hWish, wishes, enqueueLifecycle]
    simp
  refine ⟨?_, ?_, fun hNil => absurd hNil (by simp [enqueueLifecycle]), unstarted_append hSerial.unstarted hUnstarted, ?_⟩
  · rw [enqueueLifecycle] at hWishes ⊢
    rw [hWishes, List.getLast?_concat]
    rintro _ ⟨⟩
    exact hAsked
  · intro next rest hFirst
    obtain ⟨-, rfl, rfl⟩ | ⟨others, hChain, rfl⟩ := first_of_append hFirst
    · exact stands_of_unstarted hUnstarted
    · have hStands := hSerial.first next others hChain
      have hNot : ¬ ({ h with callback := none }.enqueueLifecycle link).wishes (others ++ [link]) = [] := by
        rw [hWishes]
        simp
      rw [Stands.eq_def] at hStands ⊢
      split at hStands <;> first
        | exact hStands
        | exact ⟨hStands.1, fun hQuiet => absurd hQuiet hNot⟩
        | exact ⟨hStands.1, hStands.2.1, fun hQuiet => absurd hQuiet hNot⟩
        | exact fun hQuiet => absurd hQuiet hNot
  · change (h.chain ++ [link]).countP Link.restores = if h.state.restoring = true then 1 else 0
    rw [List.countP_append, List.countP_singleton, hRestores]
    exact hSerial.restoring

theorem Serial.startRestore (hSerial : h.Serial) (hNone : h.callback = none) (hRestoring : h.state.restoring = false) :
    ((h.update fun state => { state with restore := some (.inProgress restoreInitialStep) }).enqueueLifecycle
      (.restore .stop)).Serial := by
  have hWishes : ∀ links, h.wishes (links ++ [.restore .stop]) = h.wishes links := fun links => by
    rw [wishes_append _ _ _ hNone, Link.wish, Option.toList_none, List.append_nil]
  refine ⟨?_, ?_, fun hNil => absurd hNil (by simp [enqueueLifecycle]), unstarted_append hSerial.unstarted trivial, ?_⟩
  · change ∀ wish ∈ (h.wishes (h.chain ++ [.restore .stop])).getLast?, wish = h.foregrounded
    rw [hWishes]
    exact hSerial.last
  · intro next rest hFirst
    obtain ⟨-, rfl, rfl⟩ | ⟨others, hChain, rfl⟩ := first_of_append hFirst
    · exact stands_of_unstarted trivial
    · change Stands _ (h.wishes (others ++ [.restore .stop]) = []) next
      rw [hWishes]
      exact hSerial.first next others hChain
  · have hCount := hSerial.restoring
    rw [hRestoring] at hCount
    change (h.chain ++ [Link.restore .stop]).countP Link.restores = 1
    rw [List.countP_append, hCount]
    rfl

theorem beside_clearRestore (h : Holder) : Beside h (h.update UiState.clearRestore) := by
  rw [update, UiState.clearRestore]
  split
  · exact ⟨rfl, rfl, rfl, rfl, rfl, id, rfl⟩
  · next hRestoring =>
    have hStays : h.state.restoring = false := by simpa using hRestoring
    exact ⟨rfl, rfl, rfl, rfl, hStays.symm, id, rfl⟩

theorem Serial.step {act : Act} (hSerial : h.Serial) (hStep : h.step act = some h') : h'.Serial := by
  cases act with
  | moveTo foregrounded =>
    rw [Holder.step] at hStep
    split at hStep
    · cases hStep
      exact hSerial.moveTo foregrounded
    · cases hStep
  | callback =>
    obtain ⟨foregrounded, hCallback, rfl⟩ := Option.map_eq_some_iff.mp hStep
    exact hSerial.callback hCallback
  | startRestore =>
    rw [Holder.step] at hStep
    split at hStep
    · cases hStep
    · next hNone =>
      split at hStep
      · cases hStep
        exact hSerial
      · next hRestoring =>
        cases hStep
        exact hSerial.startRestore (not_not.mp hNone) (by simpa using hRestoring)
  | clearRestore =>
    rw [Holder.step] at hStep
    split at hStep
    · cases hStep
    · cases hStep
      exact (beside_clearRestore h).serial hSerial
  | link answer =>
    rw [Holder.step] at hStep
    split at hStep
    · cases hStep
    · next link rest hChain =>
      obtain ⟨⟨h'', found⟩, hRun, rfl⟩ := Option.map_eq_some_iff.mp hStep
      exact hSerial.advance hChain hRun
  | loop =>
    obtain ⟨step, -, hLoop⟩ := Option.bind_eq_some_iff.mp hStep
    exact (beside_loop hLoop).serial hSerial
  | emit event =>
    cases hStep
    exact (beside_queue h _).serial hSerial

theorem serial_fresh (kvStore : QueueFile) : (fresh kvStore).Serial := by
  refine ⟨?_, ?_, fun _ _ => .of_stopped rfl rfl, ?_, rfl⟩
  · intro wish hMem
    cases hMem
  · intro link rest hChain
    cases hChain
  · intro link hMem
    cases hMem

end

end Holder

end WalletCore.Shell
