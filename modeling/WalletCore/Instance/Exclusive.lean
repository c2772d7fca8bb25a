import WalletCore.Instance.Programs

/-! # One instance at a time

Whatever the order in which the calls of all handles and processes move, and wherever a process dies, the
lock has an owner exactly when a node is alive or a restore is under way, and one owner only. A build and a
restore therefore see the disk as if they were alone, and the words on disk are those of the node that is
alive. All this hangs on a handle not being dropped while its node runs.
-/

namespace WalletCore.Instance

open Lib Restore

/-! ## Who has the lock -/

inductive Place where
  | handle (handle : Handle)
  | call (id : Nat)
deriving DecidableEq

namespace World

def hasDirLock (w : World) : Place → Bool
  | .handle handle => (w.states handle).isSome
  | .call id => (w.calls id).any (·.phase.hasDirLock)

def processOf (w : World) : Place → Option Nat
  | .handle handle => some handle.process
  | .call id => (w.calls id).map (·.handle.process)

/-- The lock is taken for its one owner. -/
structure Owned (w : World) (owner : Option Place) : Prop where
  sole : ∀ place, w.hasDirLock place = true ↔ owner = some place
  lock : w.lock = owner.bind w.processOf

end World

section Invariant

variable (fs : FileSystem) (wallets : Wallets)

/-- What a call knows of the disk; a build also knows what it was begun with. -/
def Phase.Sees : Phase → Device → Prop
  | .building session, device => session.left = device ∧ ∃ input : StartInput,
      wallets.parseMnemonic input.generated = some input.generated ∧
        session.program = build fs wallets input.transport input.generated
  | .writing session, device => session.left = device
  | .assembled words, device | .stopping words, device => HasWords wallets words device
  | .dropping _, _ => False
  | .starting, _ | .unfenced, _ | .restoring, _ => True

structure World.Safe (w : World) : Prop where
  owned : ∃ owner, w.Owned owner
  calls : ∀ id call, w.calls id = some call → call.phase.Sees fs wallets w.device
  states : ∀ handle words, w.states handle = some words → HasWords wallets words w.device

end Invariant

variable {fs : FileSystem} {wallets : Wallets} {w : World} {id : Nat} {call : Call} {phase : Phase}

theorem Phase.Sees.elsewhere {device : Device} (h : phase.Sees fs wallets device) (hLock : phase.hasDirLock = false)
    (other : Device) : phase.Sees fs wallets other := by
  cases phase with
  | starting | unfenced | restoring => trivial
  | building | assembled | writing | stopping => cases hLock
  | dropping => exact h

theorem forall_update {calls : Nat → Option Call} {changed : Option Call} {P : Call → Prop}
    (hChanged : ∀ call, changed = some call → P call) (h : ∀ other call, other ≠ id → calls other = some call → P call)
    (other : Nat) (call : Call) (hCall : Function.update calls id changed other = some call) : P call := by
  by_cases hId : other = id
  · rw [hId, Function.update_self] at hCall
    exact hChanged call hCall
  · rw [Function.update_of_ne hId] at hCall
    exact h other call hId hCall

namespace World

theorem hasDirLock_call (h : w.calls id = some call) : w.hasDirLock (.call id) = call.phase.hasDirLock := by
  rw [hasDirLock, h, Option.any_some]

theorem processOf_owner {place : Place} (h : w.hasDirLock place = true) :
    ∃ process, w.processOf place = some process := by
  cases place with
  | handle handle => exact ⟨handle.process, rfl⟩
  | call id =>
    cases hCall : w.calls id with
    | none =>
      rw [hasDirLock, hCall] at h
      cases h
    | some call => exact ⟨call.handle.process, by rw [processOf, hCall, Option.map_some]⟩

theorem Owned.is {owner : Option Place} {place : Place} (h : w.Owned owner) (hPlace : w.hasDirLock place = true) :
    w.Owned (some place) :=
  (h.sole place).mp hPlace ▸ h

theorem Owned.other_call {place : Place} (h : w.Owned (some place)) (hOther : place ≠ .call id)
    (hCall : w.calls id = some call) : call.phase.hasDirLock = false := by
  rw [← hasDirLock_call hCall, Bool.eq_false_iff]
  intro hLock
  exact hOther (Option.some.inj ((h.sole _).mp hLock))

theorem Owned.other_state {place : Place} {handle : Handle} (h : w.Owned (some place)) (hOther : place ≠ .handle handle) :
    w.states handle = none := by
  by_contra hSome
  exact hOther (Option.some.inj ((h.sole (.handle handle)).mp (Option.isSome_iff_ne_none.mpr hSome)))

/-! ## What each move keeps -/

@[simp] theorem hasWords_apply {words : String} {device : Device} (write : NodeWrite) :
    HasWords wallets words (write.apply device) ↔ HasWords wallets words device := by
  cases write <;> rfl

theorem setPhase_owned {owner : Option Place} (h : w.Owned owner) (hCall : w.calls id = some call)
    (hSame : phase.hasDirLock = call.phase.hasDirLock) (device : Device) :
    ({ w.setPhase id call phase with device := device } : World).Owned owner := by
  have hPlace : ∀ place, ({ w.setPhase id call phase with device := device } : World).hasDirLock place =
      w.hasDirLock place := by
    rintro (handle | other)
    · rfl
    · by_cases hId : other = id
      · subst hId
        simp [hasDirLock, setPhase, hCall, hSame]
      · simp [hasDirLock, setPhase, hId]
  have hProcess : ({ w.setPhase id call phase with device := device } : World).processOf = w.processOf := by
    funext place
    rcases place with handle | other
    · rfl
    · by_cases hId : other = id
      · subst hId
        simp [processOf, setPhase, hCall]
      · simp [processOf, setPhase, hId]
  refine ⟨fun place => by rw [hPlace, h.sole], ?_⟩
  rw [hProcess]
  exact h.lock

/-- The owner's call goes on, and with it the disk. -/
theorem Safe.advance (h : w.Safe fs wallets) (hCall : w.calls id = some call) (hOwner : call.phase.hasDirLock = true)
    (hPhase : phase.hasDirLock = true) {device : Device} (hSees : phase.Sees fs wallets device) :
    ({ w.setPhase id call phase with device := device } : World).Safe fs wallets := by
  obtain ⟨owner, hOwned⟩ := h.owned
  have hMine := hOwned.is ((hasDirLock_call hCall).trans hOwner)
  refine ⟨⟨_, setPhase_owned hMine hCall (hPhase.trans hOwner.symm) device⟩, ?_, ?_⟩
  · refine forall_update (by rintro _ ⟨⟩; exact hSees) fun other found hId hFound => ?_
    exact (h.calls other found hFound).elsewhere (hMine.other_call (by simp [Ne.symm hId]) hFound) device
  · intro handle words hState
    cases (hMine.other_state (by simp)).symm.trans hState

theorem Safe.unlocked (h : w.Safe fs wallets) (hCall : w.calls id = some call) (hCaller : call.phase.hasDirLock = false)
    (hPhase : phase.hasDirLock = false) (hSees : phase.Sees fs wallets w.device) :
    (w.setPhase id call phase).Safe fs wallets := by
  obtain ⟨owner, hOwned⟩ := h.owned
  refine ⟨⟨owner, setPhase_owned hOwned hCall (hPhase.trans hCaller.symm) w.device⟩, ?_, h.states⟩
  exact forall_update (by rintro _ ⟨⟩; exact hSees) fun other found _ => h.calls other found

theorem Safe.endCall (h : w.Safe fs wallets) (hCall : w.calls id = some call) : (w.endCall id call).Safe fs wallets := by
  obtain ⟨owner, hOwned⟩ := h.owned
  have hPlace : ∀ place, (w.endCall id call).hasDirLock place =
      (w.hasDirLock place && decide (place ≠ .call id)) := by
    rintro (handle | other)
    · simp [hasDirLock, World.endCall]
    · by_cases hId : other = id
      · simp [hasDirLock, World.endCall, hId]
      · simp [hasDirLock, World.endCall, hId]
  refine ⟨?_, ?_, h.states⟩
  · cases hLock : call.phase.hasDirLock with
    | true =>
      have hMine := hOwned.is ((hasDirLock_call hCall).trans hLock)
      refine ⟨none, fun place => ?_, by simp [World.endCall, hLock]⟩
      rw [hPlace, Bool.and_eq_true, hMine.sole, decide_eq_true_eq]
      constructor
      · rintro ⟨hSame, hOther⟩
        exact absurd (Option.some.inj hSame).symm hOther
      · simp
    | false =>
      have hOther : owner ≠ some (.call id) := by
        intro hSame
        have hHas := (hOwned.sole _).mpr hSame
        rw [hasDirLock_call hCall, hLock] at hHas
        cases hHas
      refine ⟨owner, fun place => ?_, ?_⟩
      · rw [hPlace, Bool.and_eq_true, hOwned.sole, decide_eq_true_eq, and_iff_left_iff_imp]
        rintro rfl rfl
        exact hOther rfl
      · rw [World.endCall, hLock]
        refine hOwned.lock.trans ?_
        rcases owner with _ | handle | other
        · rfl
        · rfl
        · have hId : other ≠ id := by
            rintro rfl
            exact hOther rfl
          simp [processOf, hId]
  · exact forall_update (by simp) fun other found _ => h.calls other found

theorem Safe.acquire (h : w.Safe fs wallets) (hCall : w.calls id = some call)
    (hPhase : phase.hasDirLock = true) (hSees : phase.Sees fs wallets w.device) (opens : Bool) :
    (w.acquire id call opens phase).Safe fs wallets := by
  obtain ⟨owner, hOwned⟩ := h.owned
  rw [World.acquire]
  split
  · next hFree =>
    rw [Bool.and_eq_true, Option.isNone_iff_eq_none] at hFree
    -- Nobody has the lock, so nobody is its owner.
    have hNone : ∀ place, w.hasDirLock place = false := by
      intro place
      rw [Bool.eq_false_iff]
      intro hHas
      obtain ⟨process, hProcess⟩ := processOf_owner hHas
      have hLock := hOwned.lock
      rw [hFree.2, (hOwned.sole place).mp hHas, Option.bind_some, hProcess] at hLock
      cases hLock
    refine ⟨⟨some (.call id), ?_, by simp [processOf, setPhase]⟩, ?_, h.states⟩
    · rintro (handle | other)
      · have hHandle := hNone (.handle handle)
        simpa [hasDirLock, setPhase] using hHandle
      · by_cases hId : other = id
        · simp [hasDirLock, setPhase, hId, hPhase]
        · have hOther := hNone (.call other)
          simp only [hasDirLock] at hOther
          simp [hasDirLock, setPhase, hId, hOther, Ne.symm hId]
    · exact forall_update (by rintro _ ⟨⟩; exact hSees) fun other found _ => h.calls other found
  · exact h.endCall hCall

theorem Safe.enter {handle : Handle} {next : World} (h : w.Safe fs wallets) (hPhase : phase.hasDirLock = false)
    (hSees : phase.Sees fs wallets w.device) (hNext : w.enter id handle phase = some next) : next.Safe fs wallets := by
  rw [World.enter] at hNext
  split at hNext
  · next hFree =>
    rw [Bool.and_eq_true, Option.isNone_iff_eq_none] at hFree
    split at hNext
    · cases hNext
      exact h
    · cases hNext
      obtain ⟨owner, hOwned⟩ := h.owned
      refine ⟨⟨owner, ?_, ?_⟩, ?_, h.states⟩
      · rintro (other | other)
        · exact hOwned.sole (.handle other)
        · rw [← hOwned.sole]
          by_cases hId : other = id
          · simp [hasDirLock, hId, hPhase, hFree.1]
          · simp [hasDirLock, hId]
      · refine hOwned.lock.trans ?_
        rcases owner with _ | other | other
        · rfl
        · rfl
        · have hId : other ≠ id := by
            rintro rfl
            have hHas := (hOwned.sole _).mpr rfl
            rw [hasDirLock, hFree.1] at hHas
            cases hHas
          simp [processOf, hId]
      · exact forall_update (by rintro _ ⟨⟩; exact hSees) fun other found _ => h.calls other found
  · cases hNext

/-- The running state goes from the call to the handle. -/
theorem Safe.install {words : String} (h : w.Safe fs wallets) (hCall : w.calls id = some call)
    (hOwner : call.phase.hasDirLock = true) (hWords : HasWords wallets words w.device) :
    ({ w with
      states := Function.update w.states call.handle (some words)
      stateLock := Function.update w.stateLock call.handle none
      calls := Function.update w.calls id none } : World).Safe fs wallets := by
  obtain ⟨owner, hOwned⟩ := h.owned
  have hMine := hOwned.is ((hasDirLock_call hCall).trans hOwner)
  refine ⟨⟨some (.handle call.handle), ?_, ?_⟩, ?_, ?_⟩
  · rintro (handle | other)
    · by_cases hHandle : handle = call.handle
      · simp [hasDirLock, hHandle]
      · have hState : w.states handle = none := hMine.other_state (by simp)
        simp [hasDirLock, hHandle, hState, Ne.symm hHandle]
    · by_cases hId : other = id
      · simp [hasDirLock, hId]
      · have hOther := hMine.sole (.call other)
        simp only [hasDirLock, Option.some.injEq, Place.call.injEq, Ne.symm hId, iff_false] at hOther
        simp [hasDirLock, hId, hOther]
  · refine hMine.lock.trans ?_
    rw [Option.bind_some, Option.bind_some]
    simp [processOf, hCall]
  · exact forall_update (by simp) fun other found _ => h.calls other found
  · intro handle found hFound
    by_cases hHandle : handle = call.handle
    · subst hHandle
      cases (Function.update_self ..).symm.trans hFound
      exact hWords
    · exact h.states handle found ((Function.update_of_ne hHandle ..).symm.trans hFound)

/-- The running state goes from the handle to the call that stops it. -/
theorem Safe.stop {handle : Handle} {next : World} (h : w.Safe fs wallets)
    (hNext : w.take id handle .stopping = some next) : next.Safe fs wallets := by
  rw [World.take] at hNext
  split at hNext
  · next hFree =>
    rw [Bool.and_eq_true, Option.isNone_iff_eq_none] at hFree
    cases hState : w.states handle with
    | none =>
      rw [hState] at hNext
      cases hNext
      exact h
    | some words =>
      rw [hState] at hNext
      cases hNext
      obtain ⟨owner, hOwned⟩ := h.owned
      have hMine : w.Owned (some (.handle handle)) := hOwned.is (by rw [hasDirLock, hState]; rfl)
      refine ⟨⟨some (.call id), ?_, ?_⟩, ?_, ?_⟩
      · rintro (other | other)
        · by_cases hHandle : other = handle
          · simp [hasDirLock, hHandle]
          · have hOther : w.states other = none := hMine.other_state (by simp [Ne.symm hHandle])
            simp [hasDirLock, hHandle, hOther]
        · by_cases hId : other = id
          · simp [hasDirLock, hId, Phase.hasDirLock]
          · have hOther := hMine.sole (.call other)
            simp only [hasDirLock, Option.some.injEq, reduceCtorEq, iff_false] at hOther
            simp [hasDirLock, hId, hOther, Ne.symm hId]
      · refine hMine.lock.trans ?_
        rw [Option.bind_some, Option.bind_some]
        simp [processOf]
      · refine forall_update ?_ fun other found _ => h.calls other found
        rintro _ ⟨⟩
        exact h.states handle words hState
      · intro other found hFound
        by_cases hHandle : other = handle
        · subst hHandle
          cases (Function.update_self ..).symm.trans hFound
        · exact h.states other found ((Function.update_of_ne hHandle ..).symm.trans hFound)
  · cases hNext

theorem Safe.handleWrites {handle : Handle} {words : String} (h : w.Safe fs wallets)
    (hState : w.states handle = some words) (write : NodeWrite) :
    ({ w with device := write.apply w.device } : World).Safe fs wallets := by
  obtain ⟨owner, hOwned⟩ := h.owned
  have hMine : w.Owned (some (.handle handle)) := hOwned.is (by rw [hasDirLock, hState]; rfl)
  refine ⟨⟨_, hMine.sole, hMine.lock⟩, ?_, ?_⟩
  · intro other found hFound
    exact (h.calls other found hFound).elsewhere (hMine.other_call (by simp) hFound) _
  · exact fun other found hFound => (hasWords_apply write).mpr (h.states other found hFound)

/-- A node that is alive writes through the call that assembles or stops it. -/
theorem Safe.callWrites {words : String} (h : w.Safe fs wallets) (hCall : w.calls id = some call)
    (hNode : call.phase.node = some words) (write : NodeWrite) :
    ({ w with device := write.apply w.device } : World).Safe fs wallets := by
  have hSees := h.calls id call hCall
  have hAgain : call.phase.hasDirLock = true ∧ call.phase.Sees fs wallets (write.apply w.device) := by
    obtain ⟨handle, phase⟩ := call
    cases phase with
    | assembled found | stopping found => exact ⟨rfl, (hasWords_apply write).mpr hSees⟩
    | dropping => exact hSees.elim
    | starting | unfenced | building | restoring | writing => cases hNode
  have hNext := h.advance hCall hAgain.1 hAgain.1 hAgain.2
  rw [setPhase, Function.update_eq_self_iff.mpr hCall.symm] at hNext
  exact hNext

/-- The kernel releases what the process had. -/
theorem Safe.crash (h : w.Safe fs wallets) (process : Nat) : (w.crash process).Safe fs wallets := by
  obtain ⟨owner, hOwned⟩ := h.owned
  have hPlace : ∀ place, (w.crash process).hasDirLock place =
      (w.hasDirLock place && decide (w.processOf place ≠ some process)) := by
    rintro (handle | other)
    · by_cases hProcess : handle.process = process
      · simp [hasDirLock, World.crash, processOf, hProcess]
      · simp [hasDirLock, World.crash, processOf, hProcess]
    · cases hCall : w.calls other with
      | none => simp [hasDirLock, World.crash, hCall]
      | some call =>
        by_cases hProcess : call.handle.process = process
        · simp [hasDirLock, World.crash, processOf, hCall, hProcess]
        · simp [hasDirLock, World.crash, processOf, hCall, hProcess, Option.filter]
  refine ⟨?_, ?_, ?_⟩
  · by_cases hOwner : owner.bind w.processOf = some process
    · refine ⟨none, fun place => ?_, ?_⟩
      · rw [hPlace, Bool.and_eq_true, hOwned.sole, decide_eq_true_eq]
        constructor
        · rintro ⟨rfl, hOther⟩
          exact absurd hOwner hOther
        · simp
      · rw [Option.bind_none, World.crash]
        exact if_pos (hOwned.lock.trans hOwner)
    · refine ⟨owner, fun place => ?_, ?_⟩
      · rw [hPlace, Bool.and_eq_true, hOwned.sole, decide_eq_true_eq, and_iff_left_iff_imp]
        rintro rfl
        exact hOwner
      · rw [World.crash]
        refine (if_neg (hOwned.lock ▸ hOwner)).trans (hOwned.lock.trans ?_)
        rcases owner with _ | handle | other
        · rfl
        · rfl
        · cases hCall : w.calls other with
          | none => simp [processOf, hCall]
          | some call =>
            have hProcess : call.handle.process ≠ process := by
              intro hSame
              exact hOwner (by rw [Option.bind_some, processOf, hCall, Option.map_some, hSame])
            simp [processOf, hCall, hProcess, Option.filter]
  · intro other found hFound
    obtain ⟨hCall, -⟩ := Option.filter_eq_some_iff.mp hFound
    exact h.calls other found hCall
  · intro handle words hState
    rw [World.crash] at hState
    dsimp only at hState
    split at hState
    · cases hState
    · exact h.states handle words hState

/-! ## Runs -/

/-- No handle ends while its node runs. -/
def keepsRunning (w : World) : Action → Bool
  | .drop _ handle => (w.states handle).isNone
  | _ => true

theorem Safe.step_safe {next : World} {action : Action} (h : w.Safe fs wallets) (hKept : w.keepsRunning action = true)
    (hStep : w.step fs wallets action = some next) : next.Safe fs wallets := by
  cases action with
  | start id handle =>
    refine h.enter ?_ ?_ hStep
    · rfl
    · trivial
  | restore id handle =>
    refine h.enter ?_ ?_ hStep
    · rfl
    · trivial
  | stop id handle => exact h.stop hStep
  | crash process =>
    cases hStep
    exact h.crash process
  | checkFence id =>
    rw [step] at hStep
    split at hStep
    · next handle hCall =>
      cases hStep
      split
      · exact h.endCall hCall
      · exact h.unlocked hCall rfl rfl trivial
    · cases hStep
  | acquireStart id opens input =>
    rw [step] at hStep
    split at hStep
    · next handle hCall =>
      split at hStep
      · next hGenerated =>
        cases hStep
        refine h.acquire hCall ?_ ?_ opens
        · rfl
        · exact ⟨Session.begin_left (build_still _ _) _, input, hGenerated, rfl⟩
      · cases hStep
    · cases hStep
  | acquireRestore id opens input =>
    rw [step] at hStep
    split at hStep
    · next handle hCall =>
      cases hStep
      refine h.acquire hCall ?_ ?_ opens
      · rfl
      · exact Session.begin_left (runRestore_still _ _ _) _
    · cases hStep
  | startWrites id fate elsewhere =>
    rw [step] at hStep
    split at hStep
    · next handle session hCall =>
      split at hStep
      · cases hStep
        obtain ⟨hLeft, hProgram⟩ := h.calls id _ hCall
        exact h.advance hCall rfl rfl ⟨(Session.move_undisturbed hLeft.symm fate elsewhere).symm, hProgram⟩
      · cases hStep
    · cases hStep
  | restoreWrites id fate elsewhere =>
    rw [step] at hStep
    split at hStep
    · next handle session hCall =>
      split at hStep
      · cases hStep
        have hLeft : session.left = w.device := h.calls id _ hCall
        exact h.advance hCall rfl rfl (Session.move_undisturbed hLeft.symm fate elsewhere).symm
      · cases hStep
    · cases hStep
  | assemble id =>
    rw [step] at hStep
    split at hStep
    · next handle session hCall =>
      dsimp only at hStep
      split at hStep
      · next words booted disk rest hEnd =>
        cases hStep
        obtain ⟨hLeft, input, hGenerated, hProgram⟩ := h.calls id _ hCall
        refine h.advance hCall rfl rfl ?_
        rw [Session.outcome, hProgram] at hEnd
        have hWords := Prog.wp_ok (build_words hGenerated session.began) hEnd
        rw [Session.left, Session.outcome, hProgram, hEnd] at hLeft
        exact hLeft ▸ hWords
      · cases hStep
        exact h.endCall hCall
      · cases hStep
    · cases hStep
  | startFails id =>
    rw [step] at hStep
    split at hStep
    · next handle session hCall =>
      cases hStep
      exact h.endCall hCall
    · next handle words hCall =>
      cases hStep
      exact h.endCall hCall
    · cases hStep
  | install id =>
    rw [step] at hStep
    split at hStep
    · next handle words hCall =>
      cases hStep
      exact h.install hCall rfl (h.calls id _ hCall)
    · cases hStep
  | stopped id =>
    rw [step] at hStep
    split at hStep
    · next handle words hCall =>
      cases hStep
      exact h.endCall hCall
    · cases hStep
  | restored id =>
    rw [step] at hStep
    split at hStep
    · next handle session hCall =>
      split at hStep
      · cases hStep
      · cases hStep
        exact h.endCall hCall
    · cases hStep
  | restoreFails id =>
    rw [step] at hStep
    split at hStep
    · next handle session hCall =>
      split at hStep
      · cases hStep
        exact h.endCall hCall
      · cases hStep
    · cases hStep
  | handleWrites handle write =>
    obtain ⟨words, hState, rfl⟩ := Option.map_eq_some_iff.mp hStep
    exact h.handleWrites hState write
  | callWrites id write =>
    obtain ⟨call, hCall, hStep⟩ := Option.bind_eq_some_iff.mp hStep
    obtain ⟨words, hNode, rfl⟩ := Option.map_eq_some_iff.mp hStep
    exact h.callWrites hCall hNode write
  | drop id handle =>
    have hState : w.states handle = none := Option.isNone_iff_eq_none.mp hKept
    obtain ⟨taken, hTake, rfl⟩ := Option.map_eq_some_iff.mp hStep
    rw [take, hState] at hTake
    rw [hState]
    split at hTake
    · cases hTake
      exact h
    · cases hTake
  | dropped id =>
    rw [step] at hStep
    split at hStep
    · next handle words hCall => exact (h.calls id _ hCall).elim
    · cases hStep

end World

/-! ## The instance -/

/-- The phases in which the call, or a task of its node, may write the directory. -/
def Phase.writes : Phase → Bool
  | .building _ | .assembled _ | .writing _ | .stopping _ | .dropping _ => true
  | .starting | .unfenced | .restoring => false

def World.writes (w : World) : Place → Bool
  | .handle handle => (w.states handle).isSome
  | .call id => (w.calls id).any (·.phase.writes)

/-- One writer at a time, for whom the lock is taken; a build or a restore is where it would be alone; the words
on disk are those of the node that is alive. -/
structure World.OneInstance (fs : FileSystem) (wallets : Wallets) (w : World) : Prop where
  alone : ∀ place other, w.writes place = true → w.writes other = true → place = other
  locked : (∃ place, w.writes place = true) ↔ w.lock.isSome = true
  builds : ∀ id handle session, w.calls id = some ⟨handle, .building session⟩ → session.left = w.device ∧
    ∃ input : StartInput, session.program = build fs wallets input.transport input.generated
  restores : ∀ id handle session, w.calls id = some ⟨handle, .writing session⟩ → session.left = w.device
  running : ∀ handle words, w.states handle = some words → HasWords wallets words w.device
  ending : ∀ id call words, w.calls id = some call → call.phase.node = some words → HasWords wallets words w.device

theorem World.idle_safe (device : Device) : (World.idle device).Safe fs wallets := by
  refine ⟨⟨none, ?_, rfl⟩, by simp [idle], by simp [idle]⟩
  rintro (handle | id)
  · simp [hasDirLock, idle]
  · simp [hasDirLock, idle]

theorem World.Safe.writes_iff (h : w.Safe fs wallets) (place : Place) : w.writes place = w.hasDirLock place := by
  cases place with
  | handle handle => rfl
  | call id =>
    rw [writes, hasDirLock]
    cases hCall : w.calls id with
    | none => rfl
    | some call =>
      obtain ⟨handle, phase⟩ := call
      cases phase with
      | dropping words => exact (h.calls id _ hCall).elim
      | starting | unfenced | building | assembled | restoring | writing | stopping => rfl

theorem World.Safe.oneInstance (h : w.Safe fs wallets) : w.OneInstance fs wallets := by
  obtain ⟨owner, hOwned⟩ := h.owned
  refine ⟨?_, ?_, ?_, fun id handle session hCall => h.calls id _ hCall, h.states, ?_⟩
  · intro place other hPlace hOther
    rw [h.writes_iff, hOwned.sole] at hPlace hOther
    exact Option.some.inj (hPlace.symm.trans hOther)
  · rw [hOwned.lock]
    constructor
    · rintro ⟨place, hPlace⟩
      rw [h.writes_iff] at hPlace
      obtain ⟨process, hProcess⟩ := processOf_owner hPlace
      rw [(hOwned.sole place).mp hPlace, Option.bind_some, hProcess]
      rfl
    · intro hLock
      cases owner with
      | none => cases hLock
      | some place => exact ⟨place, (h.writes_iff place).trans ((hOwned.sole place).mpr rfl)⟩
  · intro id handle session hCall
    obtain ⟨hLeft, input, -, hProgram⟩ := h.calls id _ hCall
    exact ⟨hLeft, input, hProgram⟩
  · intro id call words hCall hNode
    have hSees := h.calls id call hCall
    obtain ⟨handle, phase⟩ := call
    cases phase with
    | assembled found | stopping found =>
      cases hNode
      exact hSees
    | dropping => exact hSees.elim
    | starting | unfenced | building | restoring | writing => cases hNode

theorem one_instance (fs : FileSystem) (wallets : Wallets) (device : Device) {acts : List Action} {w : World}
    (hKept : Along (World.step fs wallets) (·.keepsRunning · = true) (.idle device) acts)
    (hRun : exec (World.step fs wallets) (.idle device) acts = some w) : w.OneInstance fs wallets :=
  (exec_inv (P := World.Safe fs wallets) (fun _ _ _ h hKept hStep => h.step_safe hKept hStep) (World.idle_safe device)
    hKept hRun).oneInstance

/-! ## Two processes -/

def firstHandle : Handle := ⟨0, 0⟩

def secondHandle : Handle := ⟨1, 0⟩

/-- The first handle starts a new wallet. -/
def firstStart : List Action :=
  [.start 0 firstHandle, .checkFence 0, .acquireStart 0 true ⟨fun _ => none, "new"⟩, .startWrites 0 .made newWallet,
    .startWrites 0 .made newWallet, .startWrites 0 .made newWallet, .assemble 0, .install 0]

/-- The second handle is turned away twice; when the first process has died, a restore gets in. -/
def turnsTaken : List Action :=
  .start 1 secondHandle :: .checkFence 1 :: firstStart ++
    [.acquireStart 1 true ⟨fun _ => none, "other"⟩, .handleWrites firstHandle .fence, .restore 2 secondHandle,
      .acquireRestore 2 true ⟨none, "other", 0⟩, .crash 0, .restore 3 secondHandle,
      .acquireRestore 3 true ⟨none, "other", 0⟩]

theorem one_instance_turnsTaken :
    ∃ w, exec (World.step sortedFiles anyWords) (.idle newWallet) turnsTaken = some w ∧ w.lock = some 1 ∧
      w.OneInstance sortedFiles anyWords := by
  have hEnd : (exec (World.step sortedFiles anyWords) (.idle newWallet) turnsTaken).map World.lock = some (some 1) := by
    decide +kernel
  obtain ⟨w, hRun, hLock⟩ := Option.map_eq_some_iff.mp hEnd
  exact ⟨w, hRun, hLock, one_instance sortedFiles anyWords newWallet (by decide +kernel) hRun⟩

/-- A handle that ends while its node runs gives the lock away before its tasks are gone. -/
theorem dropped_in_haste :
    ∃ w, exec (World.step sortedFiles anyWords) (.idle newWallet) (firstStart ++
        [.drop 1 firstHandle, .start 2 secondHandle, .checkFence 2, .acquireStart 2 true ⟨fun _ => none, "other"⟩]) =
          some w ∧ w.writes (.call 1) = true ∧ w.writes (.call 2) = true := by
  have hEnd : (exec (World.step sortedFiles anyWords) (.idle newWallet) (firstStart ++
      [.drop 1 firstHandle, .start 2 secondHandle, .checkFence 2, .acquireStart 2 true ⟨fun _ => none, "other"⟩])).map
        (fun w => (w.writes (.call 1), w.writes (.call 2))) = some (true, true) := by decide +kernel
  obtain ⟨w, hRun, hWrites⟩ := Option.map_eq_some_iff.mp hEnd
  exact ⟨w, hRun, congrArg Prod.fst hWrites, congrArg Prod.snd hWrites⟩

end WalletCore.Instance
