import WalletCore.Lib.Chain
import WalletCore.Lib.Serial
import WalletCore.Vss.Durability

/-! # The order of one monitor key's writes

The writes queued for one key wait in a chain, each for the one before it. Seen from that key the
store is a line of numbered jobs that write one value in turn: whatever becomes of their requests
and whatever else the store is doing, the server holds their bytes, and their completions are
signalled, in the order in which they were queued.
-/

namespace WalletCore.Vss

open Lib

/-! ## What is queued, held and signalled under a key -/

/-- The monitor write that a step submits for the key, with the number its call takes. -/
def Act.submission (key : String) (id : Nat) : Act → List (Nat × MonitorWrite × Bool)
  | .call (.queueMonitorWrite write isNew) => if write.vssKey = key then [(id, write, isNew)] else []
  | _ => []

def Act.nextId (id : Nat) : Act → Nat
  | .call _ => id + 1
  | _ => id

/-- The monitor writes that a run submits for the key, in order. -/
def submissions (key : String) : Nat → List Act → List (Nat × MonitorWrite × Bool)
  | _, [] => []
  | id, act :: rest => act.submission key id ++ submissions key (act.nextId id) rest

def World.held (w : World) (key : String) : Option Bytes := (w.server key).map Prod.fst

/-- The bytes that the server holds under the key in every state of a run. -/
def heldAlong (key : String) : World → List Act → List Bytes
  | w, [] => (w.held key).toList
  | w, act :: rest =>
    (w.held key).toList ++
      match w.step act with
      | some next => heldAlong key next rest
      | none => []

def Event.signal (key : String) : Event → Option (Nat × MonitorWrite × Bool)
  | .monitorUpdated id write isNew => if write.vssKey = key then some (id, write, isNew) else none
  | _ => none

/-- The completion signals for the key, oldest first. -/
def signals (key : String) (trace : List Event) : List (Nat × MonitorWrite × Bool) :=
  trace.reverse.filterMap (Event.signal key)

def jobBytes (job : MonitorWrite × Bool) : Bytes := job.1.bytes

/-! ## Runs that leave the key to its chain -/

def Event.queues (key : String) : Event → Bool
  | .queued _ write _ => write.vssKey == key
  | _ => false

/-- The key was archived after a write had been queued for it. -/
def archivedSinceQueued (key : String) : List Event → Bool
  | [] => false
  | .archived archived :: earlier =>
    (archived == key && earlier.any (Event.queues key)) || archivedSinceQueued key earlier
  | _ :: earlier => archivedSinceQueued key earlier

/-- One session of one client, in which the key is written by monitor jobs only and is not archived
between two of them. -/
def monitorKeyOnly (key : String) (w : World) : Act → Bool
  | .call (.queueMonitorWrite write _) => write.vssKey != key || !archivedSinceQueued key w.trace
  | .call (.putLww other _) | .call (.putWithMerge other _) | .call (.deleteBestEffort other) => other != key
  | .foreign other _ => other != key
  | .restart _ => false
  | _ => true

/-! ## The jobs of the key -/

def Task.job (key : String) : Task → Option (MonitorWrite × Bool)
  | .monitor queued isNew _ => if queued.vssKey = key then some (queued, isNew) else none
  | _ => none

def Task.isQueued : Task → Bool
  | .monitor _ _ .queued => true
  | _ => false

/-- A best-effort write or delete of the key. -/
def Task.overwrites (key : String) : Task → Bool
  | .write other _ _ _ | .delete other _ => other == key
  | _ => false

def World.jobs (w : World) (key : String) (id : Nat) : Option (MonitorWrite × Bool) :=
  (w.slots id).bind fun slot => slot.task.job key

def World.chainOf (w : World) (key : String) (last : Option Nat) : Chains Unit where
  live := fun id => (w.slots id).bind fun slot => (slot.task.job key).map fun _ => ⟨(), slot.prev⟩
  last := fun _ => last
  next := w.nextId

/-- The store and the server as the key sees them. -/
def World.serial (w : World) (key : String) : Serial (MonitorWrite × Bool) Bytes where
  jobs := w.jobs key
  next := w.nextId
  value := w.held key
  signals := signals key w.trace

structure KeyInv (key : String) (w : World) : Prop where
  durable : DurabilityInv w
  chained : ∃ last, (w.chainOf key last).WellFormed ∧
    (archivedSinceQueued key w.trace = false → w.store.chains key = last)
  working : ∀ id slot, w.slots id = some slot → (slot.task.job key).isSome = true → slot.task.isQueued = false →
    (w.chainOf key none).Ready ⟨(), slot.prev⟩
  alone : ∀ id slot, w.slots id = some slot → slot.task.overwrites key = false
  begun : ∀ id job, w.jobs key id = some job → w.trace.any (Event.queues key) = true

/-! ## What a task's run leaves -/

theorem Task.GoesOn.job {task next : Task} (h : task.GoesOn next) (key : String) :
    next.job key = task.job key ∧ next.overwrites key = task.overwrites key := by
  cases h <;> exact ⟨rfl, rfl⟩

theorem Store.RunFrame.not_archived {s : Store} {id : Nat} {task : Task} {block : Block}
    (h : Store.RunFrame s id task block) (key : String) : .archived key ∉ block.events := by
  intro hMem
  rcases h.events _ hMem with hFenced | ⟨_, _, _, -, hLocal | hSignal⟩
  · cases hFenced
  · cases hLocal
  · cases hSignal

namespace Store

/-! ## What a call leaves -/

/-- A call queues a job for the key, archives the key, or leaves both its chain and its archiving alone. -/
inductive CallFor (key : String) (s : Store) (id : Nat) (called : Called) : Call → Prop
  | queued (write : MonitorWrite) (isNew : Bool) (hKey : write.vssKey = key)
    (hNext : called.next = some (.monitor write isNew .queued)) (hPrev : called.prev = s.chains key)
    (hChains : called.store.chains key = some id) (hEvents : called.events = [.queued id write isNew]) :
    CallFor key s id called (.queueMonitorWrite write isNew)
  | other (call : Call) (hNext : ∀ task, called.next = some task → task.job key = none ∧ task.overwrites key = false)
    (hChains : called.store.chains key = s.chains key)
    (hEvents : ∀ event ∈ called.events, event.queues key = false ∧ event.signal key = none ∧ event ≠ .archived key) :
    CallFor key s id called call
  | archived (name : String) (localOk : Bool)
    (hNext : ∀ task, called.next = some task → task.job key = none ∧ task.overwrites key = false)
    (hChains : called.store.chains key = none) (hEvents : called.events = [.archived key]) :
    CallFor key s id called (.archiveMonitor name localOk)

theorem startCmAttempt_callFor (key : String) (s : Store) (id : Nat) (bytes : Bytes) (byTick : Bool) (call : Call) :
    CallFor key s id (s.startCmAttempt bytes byTick) call := by
  rw [startCmAttempt]
  split
  · exact .other _ (by simp [returned]) rfl (by simp [returned])
  · exact .other _ (by simp [spawn, Task.job, Task.overwrites]) rfl (by simp [spawn])

theorem call_callFor {key : String} {w : World} {call : Call} (hOnly : monitorKeyOnly key w (.call call) = true)
    (s : Store) (id : Nat) : CallFor key s id (s.call id call) call := by
  have hReturned : ∀ (s' : Store), s'.chains key = s.chains key → CallFor key s id (s'.returned []) call :=
    fun s' hChains => .other _ (by simp [returned]) hChains (by simp [returned])
  cases call with
  | queueMonitorWrite write isNew =>
    rw [Store.call, queueMonitorWrite]
    split
    · exact hReturned _ rfl
    · by_cases hKey : write.vssKey = key
      · subst hKey
        exact .queued write isNew rfl rfl rfl (Function.update_self ..) rfl
      · refine .other _ ?_ (Function.update_of_ne (Ne.symm hKey) ..) ?_
        · simp [enqueue, Task.job, Task.overwrites, hKey]
        · simp [enqueue, Event.queues, Event.signal, hKey]
  | cmRemoteWriteBounded bytes =>
    rw [Store.call, cmRemoteWriteBounded]
    split
    · exact hReturned _ rfl
    · exact startCmAttempt_callFor ..
  | cmRetryPending =>
    rw [Store.call, cmRetryPending]
    split
    · exact hReturned _ rfl
    · exact startCmAttempt_callFor ..
  | putLww other bytes =>
    have hOther : key ≠ other := Ne.symm (by simpa [monitorKeyOnly] using hOnly)
    exact .other _ (by simp [Store.call, enqueue, Task.job, Task.overwrites, hOther.symm])
      (Function.update_of_ne hOther ..) (by simp [Store.call, enqueue])
  | putWithMerge other bytes =>
    have hOther : key ≠ other := Ne.symm (by simpa [monitorKeyOnly] using hOnly)
    exact .other _ (by simp [Store.call, enqueue, Task.job, Task.overwrites, hOther.symm])
      (Function.update_of_ne hOther ..) (by simp [Store.call, enqueue])
  | deleteBestEffort other =>
    have hOther : key ≠ other := Ne.symm (by simpa [monitorKeyOnly] using hOnly)
    exact .other _ (by simp [Store.call, enqueue, Task.job, Task.overwrites, hOther.symm])
      (Function.update_of_ne hOther ..) (by simp [Store.call, enqueue])
  | archiveMonitor name localOk =>
    have hLocal := s.archiveLocal_chains name localOk
    simp only [Store.call, archiveMonitor]
    split
    · exact hReturned _ (congrFun hLocal key)
    · rename_i archived hName
      by_cases hKey : key = archived
      · subst hKey
        split
        · exact .archived name localOk (by simp [returned]) (Function.update_self ..) rfl
        · exact .archived name localOk (by simp [spawn, Task.job, Task.overwrites]) (Function.update_self ..) rfl
      · have hChains : Function.update (s.archiveLocal name localOk).chains archived none key = s.chains key := by
          rw [Function.update_of_ne hKey, hLocal]
        split
        · refine .other _ (by simp [returned]) hChains ?_
          simp [returned, Event.queues, Event.signal, Ne.symm hKey]
        · refine .other _ (by simp [spawn, Task.job, Task.overwrites]) hChains ?_
          simp [spawn, Event.queues, Event.signal, Ne.symm hKey]
  | backfillManifestIfNeeded =>
    rw [Store.call, backfillManifestIfNeeded]
    split
    · exact .other _ (by simp [spawn, Task.job, Task.overwrites]) rfl (by simp [spawn])
    · exact hReturned _ rfl
  | fetchVersioned other =>
    exact .other _ (by simp [Store.call, spawn, Task.job, Task.overwrites]) rfl (by simp [Store.call, spawn])

end Store

/-! ## The trace -/

theorem archivedSinceQueued_append {key : String} {events : List Event} (hEvents : .archived key ∉ events)
    (earlier : List Event) : archivedSinceQueued key (events ++ earlier) = archivedSinceQueued key earlier := by
  induction events with
  | nil => rfl
  | cons event rest ih =>
    rw [List.mem_cons, not_or] at hEvents
    rw [List.cons_append, ← ih hEvents.2]
    cases event with
    | archived other =>
      have hOther : other ≠ key := fun hSame => hEvents.1 (congrArg _ hSame.symm)
      simp [archivedSinceQueued, hOther]
    | session | queued | started | stored | fetched | wroteLocal | monitorUpdated | fenced => rfl

theorem signals_append (key : String) (events earlier : List Event) :
    signals key (events.reverse ++ earlier) = signals key earlier ++ events.filterMap (Event.signal key) := by
  simp [signals]

/-! ## The chain after a step -/

section Frames

variable {key : String} {w : World} {id : Nat} {slot : Slot}

theorem jobs_of_slot (hSlot : w.slots id = some slot) : w.jobs key id = slot.task.job key := by
  rw [World.jobs, hSlot, Option.bind_some]

theorem chainOf_live (w : World) (key : String) (last : Option Nat) (id : Nat) :
    (w.chainOf key last).live id =
      (w.slots id).bind fun slot => (slot.task.job key).map fun _ => ⟨(), slot.prev⟩ := rfl

theorem chainOf_of_slot {job : MonitorWrite × Bool} (last : Option Nat) (hSlot : w.slots id = some slot)
    (hJob : slot.task.job key = some job) : (w.chainOf key last).live id = some ⟨(), slot.prev⟩ := by
  rw [chainOf_live, hSlot, Option.bind_some, hJob, Option.map_some]

theorem chainOf_of_jobs {job : MonitorWrite × Bool} (last : Option Nat) (hJob : w.jobs key id = some job) :
    ∃ link, (w.chainOf key last).live id = some link := by
  obtain ⟨slot, hSlot, hTask⟩ := Option.bind_eq_some_iff.mp hJob
  exact ⟨_, chainOf_of_slot last hSlot hTask⟩

theorem land_jobs (w : World) (id nextId : Nat) (block : Block) (prev : Option Nat) (key : String) :
    World.jobs { w.land id block prev with nextId := nextId } key =
      Function.update (w.jobs key) id (block.next.bind (Task.job key)) := by
  funext other
  rw [World.jobs, World.land_slots, Function.update_apply]
  split
  · cases block.next <;> rfl
  · rfl

theorem land_chainOf (w : World) (id nextId : Nat) (block : Block) (prev last : Option Nat) (key : String) :
    World.chainOf { w.land id block prev with nextId := nextId } key last =
      ⟨Function.update (w.chainOf key last).live id
        ((block.next.bind (Task.job key)).map fun _ => ⟨(), prev⟩), fun _ => last, nextId⟩ := by
  rw [World.chainOf]
  congr 1
  funext other
  rw [World.land_slots, Function.update_apply]
  split
  · cases block.next <;> rfl
  · rfl

theorem ready_chainOf (hReady : w.ready slot = true) : (w.chainOf key none).Ready ⟨(), slot.prev⟩ := by
  intro before hPrev
  rw [World.ready, show slot.prev = some before from hPrev] at hReady
  rw [chainOf_live, Option.isNone_iff_eq_none.mp hReady]
  rfl

theorem KeyInv.oldest (hInv : KeyInv key w) {job : MonitorWrite × Bool} (hSlot : w.slots id = some slot)
    (hJob : slot.task.job key = some job) (hReady : (w.chainOf key none).Ready ⟨(), slot.prev⟩) :
    (w.serial key).Oldest id job := by
  constructor
  · exact (jobs_of_slot hSlot).trans hJob
  · intro other job' hOther
    obtain ⟨last, hChain, -⟩ := hInv.chained
    obtain ⟨link, hLive⟩ := chainOf_of_jobs last hOther
    exact hChain.oldest hLive (chainOf_of_slot last hSlot hJob) rfl hReady

theorem KeyInv.unused (hInv : KeyInv key w) : w.slots w.nextId = none := by
  cases hSlot : w.slots w.nextId with
  | none => rfl
  | some slot => exact absurd (hInv.durable.fresh _ slot hSlot) (lt_irrefl _)

end Frames

/-! ## Runs of tasks -/

section Resume

variable {key : String} {w : World} {id : Nat} {slot : Slot} {env : Env} {block : Block}

/-- A job that is reported has ended, and is the one that the task carries. -/
theorem KeyInv.resume_signals (hInv : KeyInv key w) (hSlot : w.slots id = some slot)
    (hBlock : w.store.resume env id slot.task slot.answer = some block) :
    block.events.filterMap (Event.signal key) = [] ∨
      ∃ job, slot.task.job key = some job ∧ block.next = none ∧
        block.events.filterMap (Event.signal key) = [(id, job)] := by
  by_cases hSignal : ∃ id' write isNew, .monitorUpdated id' write isNew ∈ block.events
  · obtain ⟨id', write', isNew', hMem⟩ := hSignal
    by_cases hMonitor : ∃ write isNew phase, slot.task = .monitor write isNew phase
    · obtain ⟨write, isNew, phase, hTask⟩ := hMonitor
      obtain ⟨since, before, -, hPhase⟩ := hInv.durable.slots id slot hSlot write isNew phase hTask
      rw [hTask] at hBlock ⊢
      obtain ⟨hEvents, hNext, -, -⟩ := (Store.runMonitorJob_ok hPhase hBlock).signal id' write' isNew' hMem
      by_cases hKey : write.vssKey = key
      · refine .inr ⟨(write, isNew), by simp [Task.job, hKey], hNext, ?_⟩
        simp [hEvents, List.filterMap_cons, Event.signal, hKey]
      · left
        simp [hEvents, List.filterMap_cons, Event.signal, hKey]
    · simp only [not_exists] at hMonitor
      exact absurd hMem ((Store.resume_other hMonitor hBlock).2 id' write' isNew')
  · left
    rw [List.filterMap_eq_nil_iff]
    intro event hEvent
    cases event with
    | monitorUpdated id' write isNew => exact absurd ⟨id', write, isNew, hEvent⟩ hSignal
    | session | queued | archived | started | stored | fetched | wroteLocal | fenced => rfl

theorem land_resumed (key : String) (hSlot : w.slots id = some slot)
    (hBlock : w.store.resume env id slot.task slot.answer = some block) {next : Task} (hNext : block.next = some next) :
    (w.land id block slot.prev).jobs key = w.jobs key ∧
      ∀ last, (w.land id block slot.prev).chainOf key last = w.chainOf key last := by
  have hJob := (((Store.resume_frame hBlock).next next hNext).job key).1
  constructor
  · refine (land_jobs w id w.nextId block slot.prev key).trans ?_
    rw [hNext, Option.bind_some, hJob, ← jobs_of_slot hSlot, Function.update_eq_self]
  · intro last
    refine (land_chainOf w id w.nextId block slot.prev last key).trans ?_
    have hLive : (w.chainOf key last).live id = (slot.task.job key).map fun _ => ⟨(), slot.prev⟩ := by
      rw [chainOf_live, hSlot, Option.bind_some]
    rw [hNext, Option.bind_some, hJob, ← hLive, Function.update_eq_self]
    rfl

theorem land_ended (key : String) (w : World) (id : Nat) {block : Block} (hNext : block.next = none)
    (prev : Option Nat) :
    (w.land id block prev).jobs key = Function.update (w.jobs key) id none ∧
      ∀ last, (w.land id block prev).chainOf key last = (w.chainOf key last).drop id := by
  constructor
  · refine (land_jobs w id w.nextId block prev key).trans ?_
    rw [hNext, Option.bind_none]
  · intro last
    refine (land_chainOf w id w.nextId block prev last key).trans ?_
    rw [hNext, Option.bind_none, Option.map_none]
    rfl

theorem land_archivedSinceQueued (w : World) (id : Nat) (prev : Option Nat) (hEvents : .archived key ∉ block.events) :
    archivedSinceQueued key (w.land id block prev).trace = archivedSinceQueued key w.trace := by
  rw [World.land_trace]
  apply archivedSinceQueued_append
  rw [List.mem_reverse, List.mem_append, not_or]
  refine ⟨hEvents, fun hMem => ?_⟩
  obtain ⟨request, hStarted⟩ := startedEvents_started hMem
  cases hStarted

theorem land_any_queues {prev : Option Nat} (hBegun : w.trace.any (Event.queues key) = true) :
    (w.land id block prev).trace.any (Event.queues key) = true := by
  rw [World.land_trace, List.any_append, hBegun, Bool.or_true]

theorem land_signals {prev : Option Nat} :
    signals key (w.land id block prev).trace =
      signals key w.trace ++ block.events.filterMap (Event.signal key) := by
  have hStarted : (startedEvents block.next).filterMap (Event.signal key) = [] := by
    rw [List.filterMap_eq_nil_iff]
    intro event hEvent
    obtain ⟨request, rfl⟩ := startedEvents_started hEvent
    rfl
  rw [World.land_trace, signals_append, List.filterMap_append, hStarted, List.append_nil]

theorem KeyInv.resume (hInv : KeyInv key w) (hSlot : w.slots id = some slot) (hReady : w.ready slot = true)
    (hBlock : w.store.resume env id slot.task slot.answer = some block) : KeyInv key (w.land id block slot.prev) := by
  have hStep : w.step (.resume id env) = some (w.land id block slot.prev) :=
    World.step_resume_iff.mpr ⟨slot, block, hSlot, hReady, hBlock, rfl⟩
  have hFrame := Store.resume_frame hBlock
  have hArchived := land_archivedSinceQueued w id slot.prev (hFrame.not_archived key)
  obtain ⟨last, hChain, hLast⟩ := hInv.chained
  have hStore : archivedSinceQueued key (w.land id block slot.prev).trace = false →
      (w.land id block slot.prev).store.chains key = last := by
    intro hOpen
    rw [World.land_store, hFrame.chains]
    exact hLast (hArchived ▸ hOpen)
  have hAlone : ∀ other slot', (w.land id block slot.prev).slots other = some slot' →
      slot'.task.overwrites key = false := by
    intro other slot' hOther
    rw [World.land_slots] at hOther
    split at hOther
    · obtain ⟨next, hNext, rfl⟩ := Option.map_eq_some_iff.mp hOther
      exact ((hFrame.next next hNext).job key).2.trans (hInv.alone id slot hSlot)
    · exact hInv.alone other slot' hOther
  cases hNext : block.next with
  | some next =>
    obtain ⟨hJobs, hChains⟩ := land_resumed key hSlot hBlock hNext
    constructor
    · exact hInv.durable.step hStep
    · exact ⟨last, hChains last ▸ hChain, hStore⟩
    · intro other slot' hOther hJob hWorking
      rw [hChains]
      rw [World.land_slots] at hOther
      split at hOther
      · obtain ⟨next', -, rfl⟩ := Option.map_eq_some_iff.mp hOther
        exact ready_chainOf hReady
      · exact hInv.working other slot' hOther hJob hWorking
    · exact hAlone
    · intro other job hJob
      rw [hJobs] at hJob
      exact land_any_queues (hInv.begun other job hJob)
  | none =>
    obtain ⟨hJobs, hChains⟩ := land_ended key w id hNext slot.prev
    constructor
    · exact hInv.durable.step hStep
    · refine ⟨last, ?_, hStore⟩
      rw [hChains]
      cases hJob : slot.task.job key with
      | some job => exact hChain.drop (chainOf_of_slot last hSlot hJob) (ready_chainOf hReady)
      | none =>
        have hNone : (w.chainOf key last).live id = none := by
          rw [chainOf_live, hSlot, Option.bind_some, hJob, Option.map_none]
        rw [Chains.drop, ← hNone, Function.update_eq_self]
        exact hChain
    · intro other slot' hOther hJob hWorking
      rw [World.land_slots, hNext] at hOther
      split at hOther
      · cases hOther
      · rw [hChains]
        intro before hPrev
        have hGone := hInv.working other slot' hOther hJob hWorking before hPrev
        simp only [Chains.drop, Function.update_apply, hGone, ite_self]
    · exact hAlone
    · intro other job hJob
      rw [hJobs, Function.update_apply] at hJob
      split at hJob
      · cases hJob
      · exact land_any_queues (hInv.begun other job hJob)

/-- A task's run is a rest of the key's line, or the end of its oldest job. -/
theorem KeyInv.resume_move (hInv : KeyInv key w) (hSlot : w.slots id = some slot) (hReady : w.ready slot = true)
    (hBlock : w.store.resume env id slot.task slot.answer = some block) :
    (w.serial key).Move jobBytes [] ((w.land id block slot.prev).serial key) := by
  have hSerial : ∀ jobs sent, (w.land id block slot.prev).jobs key = jobs →
      block.events.filterMap (Event.signal key) = sent →
      (w.land id block slot.prev).serial key =
        { w.serial key with jobs := jobs, signals := signals key w.trace ++ sent } := by
    rintro jobs sent rfl rfl
    rw [World.serial, land_signals]
    rfl
  have hRest : (w.serial key).Move jobBytes [] (w.serial key) := .rest w.nextId le_rfl
  rcases hInv.resume_signals hSlot hBlock with hQuiet | ⟨job, hJob, hNext, hSent⟩
  · cases hNext : block.next with
    | some next =>
      rw [hSerial _ _ (land_resumed key hSlot hBlock hNext).1 hQuiet, List.append_nil]
      exact hRest
    | none =>
      rw [hSerial _ _ (land_ended key w id hNext slot.prev).1 hQuiet]
      cases hJob : slot.task.job key with
      | some job => exact .finish id job (hInv.oldest hSlot hJob (ready_chainOf hReady)) false
      | none =>
        rw [← hJob, ← jobs_of_slot hSlot, Function.update_eq_self, List.append_nil]
        exact hRest
  · rw [hSerial _ _ (land_ended key w id hNext slot.prev).1 hSent]
    exact .finish id job (hInv.oldest hSlot hJob (ready_chainOf hReady)) true

end Resume

/-! ## Deliveries -/

section Deliver

variable {key : String} {w : World} {id : Nat} {slot : Slot} {request : Request}

theorem deliver_jobs (hSlot : w.slots id = some slot) (request : Request) (delivery : Delivery) :
    (w.stepDeliver id slot request delivery).jobs key = w.jobs key := by
  funext other
  rw [World.jobs, World.stepDeliver_slots]
  split
  · rename_i hOther
    rw [hOther, jobs_of_slot hSlot]
    rfl
  · rfl

theorem deliver_chainOf (hSlot : w.slots id = some slot) (request : Request) (delivery : Delivery)
    (last : Option Nat) : (w.stepDeliver id slot request delivery).chainOf key last = w.chainOf key last := by
  rw [World.chainOf, World.chainOf]
  congr 1
  funext other
  rw [World.stepDeliver_slots]
  split
  · rename_i hOther
    rw [hOther, hSlot]
    rfl
  · rfl

theorem deliver_trace (key : String) (w : World) (id : Nat) (slot : Slot) (request : Request) (delivery : Delivery) :
    archivedSinceQueued key (w.stepDeliver id slot request delivery).trace = archivedSinceQueued key w.trace ∧
      signals key (w.stepDeliver id slot request delivery).trace = signals key w.trace := by
  have hTrace : (w.stepDeliver id slot request delivery).trace =
      (deliveryEvents w.server request delivery).reverse ++ w.trace := rfl
  rw [hTrace]
  constructor
  · apply archivedSinceQueued_append
    intro hMem
    obtain ⟨shown, bytes, hShown⟩ := deliveryEvents_shown (List.mem_reverse.mp hMem)
    rcases hShown with hShown | hShown <;> cases hShown
  · have hNone : (deliveryEvents w.server request delivery).filterMap (Event.signal key) = [] := by
      rw [List.filterMap_eq_nil_iff]
      intro event hMem
      obtain ⟨shown, bytes, rfl | rfl⟩ := deliveryEvents_shown hMem <;> rfl
    rw [signals_append, hNone, List.append_nil]

theorem KeyInv.deliver (hInv : KeyInv key w) (hSlot : w.slots id = some slot)
    (hRequest : slot.task.request = some request) (hAnswer : slot.answer = none) (delivery : Delivery) :
    KeyInv key (w.stepDeliver id slot request delivery) := by
  have hStep : w.step (.deliver id delivery) = some (w.stepDeliver id slot request delivery) :=
    World.step_deliver_iff.mpr ⟨slot, request, hSlot, hRequest, hAnswer, rfl⟩
  have hSlots : ∀ other slot', (w.stepDeliver id slot request delivery).slots other = some slot' →
      ∃ before, w.slots other = some before ∧ slot'.task = before.task ∧ slot'.prev = before.prev := by
    intro other slot' hOther
    rw [World.stepDeliver_slots] at hOther
    split at hOther
    · rename_i hSame
      rw [← Option.some.inj hOther]
      exact ⟨slot, hSame ▸ hSlot, rfl, rfl⟩
    · exact ⟨slot', hOther, rfl, rfl⟩
  obtain ⟨last, hChain, hLast⟩ := hInv.chained
  constructor
  · exact hInv.durable.step hStep
  · refine ⟨last, ?_, ?_⟩
    · rw [deliver_chainOf hSlot]
      exact hChain
    · rw [(deliver_trace key w id slot request delivery).1]
      exact hLast
  · intro other slot' hOther hJob hWorking
    obtain ⟨before, hBefore, hTask, hPrev⟩ := hSlots other slot' hOther
    rw [hTask] at hJob hWorking
    rw [deliver_chainOf hSlot, hPrev]
    exact hInv.working other before hBefore hJob hWorking
  · intro other slot' hOther
    obtain ⟨before, hBefore, hTask, -⟩ := hSlots other slot' hOther
    rw [hTask]
    exact hInv.alone other before hBefore
  · intro other job hJob
    rw [deliver_jobs hSlot] at hJob
    have hTrace : (w.stepDeliver id slot request delivery).trace =
        (deliveryEvents w.server request delivery).reverse ++ w.trace := rfl
    rw [hTrace, List.any_append, hInv.begun other job hJob, Bool.or_true]

/-- A request that can touch the key is a fetch, a put of the job at work, or an archive's delete. -/
theorem request_of_key (hKey : isValidMonitorKey key = true) {task : Task} (hAlone : task.overwrites key = false)
    (hRequest : task.request = some request) (hTouches : request.key = key) :
    (∃ version, request = .delete key version) ∨ request = .get key ∨
      ∃ job version, task.job key = some job ∧ task.isQueued = false ∧ request = .put key (jobBytes job) version := by
  have hManifest := isValidMonitorKey_ne_manifest hKey
  have hManager := isValidMonitorKey_ne_channelManager hKey
  have hOnce : ∀ phase : OncePhase, phase.request = some request → False := by
    intro phase hPhase
    cases phase <;> cases hPhase <;> exact hManifest hTouches.symm
  cases task with
  | monitor write isNew phase =>
    cases phase with
    | put version =>
      cases hRequest
      refine .inr (.inr ⟨(write, isNew), version, ?_, rfl, ?_⟩)
      · exact if_pos hTouches
      · rw [← hTouches]
        rfl
    | refetch =>
      cases hRequest
      exact .inr (.inl (congrArg Request.get hTouches))
    | manifestPut payload version =>
      cases hRequest
      exact absurd hTouches.symm hManifest
    | manifestRefetch =>
      cases hRequest
      exact absurd hTouches.symm hManifest
    | queued | sleep | manifestLock | manifestSleep | localSleep => cases hRequest
  | cm bytes byTick phase => cases phase <;> cases hRequest <;> exact absurd hTouches.symm hManager
  | write other bytes policy phase =>
    have hOther : other ≠ key := by simpa [Task.overwrites] using hAlone
    cases phase <;> cases hRequest <;> exact absurd hTouches hOther
  | delete other started =>
    have hOther : other ≠ key := by simpa [Task.overwrites] using hAlone
    obtain ⟨version, -, rfl⟩ := Option.map_eq_some_iff.mp hRequest
    exact absurd hTouches hOther
  | archive archived phase => exact (hOnce phase hRequest).elim
  | backfill phase => exact (hOnce phase hRequest).elim
  | archiveDelete archived version =>
    cases hRequest
    exact .inl ⟨version, by rw [← hTouches]; rfl⟩
  | fetch other =>
    cases hRequest
    exact .inr (.inl (congrArg Request.get hTouches))

/-- A delivery is a rest of the key's line, a write of its oldest job, or a delete. -/
theorem KeyInv.deliver_move (hInv : KeyInv key w) (hKey : isValidMonitorKey key = true)
    (hSlot : w.slots id = some slot) (hRequest : slot.task.request = some request) (delivery : Delivery) :
    (w.serial key).Move jobBytes [] ((w.stepDeliver id slot request delivery).serial key) := by
  have hSerial : (w.stepDeliver id slot request delivery).serial key =
      { w.serial key with value := (w.stepDeliver id slot request delivery).held key } := by
    rw [World.serial, deliver_jobs hSlot, (deliver_trace key w id slot request delivery).2]
    rfl
  have hRest : (w.stepDeliver id slot request delivery).held key = w.held key →
      (w.serial key).Move jobBytes [] ((w.stepDeliver id slot request delivery).serial key) := by
    intro hSame
    rw [hSerial, hSame]
    exact .rest w.nextId le_rfl
  have hServer : (w.stepDeliver id slot request delivery).server = (w.server.deliver request delivery).1 := rfl
  by_cases hTouches : request.key = key
  · have hEffect := w.server.deliver_effect request delivery
    rcases request_of_key hKey (hInv.alone id slot hSlot) hRequest hTouches with
      ⟨version, rfl⟩ | rfl | ⟨job, version, hJob, hWorking, rfl⟩
    · generalize hAfter : (w.server.deliver (.delete key version) delivery).1 = after at hEffect
      cases hEffect with
      | none => exact hRest (by rw [World.held, hServer, hAfter, World.held])
      | delete _ value _ hEntry =>
        have hGone : (w.stepDeliver id slot (.delete key version) delivery).held key = none := by
          rw [World.held, hServer, hAfter, Function.update_self, Option.map_none]
        rw [hSerial, hGone]
        exact .clear
    · generalize hAfter : (w.server.deliver (.get key) delivery).1 = after at hEffect
      cases hEffect
      exact hRest (by rw [World.held, hServer, hAfter, World.held])
    · generalize hAfter : (w.server.deliver (.put key (jobBytes job) version) delivery).1 = after at hEffect
      cases hEffect with
      | none => exact hRest (by rw [World.held, hServer, hAfter, World.held])
      | put _ _ _ hVersion =>
        have hHeld : (w.stepDeliver id slot (.put key (jobBytes job) version) delivery).held key =
            some (jobBytes job) := by
          rw [World.held, hServer, hAfter, Function.update_self, Option.map_some]
        rw [hSerial, hHeld]
        refine .write id job (hInv.oldest hSlot hJob (hInv.working id slot hSlot ?_ hWorking))
        rw [hJob, Option.isSome_some]
  · apply hRest
    rw [World.held, hServer, w.server.deliver_other (Ne.symm hTouches), World.held]

end Deliver

/-! ## Calls -/

section Calls

variable {key : String} {w : World} {call : Call}

theorem KeyInv.call_jobs (hInv : KeyInv key w) (call : Call)
    (hNext : ∀ task, (w.store.call w.nextId call).next = some task → task.job key = none) :
    (w.stepCall call).jobs key = w.jobs key := by
  have hNone : (w.store.call w.nextId call).next.bind (Task.job key) = w.jobs key w.nextId := by
    rw [World.jobs, hInv.unused, Option.bind_none, Option.bind_eq_none_iff]
    exact hNext
  refine (land_jobs ..).trans ?_
  rw [hNone, Function.update_eq_self]

/-- What was called took the next number, whatever was spawned under it. -/
theorem KeyInv.call_serial (hInv : KeyInv key w) (call : Call)
    (hNext : ∀ task, (w.store.call w.nextId call).next = some task → task.job key = none)
    (hEvents : (w.store.call w.nextId call).events.filterMap (Event.signal key) = []) :
    (w.stepCall call).serial key = { w.serial key with next := w.nextId + 1 } := by
  have hJobs := hInv.call_jobs call hNext
  have hSignals : signals key (w.stepCall call).trace = signals key w.trace := by
    refine land_signals.trans ?_
    rw [hEvents, List.append_nil]
  rw [World.serial, hJobs, hSignals]
  rfl

theorem KeyInv.call_chainOf (hInv : KeyInv key w) (call : Call)
    (hNext : ∀ task, (w.store.call w.nextId call).next = some task → task.job key = none) (last : Option Nat) :
    (w.stepCall call).chainOf key last = (w.chainOf key last).skip := by
  have hNone : ((w.store.call w.nextId call).next.bind (Task.job key)).map (fun _ =>
      (⟨(), (w.store.call w.nextId call).prev⟩ : Link Unit)) = (w.chainOf key last).live w.nextId := by
    rw [chainOf_live, hInv.unused, Option.bind_none, Option.map_eq_none_iff, Option.bind_eq_none_iff]
    exact hNext
  refine (land_chainOf w w.nextId (w.nextId + 1) (w.store.call w.nextId call).toBlock _ last key).trans ?_
  rw [hNone, Function.update_eq_self]
  rfl

/-- A call that queues nothing for the key keeps the line as it is. -/
theorem KeyInv.spawned (hInv : KeyInv key w) (hCallable : w.callable call = true)
    (hNext : ∀ task, (w.store.call w.nextId call).next = some task →
      task.job key = none ∧ task.overwrites key = false)
    (hChained : ∃ last, (w.chainOf key last).WellFormed ∧
      (archivedSinceQueued key (w.stepCall call).trace = false → (w.stepCall call).store.chains key = last)) :
    KeyInv key (w.stepCall call) := by
  have hChains := hInv.call_chainOf call fun task hTask => (hNext task hTask).1
  constructor
  · exact hInv.durable.step (World.step_call_iff.mpr ⟨hCallable, rfl⟩)
  · obtain ⟨last, hChain, hLast⟩ := hChained
    exact ⟨last, hChains last ▸ hChain.skip, hLast⟩
  · intro other slot hOther hJob hWorking
    rw [hChains]
    rw [World.stepCall, World.land_slots] at hOther
    split at hOther
    · obtain ⟨task, hTask, rfl⟩ := Option.map_eq_some_iff.mp hOther
      simp [(hNext task hTask).1] at hJob
    · exact hInv.working other slot hOther hJob hWorking
  · intro other slot hOther
    rw [World.stepCall, World.land_slots] at hOther
    split at hOther
    · obtain ⟨task, hTask, rfl⟩ := Option.map_eq_some_iff.mp hOther
      exact (hNext task hTask).2
    · exact hInv.alone other slot hOther
  · intro other job hJob
    rw [hInv.call_jobs call fun task hTask => (hNext task hTask).1] at hJob
    exact land_any_queues (hInv.begun other job hJob)

theorem KeyInv.queue (hInv : KeyInv key w) {write : MonitorWrite} {isNew : Bool}
    (hCallable : w.callable (.queueMonitorWrite write isNew) = true)
    (hOpen : archivedSinceQueued key w.trace = false) (hKey : write.vssKey = key)
    (hNext : (w.store.call w.nextId (.queueMonitorWrite write isNew)).next = some (.monitor write isNew .queued))
    (hPrev : (w.store.call w.nextId (.queueMonitorWrite write isNew)).prev = w.store.chains key)
    (hChains : (w.store.call w.nextId (.queueMonitorWrite write isNew)).store.chains key = some w.nextId)
    (hEvents : (w.store.call w.nextId (.queueMonitorWrite write isNew)).events = [.queued w.nextId write isNew]) :
    KeyInv key (w.stepCall (.queueMonitorWrite write isNew)) := by
  obtain ⟨last, hChain, hLast⟩ := hInv.chained
  have hJob : (Task.monitor write isNew .queued).job key = some (write, isNew) := if_pos hKey
  have hPushed : (w.stepCall (.queueMonitorWrite write isNew)).chainOf key (some w.nextId) =
      (w.chainOf key last).push () := by
    refine (land_chainOf w w.nextId (w.nextId + 1) _ _ (some w.nextId) key).trans ?_
    rw [hNext, hPrev, hLast hOpen, Option.bind_some, hJob, Option.map_some]
    rw [Chains.push]
    congr 1
  have hQueued : (w.stepCall (.queueMonitorWrite write isNew)).trace.any (Event.queues key) = true := by
    rw [World.stepCall, World.land_trace, hEvents]
    simp [Event.queues, hKey]
  constructor
  · exact hInv.durable.step (World.step_call_iff.mpr ⟨hCallable, rfl⟩)
  · refine ⟨some w.nextId, ?_, fun _ => hChains⟩
    rw [hPushed]
    exact hChain.push ()
  · intro other slot hOther hSome hWorking before hBefore
    rw [World.stepCall, World.land_slots] at hOther
    split at hOther
    · obtain ⟨task, hTask, rfl⟩ := Option.map_eq_some_iff.mp hOther
      cases hNext.symm.trans hTask
      cases hWorking
    · obtain ⟨job, hOld⟩ := Option.isSome_iff_exists.mp hSome
      have hLt := hChain.prevFresh other _ before (chainOf_of_slot last hOther hOld) hBefore
      have hGone := hInv.working other slot hOther hSome hWorking before hBefore
      rw [chainOf_live] at hGone ⊢
      rw [World.stepCall, World.land_slots, if_neg (show before ≠ w.nextId from Nat.ne_of_lt hLt)]
      exact hGone
  · intro other slot hOther
    rw [World.stepCall, World.land_slots] at hOther
    split at hOther
    · obtain ⟨task, hTask, rfl⟩ := Option.map_eq_some_iff.mp hOther
      cases hNext.symm.trans hTask
      rfl
    · exact hInv.alone other slot hOther
  · exact fun _ _ _ => hQueued

theorem call_archivedSinceQueued (hEvents : .archived key ∉ (w.store.call w.nextId call).events) :
    archivedSinceQueued key (w.stepCall call).trace = archivedSinceQueued key w.trace :=
  land_archivedSinceQueued w w.nextId _ hEvents

theorem KeyInv.called (hInv : KeyInv key w) (hOnly : monitorKeyOnly key w (.call call) = true)
    (hCallable : w.callable call = true) : KeyInv key (w.stepCall call) := by
  have hFor := Store.call_callFor hOnly w.store w.nextId
  generalize hCalled : w.store.call w.nextId call = called at hFor
  cases hFor with
  | queued write isNew hKey hNext hPrev hChains hEvents =>
    subst hCalled
    have hOpen : archivedSinceQueued key w.trace = false := by simpa [monitorKeyOnly, hKey] using hOnly
    exact hInv.queue hCallable hOpen hKey hNext hPrev hChains hEvents
  | other _ hNext hChains hEvents =>
    subst hCalled
    apply hInv.spawned hCallable hNext
    obtain ⟨last, hChain, hLast⟩ := hInv.chained
    refine ⟨last, hChain, ?_⟩
    rw [call_archivedSinceQueued fun hMem => (hEvents _ hMem).2.2 rfl]
    intro hOpen
    exact hChains.trans (hLast hOpen)
  | archived name localOk hNext hChains hEvents =>
    subst hCalled
    apply hInv.spawned hCallable hNext
    by_cases hBegun : w.trace.any (Event.queues key) = true
    · obtain ⟨last, hChain, -⟩ := hInv.chained
      refine ⟨last, hChain, ?_⟩
      have hClosed : archivedSinceQueued key (w.stepCall (.archiveMonitor name localOk)).trace = true := by
        rw [World.stepCall, World.land_trace, hEvents, List.reverse_append, List.append_assoc,
          archivedSinceQueued_append]
        · simp [archivedSinceQueued, hBegun]
        · intro hMem
          obtain ⟨request, hStarted⟩ := startedEvents_started (List.mem_reverse.mp hMem)
          cases hStarted
      simp [hClosed]
    · refine ⟨none, ?_, fun _ => hChains⟩
      have hEmpty : w.chainOf key none = ⟨fun _ => none, fun _ => none, w.nextId⟩ := by
        rw [World.chainOf]
        congr 1
        funext id
        cases hJob : w.jobs key id with
        | some job => exact absurd (hInv.begun id job hJob) hBegun
        | none =>
          rw [World.jobs, Option.bind_eq_none_iff] at hJob
          rw [Option.bind_eq_none_iff]
          intro slot hSlot
          rw [hJob slot hSlot, Option.map_none]
      rw [hEmpty]
      exact Chains.wellFormed_empty _

/-- A call submits its write to the key's line, or is a rest of it. -/
theorem KeyInv.call_move (hInv : KeyInv key w) (hOnly : monitorKeyOnly key w (.call call) = true) :
    (w.serial key).Move jobBytes ((Act.call call).submission key w.nextId) ((w.stepCall call).serial key) := by
  have hFor := Store.call_callFor hOnly w.store w.nextId
  generalize hCalled : w.store.call w.nextId call = called at hFor
  cases hFor with
  | queued write isNew hKey hNext hPrev hChains hEvents =>
    subst hCalled
    have hJob : (Task.monitor write isNew .queued).job key = some (write, isNew) := if_pos hKey
    have hJobs : (w.stepCall (.queueMonitorWrite write isNew)).jobs key =
        Function.update (w.jobs key) w.nextId (some (write, isNew)) := by
      refine (land_jobs w w.nextId (w.nextId + 1) _ _ key).trans ?_
      rw [hNext, Option.bind_some, hJob]
    have hSignals : signals key (w.stepCall (.queueMonitorWrite write isNew)).trace = signals key w.trace := by
      refine land_signals.trans ?_
      rw [hEvents]
      exact List.append_nil _
    have hSerial : (w.stepCall (.queueMonitorWrite write isNew)).serial key =
        { w.serial key with
          jobs := Function.update (w.jobs key) w.nextId (some (write, isNew))
          next := w.nextId + 1 } := by
      rw [World.serial, hJobs, hSignals]
      rfl
    rw [Act.submission, if_pos hKey, hSerial]
    exact .queue (write, isNew)
  | other _ hNext hChains hEvents =>
    subst hCalled
    rw [hInv.call_serial call (fun task hTask => (hNext task hTask).1)
      (List.filterMap_eq_nil_iff.mpr fun event hEvent => (hEvents event hEvent).2.1)]
    have hRest : (w.serial key).Move jobBytes [] { w.serial key with next := w.nextId + 1 } :=
      .rest (w.nextId + 1) (Nat.le_succ _)
    cases call with
    | queueMonitorWrite write isNew =>
      rw [Act.submission]
      split
      · exact .refuse (write, isNew)
      · exact hRest
    | cmRemoteWriteBounded | cmRetryPending | putLww | putWithMerge | deleteBestEffort | archiveMonitor
    | backfillManifestIfNeeded | fetchVersioned => exact hRest
  | archived name localOk hNext hChains hEvents =>
    subst hCalled
    rw [hInv.call_serial _ (fun task hTask => (hNext task hTask).1) (by rw [hEvents]; rfl)]
    exact .rest (w.nextId + 1) (Nat.le_succ _)

end Calls

/-! ## Whole runs -/

theorem keyInv_start (key : String) (server : Server) (monitors archivedMonitors : StringMap LocalMonitor)
    (fencedFlag : Bool) (seed : Seed) : KeyInv key (.start server monitors archivedMonitors fencedFlag seed) := by
  constructor
  · exact durabilityInv_start ..
  · exact ⟨none, Chains.wellFormed_empty 0, fun _ => rfl⟩
  · intro id slot hSlot
    cases hSlot
  · intro id slot hSlot
    cases hSlot
  · intro id job hJob
    cases hJob

variable {key : String} {w w' : World}

/-- A step of the session keeps the chain of the key, and is one move of its line. -/
theorem KeyInv.step (hInv : KeyInv key w) (hKey : isValidMonitorKey key = true) {act : Act}
    (hOnly : monitorKeyOnly key w act = true) (hStep : w.step act = some w') :
    KeyInv key w' ∧ w'.nextId = act.nextId w.nextId ∧
      (w.serial key).Move jobBytes (act.submission key w.nextId) (w'.serial key) := by
  cases act with
  | call call =>
    obtain ⟨hCallable, rfl⟩ := World.step_call_iff.mp hStep
    exact ⟨hInv.called hOnly hCallable, rfl, hInv.call_move hOnly⟩
  | deliver id delivery =>
    obtain ⟨slot, request, hSlot, hRequest, hAnswer, rfl⟩ := World.step_deliver_iff.mp hStep
    exact ⟨hInv.deliver hSlot hRequest hAnswer delivery, rfl, hInv.deliver_move hKey hSlot hRequest delivery⟩
  | resume id env =>
    obtain ⟨slot, block, hSlot, hReady, hBlock, rfl⟩ := World.step_resume_iff.mp hStep
    exact ⟨hInv.resume hSlot hReady hBlock, rfl, hInv.resume_move hSlot hReady hBlock⟩
  | foreign other value =>
    have hOther : key ≠ other := Ne.symm (by simpa [monitorKeyOnly] using hOnly)
    have hDurable := hInv.durable.step hStep
    cases hStep
    refine ⟨⟨hDurable, hInv.chained, hInv.working, hInv.alone, hInv.begun⟩, rfl, ?_⟩
    have hHeld : (w.stepForeign other value).held key = w.held key :=
      congrArg (Option.map Prod.fst) (Function.update_of_ne hOther ..)
    have hSerial : (w.stepForeign other value).serial key = w.serial key := by
      rw [World.serial, hHeld]
      rfl
    rw [hSerial]
    exact .rest w.nextId le_rfl
  | restart seed => cases hOnly

/-- What a run adds to the submissions and to what the server was seen to hold. -/
theorem KeyInv.run {first seen : List Bytes} {submitted : List (Nat × MonitorWrite × Bool)}
    (hKey : isValidMonitorKey key = true) {acts : List Act} (hInv : KeyInv key w)
    (hLedger : Serial.Ledger jobBytes first submitted (seen ++ (w.held key).toList) (w.serial key))
    (hOnly : Along World.step (fun w act => monitorKeyOnly key w act = true) w acts)
    (hRun : exec World.step w acts = some w') :
    Serial.Ledger jobBytes first (submitted ++ submissions key w.nextId acts) (seen ++ heldAlong key w acts)
      (w'.serial key) := by
  induction acts generalizing w seen submitted with
  | nil =>
    cases hRun
    rw [submissions, List.append_nil, heldAlong]
    exact hLedger
  | cons act rest ih =>
    obtain ⟨next, hStep, hRest⟩ := Option.bind_eq_some_iff.mp hRun
    obtain ⟨hNext, hNextId, hMove⟩ := hInv.step hKey hOnly.1 hStep
    have hTail := ih hNext (hLedger.move hMove) (hOnly.2 next hStep) hRest
    rw [submissions, heldAlong, hStep, ← hNextId, ← List.append_assoc, ← List.append_assoc]
    exact hTail

/-- From any disk and any server, with any failures and lost acknowledgements and any order of the
store's other work: the bytes that the server holds under a monitor key follow the order in which
they were queued, after what it held before, and the completions are signalled in that order, each
at most once. -/
theorem monitorWrites_ordered (server : Server) (monitors archivedMonitors : StringMap LocalMonitor)
    (fencedFlag : Bool) (seed : Seed) (key : String) (hKey : isValidMonitorKey key = true) (acts : List Act)
    (hOnly : Along World.step (fun w act => monitorKeyOnly key w act = true)
      (.start server monitors archivedMonitors fencedFlag seed) acts) (w : World)
    (hRun : exec World.step (.start server monitors archivedMonitors fencedFlag seed) acts = some w) :
    Stutters (heldAlong key (.start server monitors archivedMonitors fencedFlag seed) acts)
        (((server key).map Prod.fst).toList ++ (submissions key 0 acts).map (jobBytes ·.2)) ∧
      (signals key w.trace).Sublist (submissions key 0 acts) ∧
      (signals key w.trace).Pairwise (·.1 < ·.1) := by
  have hStart : Serial.Ledger jobBytes ((server key).map Prod.fst).toList [] ([] ++ ((server key).map Prod.fst).toList)
      ((World.start server monitors archivedMonitors fencedFlag seed).serial key) := by
    constructor
    · exact .nil
    · simp
    · intro id job hJob
      cases hJob
    · intro value hValue
      rw [show (server key).map Prod.fst = some value from hValue]
      rfl
    · exact (List.append_nil ((server key).map Prod.fst).toList).symm ▸ Stutters.refl_toList _
    · intro id job hJob
      cases hJob
    · exact List.nil_subset _
    · exact .nil
    · intro signal hSignal
      cases hSignal
  have hEnd := KeyInv.run hKey (keyInv_start ..) hStart hOnly hRun
  exact ⟨hEnd.follows, hEnd.signals_sublist, hEnd.inTurn⟩

/-- Two updates of one channel are queued; the acknowledgement of the first is lost, and its retry
finds its own bytes, while the channel manager is written and the second waits. -/
def lostUpdateAck : List Act :=
  [.call (.queueMonitorWrite (sampleWrite [1]) false), .call (.queueMonitorWrite (sampleWrite [2]) false),
   .resume 0 calm, .deliver 0 .lost, .call (.cmRemoteWriteBounded (.raw [9])), .resume 0 calm, .resume 0 calm,
   .deliver 2 .ok, .deliver 0 .ok, .resume 0 calm, .deliver 0 .ok, .resume 2 calm, .resume 0 calm, .resume 1 calm,
   .deliver 1 .ok, .resume 1 calm]

theorem monitorWrites_ordered_lostUpdateAck :
    ∃ w, exec World.step (.start (fun _ => none) ∅ ∅ false ⟨fun _ => none, ∅⟩) lostUpdateAck = some w ∧
      Stutters (heldAlong sampleKey (.start (fun _ => none) ∅ ∅ false ⟨fun _ => none, ∅⟩) lostUpdateAck)
        [.raw [1], .raw [2]] ∧
      signals sampleKey w.trace = [(0, sampleWrite [1], false), (1, sampleWrite [2], false)] ∧
      (signals sampleKey w.trace).Sublist (submissions sampleKey 0 lostUpdateAck) := by
  have hEnd : (exec World.step (.start (fun _ => none) ∅ ∅ false ⟨fun _ => none, ∅⟩) lostUpdateAck).map
      (fun w => signals sampleKey w.trace) = some [(0, sampleWrite [1], false), (1, sampleWrite [2], false)] := by
    decide
  obtain ⟨w, hRun, hSignals⟩ := Option.map_eq_some_iff.mp hEnd
  obtain ⟨hHeld, hSublist, -⟩ := monitorWrites_ordered (fun _ => none) ∅ ∅ false ⟨fun _ => none, ∅⟩ sampleKey
    (by decide) lostUpdateAck (by decide) w hRun
  exact ⟨w, hRun, hHeld, hSignals, hSublist⟩

end WalletCore.Vss
