import WalletCore.Vss.Takeover
import WalletCore.Vss.WriteOrder

/-! # What was reported stays on the server

A monitor update is reported once the server has it, and the process may end at any time after that. As
long as the channel is not archived and no other device writes its key, whatever the server has under it
from then on is that update or one that was queued later, in this session or in another.
-/

namespace WalletCore.Vss

open Lib

/-- One client over any number of sessions, that leaves the key to its monitor jobs and does not archive
the channel. -/
def tendsKey (key : String) (w : World) : Act → Bool
  | .restart _ => true
  | .foreign other _ => other != key
  | act => sharesKey key w act

/-- The held bytes are those of an update with this number or a later one. -/
def Covered (key : String) (id : Nat) (w : World) : Prop :=
  ∃ id' write isNew, .queued id' write isNew ∈ w.trace ∧ write.vssKey = key ∧ id ≤ id' ∧ w.held key = some write.bytes

/-- What a job knows to be on the server is there. -/
def Slot.Stored (key : String) (held : Option Bytes) (slot : Slot) : Prop :=
  ∀ write isNew phase, slot.task = .monitor write isNew phase → write.vssKey = key →
    match phase with
    | .queued | .sleep => True
    | .put _ => ∀ new, slot.answer = some (.putOk new) → held = some write.bytes
    | .refetch => ∀ value version, slot.answer = some (.found value version) → held = some value
    | _ => held = some write.bytes

structure Retained (key : String) (w : World) : Prop where
  chain : KeyInv key w
  unarchived : .archived key ∉ w.trace
  spares : ∀ id slot, w.slots id = some slot → slot.task.spares key = true
  stored : ∀ id slot, w.slots id = some slot → slot.Stored key (w.held key)
  behind : ∀ id write isNew, .monitorUpdated id write isNew ∈ w.trace → write.vssKey = key →
    ∀ other job, w.jobs key other = some job → id < other
  covered : ∀ id write isNew, .monitorUpdated id write isNew ∈ w.trace → write.vssKey = key → Covered key id w

section Retained

variable {key : String} {held : Option Bytes} {w w' : World}

theorem archivedSinceQueued_of_not_mem {trace : List Event} (h : .archived key ∉ trace) :
    archivedSinceQueued key trace = false := by
  have hNil := archivedSinceQueued_append h []
  rw [List.append_nil] at hNil
  exact hNil

theorem Retained.only (h : Retained key w) {act : Act} (hTends : tendsKey key w act = true)
    (hGoesOn : ∀ seed, act ≠ .restart seed) : monitorKeyOnly key w act = true := by
  have hOpen := archivedSinceQueued_of_not_mem h.unarchived
  cases act with
  | call call =>
    cases call with
    | queueMonitorWrite write isNew => simp [monitorKeyOnly, hOpen]
    | putLww | putWithMerge | deleteBestEffort => exact hTends
    | cmRemoteWriteBounded | cmRetryPending | archiveMonitor | backfillManifestIfNeeded | fetchVersioned => rfl
  | deliver | resume => rfl
  | foreign other value => exact hTends
  | restart seed => exact absurd rfl (hGoesOn seed)

theorem stored_arrived {write : MonitorWrite} {isNew : Bool} {phase : MonitorPhase} {answer : Option Answer}
    {prev : Option Nat} (h : Slot.Stored key held ⟨.monitor write isNew phase, answer, prev⟩) (hKey : write.vssKey = key)
    (hArrived : Arrived write phase answer) : held = some write.bytes := by
  have hHere := h write isNew phase rfl hKey
  cases phase with
  | queued | sleep => exact hArrived.elim
  | put version =>
    obtain ⟨new, rfl⟩ := hArrived
    exact hHere new rfl
  | refetch =>
    obtain ⟨version, rfl⟩ := hArrived
    exact hHere _ version rfl
  | manifestLock | manifestPut | manifestRefetch | manifestSleep | localSleep => exact hHere

theorem stored_fresh {write : MonitorWrite} {isNew : Bool} {phase : MonitorPhase} {prev : Option Nat}
    (h : held = some write.bytes ∨ phase = .queued ∨ phase.Waiting) :
    Slot.Stored key held ⟨.monitor write isNew phase, none, prev⟩ := by
  intro write' isNew' phase' hTask _
  cases hTask
  rcases h with hHeld | rfl | rfl | rfl | ⟨version, rfl⟩
  · cases phase with
    | queued | sleep => trivial
    | put => exact fun _ => nofun
    | refetch => exact fun _ _ => nofun
    | manifestLock | manifestPut | manifestRefetch | manifestSleep | localSleep => exact hHeld
  · trivial
  · exact fun _ _ => nofun
  · trivial
  · exact fun _ => nofun

/-- A job goes on, and completes, with its bytes where it takes them to be. -/
theorem runMonitorJob_stored {s : Store} {env : Env} {id : Nat} {write : MonitorWrite} {isNew : Bool}
    {phase : MonitorPhase} {answer : Option Answer} {prev : Option Nat} {block : Block} (hKey : write.vssKey = key)
    (hStored : Slot.Stored key held ⟨.monitor write isNew phase, answer, prev⟩)
    (h : s.runMonitorJob env id write isNew phase answer = some block) :
    (∀ task, block.next = some task → Slot.Stored key held ⟨task, none, prev⟩) ∧
      ∀ id' write' isNew', .monitorUpdated id' write' isNew' ∈ block.events → held = some write.bytes := by
  cases runMonitorJob_turn h with
  | waits hNext hQuiet =>
    refine ⟨fun task hTask => ?_, fun id' write' isNew' hMem => absurd hMem (hQuiet id' write' isNew')⟩
    obtain ⟨next, rfl, hWaiting⟩ := hNext task hTask
    exact stored_fresh (.inr (.inr hWaiting))
  | arrived hArrived hNext =>
    have hHeld := stored_arrived hStored hKey hArrived
    refine ⟨fun task hTask => ?_, fun _ _ _ _ => hHeld⟩
    obtain ⟨next, rfl⟩ := hNext task hTask
    exact stored_fresh (.inl hHeld)

theorem resume_stored {s : Store} {env : Env} {id : Nat} {slot : Slot} {write : MonitorWrite} {isNew : Bool}
    {phase : MonitorPhase} {block : Block} (hTask : slot.task = .monitor write isNew phase) (hKey : write.vssKey = key)
    (hStored : slot.Stored key held) (h : s.resume env id slot.task slot.answer = some block) :
    (∀ task, block.next = some task → Slot.Stored key held ⟨task, none, slot.prev⟩) ∧
      ∀ id' write' isNew', .monitorUpdated id' write' isNew' ∈ block.events → held = some write.bytes := by
  obtain ⟨task, answer, prev⟩ := slot
  obtain rfl : task = .monitor write isNew phase := hTask
  exact runMonitorJob_stored hKey hStored h

/-- Only a call to archive the channel reports it archived. -/
theorem call_unarchived {call : Call} (hTends : tendsKey key w (.call call) = true) :
    .archived key ∉ (w.store.call w.nextId call).events := by
  have hStart : ∀ bytes byTick, .archived key ∉ (w.store.startCmAttempt bytes byTick).events := by
    intro bytes byTick
    rw [Store.startCmAttempt]
    split <;> simp [Store.returned, Store.spawn]
  cases call with
  | queueMonitorWrite write isNew =>
    rw [Store.call, Store.queueMonitorWrite]
    split <;> simp [Store.returned, Store.enqueue]
  | cmRemoteWriteBounded bytes =>
    rw [Store.call, Store.cmRemoteWriteBounded]
    split
    · simp [Store.returned]
    · exact hStart bytes false
  | cmRetryPending =>
    rw [Store.call, Store.cmRetryPending]
    split
    · simp [Store.returned]
    · next bytes _ => exact hStart bytes true
  | archiveMonitor name localOk =>
    have hName : w.store.nameToVssKey.lookup name ≠ some key := by simpa [tendsKey, sharesKey] using hTends
    simp only [Store.call, Store.archiveMonitor, Store.archiveLocal_nameToVssKey]
    split
    · simp [Store.returned]
    · next archived hArchived =>
      have hOther : archived ≠ key := fun hSame => hName (hSame ▸ hArchived)
      split <;> simp [Store.returned, Store.spawn, Ne.symm hOther]
  | backfillManifestIfNeeded =>
    rw [Store.call, Store.backfillManifestIfNeeded]
    split <;> simp [Store.returned, Store.spawn]
  | putLww | putWithMerge | deleteBestEffort | fetchVersioned => simp [Store.call, Store.enqueue, Store.spawn]

theorem stored_of_other {task : Task} (h : ∀ write isNew phase, task = .monitor write isNew phase → write.vssKey ≠ key)
    (answer : Option Answer) (prev : Option Nat) : Slot.Stored key held ⟨task, answer, prev⟩ := by
  intro write isNew phase hTask hKey
  exact absurd hKey (h write isNew phase hTask)

/-! ## The steps -/

theorem queued_of_slot (h : DurabilityInv w) {id : Nat} {slot : Slot} {write : MonitorWrite} {isNew : Bool}
    {phase : MonitorPhase} (hSlot : w.slots id = some slot) (hTask : slot.task = .monitor write isNew phase) :
    .queued id write isNew ∈ w.trace := by
  obtain ⟨since, before, hTrace, -⟩ := h.slots id slot hSlot write isNew phase hTask
  rw [hTrace]
  exact List.mem_append_right _ List.mem_cons_self

theorem Covered.mono {id : Nat} (h : Covered key id w) (hTrace : w.trace ⊆ w'.trace) (hHeld : w'.held key = w.held key) :
    Covered key id w' := by
  obtain ⟨id', write, isNew, hQueued, hKey, hId, hBytes⟩ := h
  exact ⟨id', write, isNew, hTrace hQueued, hKey, hId, hHeld.trans hBytes⟩

/-- Whatever lands leaves the server as it is. -/
theorem Retained.land (h : Retained key w) {id : Nat} (nextId : Nat) {block : Block} {prev : Option Nat}
    (hChain : KeyInv key { w.land id block prev with nextId := nextId }) (hEvents : .archived key ∉ block.events)
    (hSpares : ∀ task, block.next = some task → task.spares key = true)
    (hStored : ∀ task, block.next = some task → Slot.Stored key (w.held key) ⟨task, none, prev⟩)
    (hJobs : ∀ other job, World.jobs { w.land id block prev with nextId := nextId } key other = some job →
      (∃ job, w.jobs key other = some job) ∨ other = w.nextId)
    (hSignals : ∀ signalled write isNew, .monitorUpdated signalled write isNew ∈ block.events → write.vssKey = key →
      Covered key signalled w ∧
        ∀ other job, World.jobs { w.land id block prev with nextId := nextId } key other = some job → signalled < other) :
    Retained key { w.land id block prev with nextId := nextId } := by
  have hTrace : w.trace ⊆ (w.land id block prev).trace := by
    rw [World.land_trace]
    exact List.subset_append_right ..
  have hMem : ∀ event, event ∈ (w.land id block prev).trace → event ∈ block.events ∨
      event ∈ startedEvents block.next ∨ event ∈ w.trace := by
    intro event hMem
    rw [World.land_trace, List.mem_append, List.mem_reverse, List.mem_append] at hMem
    exact or_assoc.mp hMem
  have hSignal : ∀ signalled write isNew, .monitorUpdated signalled write isNew ∈ (w.land id block prev).trace →
      .monitorUpdated signalled write isNew ∈ block.events ∨ .monitorUpdated signalled write isNew ∈ w.trace := by
    intro signalled write isNew hHere
    rcases hMem _ hHere with hNew | hStarted | hOld
    · exact .inl hNew
    · exact absurd hStarted (not_mem_startedEvents block.next signalled write isNew)
    · exact .inr hOld
  refine ⟨hChain, ?_, ?_, ?_, ?_, ?_⟩
  · intro hArchived
    rcases hMem _ hArchived with hNew | hStarted | hOld
    · exact hEvents hNew
    · obtain ⟨request, hStarted⟩ := startedEvents_started hStarted
      cases hStarted
    · exact h.unarchived hOld
  · intro other slot hSlot
    have hLanded : (w.land id block prev).slots other = some slot := hSlot
    rw [World.land_slots] at hLanded
    split at hLanded
    · obtain ⟨task, hTask, rfl⟩ := Option.map_eq_some_iff.mp hLanded
      exact hSpares task hTask
    · exact h.spares other slot hLanded
  · intro other slot hSlot
    have hLanded : (w.land id block prev).slots other = some slot := hSlot
    rw [World.land_slots] at hLanded
    split at hLanded
    · obtain ⟨task, hTask, rfl⟩ := Option.map_eq_some_iff.mp hLanded
      exact hStored task hTask
    · exact h.stored other slot hLanded
  · intro signalled write isNew hHere hKey other job hJob
    rcases hSignal signalled write isNew hHere with hNew | hOld
    · exact (hSignals signalled write isNew hNew hKey).2 other job hJob
    · rcases hJobs other job hJob with ⟨job', hBefore⟩ | rfl
      · exact h.behind signalled write isNew hOld hKey other job' hBefore
      · exact (h.chain.durable.ended signalled write isNew hOld).2
  · intro signalled write isNew hHere hKey
    rcases hSignal signalled write isNew hHere with hNew | hOld
    · exact (hSignals signalled write isNew hNew hKey).1.mono hTrace rfl
    · exact (h.covered signalled write isNew hOld hKey).mono hTrace rfl

theorem Retained.call (h : Retained key w) {call : Call} (hTends : tendsKey key w (.call call) = true)
    (hCallable : w.callable call = true) : Retained key (w.stepCall call) := by
  have hOnly := h.only hTends nofun
  have hQuiet : ∀ id write isNew, .monitorUpdated id write isNew ∉ (w.store.call w.nextId call).events := by
    intro id write isNew hMem
    rcases w.store.call_next w.nextId call with ⟨write', isNew', -, hEvents⟩ | ⟨-, -, hEvents⟩
    · rw [hEvents] at hMem
      simp at hMem
    · exact hEvents id write isNew hMem
  refine h.land (w.nextId + 1) (h.chain.called hOnly hCallable) (call_unarchived hTends)
    (fun task hNext => call_spares hTends hNext) ?_ ?_ ?_
  · intro task hNext
    rcases w.store.call_next w.nextId call with ⟨write, isNew, hQueued, -⟩ | ⟨hOther, -, -⟩
    · cases hQueued.symm.trans hNext
      exact stored_fresh (.inr (.inl rfl))
    · exact stored_of_other (fun write isNew phase hMonitor => absurd (hMonitor ▸ hNext) (hOther write isNew phase)) none _
  · intro other job hJob
    rw [land_jobs, Function.update_apply] at hJob
    split at hJob
    · next hOther => exact .inr hOther
    · exact .inl ⟨job, hJob⟩
  · exact fun id write isNew hMem => absurd hMem (hQuiet id write isNew)

theorem Retained.resume (h : Retained key w) {id : Nat} {slot : Slot} {env : Env} {block : Block}
    (hSlot : w.slots id = some slot) (hReady : w.ready slot = true)
    (hBlock : w.store.resume env id slot.task slot.answer = some block) : Retained key (w.land id block slot.prev) := by
  have hFrame := Store.resume_frame hBlock
  have hStored := h.stored id slot hSlot
  have hJob : ∀ other job, (w.land id block slot.prev).jobs key other = some job → w.jobs key other = some job := by
    intro other job hJob
    have hLanded := land_jobs w id w.nextId block slot.prev key
    rw [show (w.land id block slot.prev).jobs key = _ from hLanded, Function.update_apply] at hJob
    split at hJob
    · next hOther =>
      obtain ⟨task, hTask, hNext⟩ := Option.bind_eq_some_iff.mp hJob
      rw [hOther, jobs_of_slot hSlot, ← ((hFrame.next task hTask).job key).1]
      exact hNext
    · exact hJob
  refine h.land w.nextId (h.chain.resume hSlot hReady hBlock) (hFrame.not_archived key) ?_ ?_
    (fun other job hNext => .inl ⟨job, hJob other job hNext⟩) ?_
  · exact fun task hNext => (hFrame.next task hNext).spares (h.spares id slot hSlot)
  · intro task hNext
    by_cases hOwn : ∃ write isNew phase, slot.task = .monitor write isNew phase ∧ write.vssKey = key
    · obtain ⟨write, isNew, phase, hTask, hKey⟩ := hOwn
      exact (resume_stored hTask hKey hStored hBlock).1 task hNext
    · refine stored_of_other (fun write isNew phase hTask hKey => hOwn ?_) none _
      have hGoesOn := hFrame.next task hNext
      subst hTask
      generalize hBefore : slot.task = before at hGoesOn
      cases hGoesOn with
      | monitor _ _ earlier => exact ⟨write, isNew, earlier, hBefore ▸ rfl, hKey⟩
  · intro signalled write isNew hMem hKey
    rcases hFrame.events _ hMem with hFenced | ⟨write', isNew', phase, hTask, hLocal | hSignal⟩
    · cases hFenced
    · cases hLocal
    · cases hSignal
      have hHeld := (resume_stored hTask hKey hStored hBlock).2 _ _ _ hMem
      refine ⟨⟨id, write, isNew, queued_of_slot h.chain.durable hSlot hTask, hKey, le_rfl, hHeld⟩, ?_⟩
      intro other job hNext
      -- the job that completes is gone, and it was the oldest
      obtain ⟨-, hEnded, -⟩ := (h.chain.durable.resume hSlot hBlock).signal _ _ _ hMem
      have hOther : other ≠ id := by
        rintro rfl
        have hLanded := congrFun (land_jobs w other w.nextId block slot.prev key) other
        rw [Function.update_self, hEnded] at hLanded
        cases hNext.symm.trans hLanded
      have hOwn : slot.task.job key = some (write, isNew) := by
        rw [hTask]
        exact if_pos hKey
      have hOldest := h.chain.oldest hSlot hOwn (ready_chainOf hReady)
      exact lt_of_le_of_ne (hOldest.2 other job (hJob other job hNext)) (Ne.symm hOther)

/-- One job of the key is at work at a time. -/
theorem atWork_unique (h : KeyInv key w) {id other : Nat} {slot slot' : Slot} {job job' : MonitorWrite × Bool}
    (hSlot : w.slots id = some slot) (hJob : slot.task.job key = some job) (hWorking : slot.task.isQueued = false)
    (hSlot' : w.slots other = some slot') (hJob' : slot'.task.job key = some job')
    (hWorking' : slot'.task.isQueued = false) : other = id := by
  have hFirst := h.oldest hSlot hJob (h.working id slot hSlot (by rw [hJob]; rfl) hWorking)
  have hSecond := h.oldest hSlot' hJob' (h.working other slot' hSlot' (by rw [hJob']; rfl) hWorking')
  exact le_antisymm (hSecond.2 id job hFirst.1) (hFirst.2 other job' hSecond.1)

theorem Slot.Stored.answered {id : Nat} {slot : Slot} {request : Request} {delivery : Delivery} (h : slot.Stored key (w.held key))
    (hRequest : slot.task.request = some request)
    (hHeld : (w.stepDeliver id slot request delivery).held key = w.held key ∨
      ∃ job, slot.task.job key = some job ∧ slot.task.isQueued = false ∧
        (w.stepDeliver id slot request delivery).held key = some (jobBytes job)) :
    Slot.Stored key ((w.stepDeliver id slot request delivery).held key)
      { slot with answer := some (w.server.deliver request delivery).2 } := by
  obtain ⟨task, answer, prev⟩ := slot
  intro write isNew phase hTask hKey
  obtain rfl : task = .monitor write isNew phase := hTask
  have hAnswered := w.server.deliver_answered request delivery
  have hHere := h write isNew phase rfl hKey
  -- once the blob is stored, what is held stays the job's own
  have hKept : w.held key = some write.bytes →
      (w.stepDeliver id ⟨.monitor write isNew phase, answer, prev⟩ request delivery).held key = some write.bytes := by
    intro hBytes
    rcases hHeld with hSame | ⟨job, hJob, -, hNew⟩
    · exact hSame.trans hBytes
    · cases hJob.symm.trans (if_pos hKey)
      exact hNew
  cases phase with
  | queued | sleep => trivial
  | put version =>
    intro new hNew
    obtain rfl : request = .put write.vssKey write.bytes version := (Option.some.inj hRequest).symm
    rw [Option.some.inj hNew] at hAnswered
    subst hKey
    exact congrArg (Option.map Prod.fst) hAnswered.2
  | refetch =>
    intro value version hFound
    obtain rfl : request = .get write.vssKey := (Option.some.inj hRequest).symm
    rw [Option.some.inj hFound] at hAnswered
    subst hKey
    exact congrArg (Option.map Prod.fst) hAnswered
  | manifestLock | manifestPut | manifestRefetch | manifestSleep | localSleep => exact hKept hHere

theorem Retained.deliver (h : Retained key w) (hKey : isValidMonitorKey key = true) {id : Nat} {slot : Slot}
    {request : Request} {delivery : Delivery} (hSlot : w.slots id = some slot)
    (hRequest : slot.task.request = some request) (hAnswer : slot.answer = none) :
    Retained key (w.stepDeliver id slot request delivery) := by
  have hCritical : fundCritical key = true := by simp [fundCritical, hKey]
  have hAnswered := w.server.deliver_answered request delivery
  have hTrace : w.trace ⊆ (w.stepDeliver id slot request delivery).trace := List.subset_append_right ..
  have hSignal : ∀ signalled write isNew,
      .monitorUpdated signalled write isNew ∈ (w.stepDeliver id slot request delivery).trace →
      .monitorUpdated signalled write isNew ∈ w.trace := by
    intro signalled write isNew hMem
    rcases List.mem_append.mp hMem with hNew | hOld
    · exact absurd (List.mem_reverse.mp hNew) (not_mem_deliveryEvents w.server request delivery signalled write isNew)
    · exact hOld
  -- a put that takes effect is the one of the job at work, and its bytes are what is held
  have hMoved : (w.stepDeliver id slot request delivery).held key = w.held key ∨
      ∃ job, slot.task.job key = some job ∧ slot.task.isQueued = false ∧
        (w.stepDeliver id slot request delivery).held key = some (jobBytes job) := by
    rcases deliver_at hCritical w.server (h.spares id slot hSlot) hRequest delivery with hSame | ⟨value, hPut, hNew⟩
    · exact .inl (congrArg (Option.map Prod.fst) hSame)
    · subst hPut
      rcases request_of_key hKey (h.chain.alone id slot hSlot) hRequest rfl with ⟨_, hDelete⟩ | hGet | ⟨job, version, hJob, hWorking, hOwn⟩
      · cases hDelete
      · cases hGet
      · cases hOwn
        exact .inr ⟨job, hJob, hWorking, congrArg (Option.map Prod.fst) hNew⟩
  refine ⟨h.chain.deliver hSlot hRequest hAnswer delivery, ?_, ?_, ?_, ?_, ?_⟩
  · intro hArchived
    rcases List.mem_append.mp hArchived with hNew | hOld
    · obtain ⟨shown, bytes, hShown | hShown⟩ := deliveryEvents_shown (List.mem_reverse.mp hNew) <;> cases hShown
    · exact h.unarchived hOld
  · intro other slot' hSlot'
    rw [World.stepDeliver_slots] at hSlot'
    split at hSlot'
    · cases hSlot'
      exact h.spares id slot hSlot
    · exact h.spares other slot' hSlot'
  · intro other slot' hSlot'
    rw [World.stepDeliver_slots] at hSlot'
    split at hSlot'
    · cases hSlot'
      exact (h.stored id slot hSlot).answered hRequest hMoved
    · next hOther =>
      rcases hMoved with hSame | ⟨job, hJob, hWorking, -⟩
      · rw [hSame]
        exact h.stored other slot' hSlot'
      · intro write isNew phase hTask hWrite
        have hJob' : slot'.task.job key = some (write, isNew) := by
          rw [hTask]
          exact if_pos hWrite
        cases phase with
        | queued => trivial
        | put | refetch | sleep | manifestLock | manifestPut | manifestRefetch | manifestSleep | localSleep =>
          exact absurd (atWork_unique h.chain hSlot hJob hWorking hSlot' hJob' (by rw [hTask]; rfl)) hOther
  · intro signalled write isNew hMem hWrite other job hJob
    rw [deliver_jobs hSlot] at hJob
    exact h.behind signalled write isNew (hSignal _ _ _ hMem) hWrite other job hJob
  · intro signalled write isNew hMem hWrite
    have hOld := hSignal _ _ _ hMem
    rcases hMoved with hSame | ⟨job, hJob, -, hHeld⟩
    · exact (h.covered signalled write isNew hOld hWrite).mono hTrace hSame
    · obtain ⟨phase, hTask, hJobKey⟩ : ∃ phase, slot.task = .monitor job.1 job.2 phase ∧ job.1.vssKey = key := by
        generalize slot.task = task at hJob
        cases task with
        | monitor write isNew phase =>
          rw [Task.job] at hJob
          split at hJob
          · next hSame =>
            cases hJob
            exact ⟨phase, rfl, hSame⟩
          · cases hJob
        | cm | write | delete | archive | archiveDelete | backfill | fetch => cases hJob
      have hBefore := h.behind signalled write isNew hOld hWrite id job ((jobs_of_slot hSlot).trans hJob)
      exact ⟨id, job.1, job.2, hTrace (queued_of_slot h.chain.durable hSlot hTask), hJobKey, hBefore.le, hHeld⟩

theorem Retained.foreign (h : Retained key w) {other : String} (hOther : key ≠ other) (value : Option Bytes) :
    Retained key (w.stepForeign other value) := by
  have hHeld : (w.stepForeign other value).held key = w.held key :=
    congrArg (Option.map Prod.fst) (Function.update_of_ne hOther ..)
  have hStep : w.step (.foreign other value) = some (w.stepForeign other value) := rfl
  have hChain : KeyInv key (w.stepForeign other value) :=
    ⟨h.chain.durable.step hStep, h.chain.chained, h.chain.working, h.chain.alone, h.chain.begun⟩
  refine ⟨hChain, h.unarchived, h.spares, ?_, h.behind, ?_⟩
  · rw [hHeld]
    exact h.stored
  · exact fun signalled write isNew hMem hKey => (h.covered signalled write isNew hMem hKey).mono (List.Subset.refl _) hHeld

/-- A new session has no jobs, and finds what the server has. -/
theorem Retained.restart (h : Retained key w) (seed : Seed) : Retained key (w.stepRestart seed) := by
  have hStep : w.step (.restart seed) = some (w.stepRestart seed) := rfl
  have hEmpty : ∀ last, (w.stepRestart seed).chainOf key last = ⟨fun _ => none, fun _ => last, w.nextId⟩ := fun _ => rfl
  have hChain : KeyInv key (w.stepRestart seed) := by
    refine ⟨h.chain.durable.step hStep, ⟨none, ?_, fun _ => rfl⟩, ?_, ?_, ?_⟩
    · rw [hEmpty]
      exact Chains.wellFormed_empty _
    all_goals
      intro id _ hNone
      cases hNone
  have hTrace : w.trace ⊆ (w.stepRestart seed).trace := List.subset_append_right ..
  have hOld : ∀ id write isNew, .monitorUpdated id write isNew ∈ (w.stepRestart seed).trace →
      .monitorUpdated id write isNew ∈ w.trace := by
    intro id write isNew hMem
    rcases List.mem_cons.mp hMem with hNew | hOld
    · cases hNew
    · exact hOld
  refine ⟨hChain, ?_, fun _ _ => nofun, fun _ _ => nofun, fun _ _ _ _ _ _ _ => nofun, ?_⟩
  · intro hArchived
    rcases List.mem_cons.mp hArchived with hNew | hBefore
    · cases hNew
    · exact h.unarchived hBefore
  · intro id write isNew hMem hKey
    exact (h.covered id write isNew (hOld id write isNew hMem) hKey).mono hTrace rfl

theorem Retained.step (h : Retained key w) (hKey : isValidMonitorKey key = true) {act : Act}
    (hTends : tendsKey key w act = true) (hStep : w.step act = some w') : Retained key w' := by
  cases act with
  | call call =>
    obtain ⟨hCallable, rfl⟩ := World.step_call_iff.mp hStep
    exact h.call hTends hCallable
  | deliver id delivery =>
    obtain ⟨slot, request, hSlot, hRequest, hAnswer, rfl⟩ := World.step_deliver_iff.mp hStep
    exact h.deliver hKey hSlot hRequest hAnswer
  | resume id env =>
    obtain ⟨slot, block, hSlot, hReady, hBlock, rfl⟩ := World.step_resume_iff.mp hStep
    exact h.resume hSlot hReady hBlock
  | foreign other value =>
    cases hStep
    exact h.foreign (Ne.symm (by simpa [tendsKey] using hTends)) value
  | restart seed =>
    cases hStep
    exact h.restart seed

theorem retained_start (key : String) (server : Server) (monitors archivedMonitors : StringMap LocalMonitor)
    (fencedFlag : Bool) (seed : Seed) : Retained key (.start server monitors archivedMonitors fencedFlag seed) := by
  refine ⟨keyInv_start .., by simp [World.start], by simp [World.start], by simp [World.start], ?_, ?_⟩
  · exact fun _ _ _ hMem => absurd hMem (by simp [World.start])
  · exact fun _ _ _ hMem => absurd hMem (by simp [World.start])

/-- Whatever happens to the store's requests and to the process: a monitor update that was reported as
backed up is on the server, or one that was queued later is. -/
theorem retained_run (hKey : isValidMonitorKey key = true) {server : Server}
    {monitors archivedMonitors : StringMap LocalMonitor} {fencedFlag : Bool} {seed : Seed} {acts : List Act}
    (hTends : Along World.step (fun w act => tendsKey key w act = true)
      (.start server monitors archivedMonitors fencedFlag seed) acts)
    (hRun : exec World.step (.start server monitors archivedMonitors fencedFlag seed) acts = some w) : Retained key w :=
  exec_inv (fun _ _ _ h hTends hStep => h.step hKey hTends hStep)
    (retained_start key server monitors archivedMonitors fencedFlag seed) hTends hRun

end Retained

end WalletCore.Vss
