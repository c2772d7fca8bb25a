import WalletCore.Vss.System

/-! # After the fence

Once the fence is set, and in every later session that starts with the flag file, nothing more
should be put or deleted. A writer that looks at the fence only before it waits for the manifest
lock, or only before its first put, can still start a request after another task has fenced.
-/

namespace WalletCore.Vss

open Lib

/-! ## The fence in the trace -/

/-- Whether the store is fenced after these events, the newest of which comes first. -/
def fencedIn : List Event → Bool
  | [] => false
  | .fenced :: _ => true
  | .session fenced :: _ => fenced
  | _ :: earlier => fencedIn earlier

/-- Every put and every delete was started while the store was not fenced. -/
def Poisoned (trace : List Event) : Prop :=
  ∀ later request earlier, trace = later ++ .started request :: earlier →
    request.isWrite = true → fencedIn earlier = false

def Event.quiet : Event → Bool
  | .session _ | .fenced | .started _ => false
  | _ => true

theorem fencedIn_quiet {events : List Event} (h : ∀ event ∈ events, event.quiet = true) (earlier : List Event) :
    fencedIn (events ++ earlier) = fencedIn earlier := by
  induction events with
  | nil => rfl
  | cons event rest ih =>
    obtain ⟨hEvent, hRest⟩ := List.forall_mem_cons.mp h
    rw [List.cons_append, ← ih hRest]
    cases event <;> first | rfl | cases hEvent

theorem poisoned_nil : Poisoned [] := by
  intro later request earlier hSplit
  simp at hSplit

theorem poisoned_cons (event : Event) (earlier : List Event) :
    Poisoned (event :: earlier) ↔
      (∀ request, event = .started request → request.isWrite = true → fencedIn earlier = false) ∧
        Poisoned earlier := by
  constructor
  · intro h
    refine ⟨?_, ?_⟩
    · rintro request rfl hWrite
      exact h [] request earlier rfl hWrite
    · intro later request before hSplit hWrite
      exact h (event :: later) request before (by rw [hSplit, List.cons_append]) hWrite
  · rintro ⟨hEvent, hEarlier⟩ later request before hSplit hWrite
    cases later with
    | nil =>
      obtain ⟨rfl, rfl⟩ := List.cons.inj hSplit
      exact hEvent request rfl hWrite
    | cons first rest =>
      obtain ⟨-, hRest⟩ := List.cons.inj hSplit
      exact hEarlier rest request before hRest hWrite

instance decidablePoisoned : (trace : List Event) → Decidable (Poisoned trace)
  | [] => isTrue poisoned_nil
  | event :: earlier =>
    have := decidablePoisoned earlier
    match event with
    | .started request =>
      decidable_of_iff ((request.isWrite = true → fencedIn earlier = false) ∧ Poisoned earlier)
        (by simp [poisoned_cons])
    | .session _ | .queued .. | .archived _ | .stored .. | .fetched .. | .wroteLocal .. | .monitorUpdated ..
    | .fenced => decidable_of_iff (Poisoned earlier) (by simp [poisoned_cons])

theorem poisoned_quiet {events : List Event} (h : ∀ event ∈ events, event.quiet = true) (earlier : List Event) :
    Poisoned (events ++ earlier) ↔ Poisoned earlier := by
  induction events with
  | nil => rfl
  | cons event rest ih =>
    obtain ⟨hEvent, hRest⟩ := List.forall_mem_cons.mp h
    rw [List.cons_append, poisoned_cons, ih hRest, and_iff_right_iff_imp]
    rintro - request rfl
    cases hEvent

/-! ## One run to the next await -/

def startsWrite (next : Option Task) : Bool := (next.bind Task.request).any Request.isWrite

/-- What a run to the next await, or a call, does about the fence. -/
inductive FenceMove (s : Store) (block : Block) : Prop
  | kept (hFenced : block.store.fenced = s.fenced) (hQuiet : ∀ event ∈ block.events, event.quiet = true)
  | tripped (hBefore : s.fenced = false) (hAfter : block.store.fenced = true) (hEnd : block.next = none)
    (hEvents : block.events = [.fenced])

namespace Store

@[simp] theorem mergeManifest_fenced (s : Store) (bytes : Bytes) : (s.mergeManifest bytes).fenced = s.fenced := by
  rw [mergeManifest]
  split <;> rfl

@[simp] theorem recordSome_fenced (s : Store) (key : String) (version : Option Nat) :
    (s.recordSome key version).fenced = s.fenced := by
  cases version <;> rfl

theorem manifestRound_fenced (s : Store) (round : Nat) : (s.manifestRound round).1.fenced = s.fenced := by
  rw [manifestRound]
  split
  · rfl
  · split
    · split <;> rfl
    · rfl

theorem writeManifestOnceBestEffort_fenced {s : Store} {phase : OncePhase} {answer : Option Answer}
    {result : Store × Option OncePhase} (h : s.writeManifestOnceBestEffort phase answer = some result) :
    result.1.fenced = s.fenced := by
  rw [writeManifestOnceBestEffort.eq_def] at h
  split at h
  case h_2 =>
    split at h
    · cases h
    · cases h
      exact manifestRound_fenced _ _
  all_goals cases h
  all_goals simp [manifestRound_fenced]

theorem localWriteWithRetry_fenceMove {s s' : Store} (h : s'.fenced = s.fenced) (env : Env) (id : Nat)
    (write : MonitorWrite) (isNew : Bool) : FenceMove s (s'.localWriteWithRetry env id write isNew) := by
  rw [localWriteWithRetry]
  split
  · refine .kept h ?_
    split <;> simp [Event.quiet]
  · exact .kept h (by simp)

theorem writeManifestWithRetryLocked_fenceMove {s s' : Store} (h : s'.fenced = s.fenced) (env : Env) (id : Nat)
    (write : MonitorWrite) (isNew : Bool) : FenceMove s (s'.writeManifestWithRetryLocked env id write isNew) := by
  rw [writeManifestWithRetryLocked]
  split
  · exact .kept h (by simp)
  · split
    · apply localWriteWithRetry_fenceMove
      exact h
    · exact .kept h (by simp)

theorem putFundCritical_fenceMove {s s' : Store} (h : s'.fenced = s.fenced) (write : MonitorWrite) (isNew : Bool) :
    FenceMove s (s'.putFundCritical write isNew) := by
  rw [putFundCritical]
  split <;> exact .kept h (by simp)

theorem blobStored_fenceMove {s s' : Store} (h : s'.fenced = s.fenced) (env : Env) (id : Nat)
    (write : MonitorWrite) (isNew : Bool) : FenceMove s (s'.blobStored env id write isNew) := by
  rw [blobStored]
  split
  · exact .kept h (by simp)
  · apply localWriteWithRetry_fenceMove
    exact h

theorem tripFence_fenceMove {s s' : Store} (h : s'.fenced = s.fenced) (flagOk : Bool) :
    FenceMove s ⟨s'.tripFence flagOk, none, s'.tripFenceEvents⟩ := by
  by_cases hFenced : s'.fenced = true
  · exact .kept (by simp [tripFence, hFenced, ← h]) (by simp [tripFenceEvents, hFenced])
  · exact .tripped (by simpa [h] using hFenced) (by simp [tripFence, hFenced]) rfl (by simp [tripFenceEvents, hFenced])

theorem runMonitorJob_fenceMove {s : Store} {env : Env} {id : Nat} {write : MonitorWrite} {isNew : Bool}
    {phase : MonitorPhase} {answer : Option Answer} {block : Block}
    (h : s.runMonitorJob env id write isNew phase answer = some block) : FenceMove s block := by
  rw [runMonitorJob.eq_def] at h
  split at h <;> (try split at h) <;> cases h
  all_goals first
    | exact .kept rfl (by simp)
    | apply putFundCritical_fenceMove; rfl
    | apply blobStored_fenceMove; rfl
    | apply tripFence_fenceMove; rfl
    | apply localWriteWithRetry_fenceMove; rfl
    | apply writeManifestWithRetryLocked_fenceMove; simp

theorem resume_fenceMove {s : Store} {env : Env} {id : Nat} {task : Task} {answer : Option Answer} {block : Block}
    (h : s.resume env id task answer = some block) : FenceMove s block := by
  cases task with
  | monitor write isNew phase => exact runMonitorJob_fenceMove h
  | cm bytes byTick phase =>
    rw [resume, cmRemoteAttempt.eq_def] at h
    split at h <;> (try split at h) <;> cases h
    all_goals first
      | exact .kept rfl (by simp)
      | apply tripFence_fenceMove; rfl
  | write key bytes policy phase =>
    obtain ⟨result, -, rfl⟩ := Option.map_eq_some_iff.mp h
    exact .kept (recordSome_fenced ..) (by simp)
  | delete key started =>
    rw [resume, runDelete.eq_def] at h
    split at h <;> cases h <;> exact .kept rfl (by simp)
  | archive key phase =>
    obtain ⟨result, hResult, rfl⟩ := Option.map_eq_some_iff.mp h
    have hFenced := writeManifestOnceBestEffort_fenced hResult
    split
    · exact .kept hFenced (by simp)
    · split <;> exact .kept hFenced (by simp)
  | archiveDelete key version =>
    rw [resume, finishArchive.eq_def] at h
    split at h <;> cases h <;> exact .kept rfl (by simp)
  | backfill phase =>
    obtain ⟨result, hResult, rfl⟩ := Option.map_eq_some_iff.mp h
    exact .kept (writeManifestOnceBestEffort_fenced hResult) (by simp)
  | fetch key =>
    rw [resume, fetchVersioned.eq_def] at h
    split at h <;> cases h <;> exact .kept rfl (by simp)

/-! ## The writers that do not look at the fence again -/

/-- Whether a best-effort attempt would put or delete the manifest. -/
def manifestDue (s : Store) : Bool :=
  !s.monitorKeys.publishable.isEmpty || s.cachedVersion monitorManifestKey != 0

end Store

/-- The lock is granted, or a first conflict is resolved, and the attempt goes on. -/
def OncePhase.overtakesFence (s : Store) : OncePhase → Option Answer → Bool
  | .manifestLock, none => s.manifestDue
  | .refetch 0, some (.found bytes version) =>
    ((s.recordVersion monitorManifestKey version).mergeManifest bytes).manifestDue
  | .refetch 0, some .missing => (s.recordVersion monitorManifestKey 0).manifestDue
  | _, _ => false

/-- Whether the task, if it runs now, starts a request without looking at the fence. -/
def Task.overtakesFence (s : Store) : Task → Option Answer → Bool
  | .archive _ phase, answer => phase.overtakesFence s answer
  | .backfill phase, answer => phase.overtakesFence s answer
  | .write _ _ _ .refetch, some (.found ..) => true
  | .write _ _ _ .refetch, some .missing => true
  | _, _ => false

/-- The step resumes such a task in a fenced store. -/
def overtakesFence (w : World) : Act → Bool
  | .resume id _ =>
    match w.slots id with
    | some slot => w.store.fenced && slot.task.overtakesFence w.store slot.answer
    | none => false
  | _ => false

namespace Store

theorem manifestRound_startsWrite (s : Store) (round : Nat) :
    ((s.manifestRound round).2.bind OncePhase.request).any Request.isWrite =
      (decide (round < 2) && s.manifestDue) := by
  rw [manifestRound, manifestDue]
  split
  · rename_i hRound
    rw [decide_eq_false (Nat.not_lt.mpr hRound)]
    rfl
  · split
    · split <;> simp_all [OncePhase.request, Request.isWrite]
    · simp_all [OncePhase.request, Request.isWrite]

theorem writeManifestOnceBestEffort_startsWrite {s : Store} {phase : OncePhase} {answer : Option Answer}
    {result : Store × Option OncePhase} (hFenced : s.fenced = true)
    (h : s.writeManifestOnceBestEffort phase answer = some result) :
    (result.2.bind OncePhase.request).any Request.isWrite = phase.overtakesFence s answer := by
  rw [writeManifestOnceBestEffort.eq_def] at h
  split at h
  case h_2 =>
    split at h
    · cases h
    · cases h
      exact manifestRound_startsWrite _ 0
  case h_6 round bytes version =>
    cases h
    rw [manifestRound_startsWrite]
    cases round <;> simp [OncePhase.overtakesFence]
  case h_7 round =>
    cases h
    rw [manifestRound_startsWrite]
    cases round <;> simp [OncePhase.overtakesFence]
  all_goals cases h
  all_goals simp_all [OncePhase.overtakesFence, OncePhase.request, Request.isWrite]

theorem localWriteWithRetry_quietNext (s : Store) (env : Env) (id : Nat) (write : MonitorWrite) (isNew : Bool) :
    startsWrite (s.localWriteWithRetry env id write isNew).next = false := by
  rw [localWriteWithRetry]
  split <;> rfl

theorem blobStored_quietNext (s : Store) (env : Env) (id : Nat) (write : MonitorWrite) (isNew : Bool) :
    startsWrite (s.blobStored env id write isNew).next = false := by
  rw [blobStored]
  split
  · rfl
  · exact localWriteWithRetry_quietNext ..

/-- The monitor chain and the channel manager look at the fence before every put. -/
theorem runMonitorJob_startsWrite {s : Store} {env : Env} {id : Nat} {write : MonitorWrite} {isNew : Bool}
    {phase : MonitorPhase} {answer : Option Answer} {block : Block} (hFenced : s.fenced = true)
    (h : s.runMonitorJob env id write isNew phase answer = some block) : startsWrite block.next = false := by
  have hManifest : ∀ s' : Store, s'.fenced = true →
      startsWrite (s'.writeManifestWithRetryLocked env id write isNew).next = false := by
    intro s' hFenced
    rw [writeManifestWithRetryLocked, if_pos hFenced]
    rfl
  rw [runMonitorJob.eq_def] at h
  split at h <;> (try split at h) <;> cases h
  all_goals first
    | rfl
    | exact blobStored_quietNext ..
    | exact localWriteWithRetry_quietNext ..
    | apply hManifest; simpa using hFenced
    | rw [putFundCritical, if_pos hFenced]; rfl

theorem resume_startsWrite {s : Store} {env : Env} {id : Nat} {task : Task} {answer : Option Answer} {block : Block}
    (hFenced : s.fenced = true) (h : s.resume env id task answer = some block) :
    startsWrite block.next = task.overtakesFence s answer := by
  cases task with
  | monitor write isNew phase => exact runMonitorJob_startsWrite hFenced h
  | cm bytes byTick phase =>
    rw [resume, cmRemoteAttempt.eq_def] at h
    split at h <;> (try split at h) <;> cases h <;> rfl
  | write key bytes policy phase =>
    obtain ⟨result, hResult, rfl⟩ := Option.map_eq_some_iff.mp h
    have hAttempt : putAttempt policy s.fenced (s.cachedVersion key) bytes env.merged phase answer = some result := by
      cases policy <;> exact hResult
    rw [putAttempt.eq_def] at hAttempt
    split at hAttempt <;> cases hAttempt
    all_goals simp_all [startsWrite, Task.overtakesFence, Task.request, WritePhase.request, Request.isWrite]
  | delete key started =>
    rw [resume, runDelete.eq_def] at h
    split at h <;> cases h <;> simp [startsWrite, Task.overtakesFence, hFenced]
  | archive key phase =>
    obtain ⟨result, hResult, rfl⟩ := Option.map_eq_some_iff.mp h
    have hStarts := writeManifestOnceBestEffort_startsWrite hFenced hResult
    have hStill := (writeManifestOnceBestEffort_fenced hResult).trans hFenced
    rw [Task.overtakesFence, ← hStarts]
    cases hNext : result.2 with
    | some next => rfl
    | none => simp [hStill, startsWrite]
  | archiveDelete key version =>
    rw [resume, finishArchive.eq_def] at h
    split at h <;> cases h <;> rfl
  | backfill phase =>
    obtain ⟨result, hResult, rfl⟩ := Option.map_eq_some_iff.mp h
    rw [Task.overtakesFence, ← writeManifestOnceBestEffort_startsWrite hFenced hResult]
    cases hNext : result.2 <;> simp [startsWrite, Task.request]
  | fetch key =>
    rw [resume, fetchVersioned.eq_def] at h
    split at h <;> cases h <;> rfl

theorem call_fenceMove (s : Store) (id : Nat) (call : Call) : FenceMove s (s.call id call).toBlock := by
  have hStart : ∀ bytes byTick, FenceMove s (s.startCmAttempt bytes byTick).toBlock := by
    intro bytes byTick
    rw [startCmAttempt]
    split <;> exact .kept rfl (by simp [returned, spawn])
  cases call with
  | queueMonitorWrite write isNew =>
    rw [call, queueMonitorWrite]
    split <;> exact .kept rfl (by simp [returned, enqueue, Event.quiet])
  | cmRemoteWriteBounded bytes =>
    rw [call, cmRemoteWriteBounded]
    split
    · exact .kept rfl (by simp [returned])
    · exact hStart bytes false
  | cmRetryPending =>
    rw [call, cmRetryPending]
    split
    · exact .kept rfl (by simp [returned])
    · exact hStart _ true
  | archiveMonitor name localOk =>
    have hLocal := s.archiveLocal_fenced name localOk
    simp only [call, archiveMonitor]
    split
    · exact .kept hLocal (by simp [returned])
    · split <;> exact .kept hLocal (by simp [returned, spawn, Event.quiet])
  | backfillManifestIfNeeded =>
    rw [call, backfillManifestIfNeeded]
    split <;> exact .kept rfl (by simp [returned, spawn])
  | putLww key bytes => exact .kept rfl (by simp [call, enqueue])
  | putWithMerge key bytes => exact .kept rfl (by simp [call, enqueue])
  | deleteBestEffort key => exact .kept rfl (by simp [call, enqueue])
  | fetchVersioned key => exact .kept rfl (by simp [call, spawn])

theorem call_startsWrite {s : Store} (hFenced : s.fenced = true) (id : Nat) (call : Call) :
    startsWrite (s.call id call).next = false := by
  cases call with
  | queueMonitorWrite write isNew => simp [call, queueMonitorWrite, hFenced, returned, startsWrite]
  | cmRemoteWriteBounded bytes => simp [call, cmRemoteWriteBounded, hFenced, returned, startsWrite]
  | cmRetryPending =>
    rw [call, cmRetryPending]
    split <;> simp [startCmAttempt, hFenced, returned, startsWrite]
  | archiveMonitor name localOk =>
    simp only [call, archiveMonitor]
    split
    · rfl
    · split <;> rfl
  | backfillManifestIfNeeded =>
    rw [call, backfillManifestIfNeeded]
    split <;> rfl
  | putLww | putWithMerge | deleteBestEffort | fetchVersioned => rfl

end Store

/-! ## Whole runs -/

namespace World

theorem land_fencedIn {w : World} {block : Block} (hMove : FenceMove w.store block)
    (hTrace : fencedIn w.trace = w.store.fenced) (id : Nat) (prev : Option Nat) :
    fencedIn (w.land id block prev).trace = block.store.fenced := by
  have hStarted : ∀ earlier, fencedIn ((startedEvents block.next).reverse ++ earlier) = fencedIn earlier := by
    intro earlier
    rw [startedEvents]
    cases block.next.bind Task.request <;> rfl
  rw [land_trace, List.reverse_append, List.append_assoc, hStarted]
  cases hMove with
  | kept hFenced hQuiet => rw [fencedIn_quiet (by simpa using hQuiet), hTrace, hFenced]
  | tripped hBefore hAfter hEnd hEvents => rw [hEvents, hAfter, List.reverse_singleton, List.singleton_append, fencedIn]

/-- A run to the next await keeps the property exactly when a fenced store starts nothing. -/
theorem land_poisoned {w : World} {block : Block} (hMove : FenceMove w.store block)
    (hTrace : fencedIn w.trace = w.store.fenced) (id : Nat) (prev : Option Nat) :
    Poisoned (w.land id block prev).trace ↔
      (w.store.fenced = true → startsWrite block.next = false) ∧ Poisoned w.trace := by
  rw [land_trace, List.reverse_append, List.append_assoc]
  cases hMove with
  | tripped hBefore hAfter hEnd hEvents =>
    rw [hEnd, hEvents, hBefore]
    simp [startedEvents, poisoned_cons]
  | kept hFenced hQuiet =>
    have hQuiet : ∀ event ∈ block.events.reverse, event.quiet = true := by simpa using hQuiet
    rw [startedEvents, startsWrite]
    cases block.next.bind Task.request with
    | none => simp [poisoned_quiet hQuiet]
    | some request =>
      simp only [Option.map_some, Option.toList_some, List.reverse_singleton, List.singleton_append,
        poisoned_cons, poisoned_quiet hQuiet, fencedIn_quiet hQuiet, hTrace, Option.any_some]
      apply and_congr_left
      rintro -
      cases w.store.fenced <;> cases hWrite : request.isWrite <;> simp [hWrite]

theorem deliveryEvents_quiet (server : Server) (request : Request) (delivery : Delivery) :
    ∀ event ∈ deliveryEvents server request delivery, event.quiet = true := by
  intro event hEvent
  obtain ⟨key, bytes, rfl | rfl⟩ := deliveryEvents_shown hEvent <;> rfl

theorem step_fence {w w' : World} {act : Act} (hTrace : fencedIn w.trace = w.store.fenced)
    (h : w.step act = some w') :
    fencedIn w'.trace = w'.store.fenced ∧ (Poisoned w'.trace ↔ overtakesFence w act = false ∧ Poisoned w.trace) := by
  cases act with
  | call call =>
    obtain ⟨-, rfl⟩ := step_call_iff.mp h
    have hMove := w.store.call_fenceMove w.nextId call
    refine ⟨land_fencedIn hMove hTrace .., (land_poisoned hMove hTrace ..).trans ?_⟩
    simpa [overtakesFence] using fun _ hFenced => Store.call_startsWrite hFenced w.nextId call
  | deliver id delivery =>
    obtain ⟨slot, request, -, -, -, rfl⟩ := step_deliver_iff.mp h
    have hQuiet : ∀ event ∈ (deliveryEvents w.server request delivery).reverse, event.quiet = true := by
      simpa using deliveryEvents_quiet w.server request delivery
    exact ⟨(fencedIn_quiet hQuiet _).trans hTrace, (poisoned_quiet hQuiet _).trans (by simp [overtakesFence, setSlot])⟩
  | resume id env =>
    obtain ⟨slot, block, hSlot, -, hBlock, rfl⟩ := step_resume_iff.mp h
    have hMove := Store.resume_fenceMove hBlock
    refine ⟨land_fencedIn hMove hTrace .., (land_poisoned hMove hTrace ..).trans ?_⟩
    apply and_congr_left
    rintro -
    simp only [overtakesFence, hSlot]
    cases hFenced : w.store.fenced with
    | false => simp
    | true => simp [Store.resume_startsWrite hFenced hBlock]
  | foreign key value =>
    cases h
    exact ⟨hTrace, by simp [overtakesFence, stepForeign]⟩
  | restart seed =>
    cases h
    exact ⟨rfl, by simp [overtakesFence, stepRestart, see, poisoned_cons]⟩

/-- In every run, the property fails exactly at the steps that overtake the fence. -/
theorem run_poisoned_iff {w w' : World} {acts : List Act} (hTrace : fencedIn w.trace = w.store.fenced)
    (h : exec step w acts = some w') :
    Poisoned w'.trace ↔ Poisoned w.trace ∧ Along step (fun w act => overtakesFence w act = false) w acts := by
  induction acts generalizing w with
  | nil =>
    cases h
    simp [Along]
  | cons act rest ih =>
    obtain ⟨next, hNext, hRest⟩ := Option.bind_eq_some_iff.mp h
    obtain ⟨hTrace', hStep⟩ := step_fence hTrace hNext
    rw [ih hTrace' hRest, hStep, Along]
    constructor
    · rintro ⟨⟨hGuard, hBefore⟩, hAfter⟩
      refine ⟨hBefore, hGuard, ?_⟩
      intro other hOther
      cases hNext.symm.trans hOther
      exact hAfter
    · rintro ⟨hBefore, hGuard, hAfter⟩
      exact ⟨⟨hGuard, hBefore⟩, hAfter next hNext⟩

end World

/-- From any startup state, with any other client and any failures: nothing is put or deleted
after the fence, in this session or in one that starts with the flag, exactly when no writer
that has stopped looking at the fence goes on after it. -/
theorem poisoned_after_fence_iff (server : Server) (monitors archivedMonitors : StringMap LocalMonitor)
    (fencedFlag : Bool) (seed : Seed) (acts : List Act) (w : World)
    (hRun : exec World.step (.start server monitors archivedMonitors fencedFlag seed) acts = some w) :
    Poisoned w.trace ↔
      Along World.step (fun w act => overtakesFence w act = false)
        (.start server monitors archivedMonitors fencedFlag seed) acts := by
  have hStart : Poisoned (World.start server monitors archivedMonitors fencedFlag seed).trace := by
    rw [World.start, poisoned_cons]
    exact ⟨by simp, poisoned_nil⟩
  rw [World.run_poisoned_iff rfl hRun, and_iff_right hStart]

/-! ## A put that overtakes the fence -/

/-- Another client has written the peers and this channel's monitor. -/
def contested : World :=
  .start (Function.update (Function.update (fun _ => none) knownPeersVssKey (some (.raw [1], 1)))
    sampleKey (some (.raw [1], 1))) ∅ ∅ false ⟨fun _ => none, ∅⟩

/-- A peers write waits for its refetch while the monitor write of the channel fences. -/
def fenceActs : List Act :=
  [.call (.putLww knownPeersVssKey (.raw [2])), .resume 0 calm, .deliver 0 .ok, .resume 0 calm, .deliver 0 .ok,
   .call (.queueMonitorWrite (sampleWrite [2]) false), .resume 1 calm, .deliver 1 .ok, .resume 1 calm,
   .deliver 1 .ok, .resume 1 calm]

theorem poisoned_after_fence_iff_stops :
    ∃ w, exec World.step contested fenceActs = some w ∧
      (Poisoned w.trace ↔ Along World.step (fun w act => overtakesFence w act = false) contested fenceActs) := by
  obtain ⟨w, hRun⟩ : ∃ w, exec World.step contested fenceActs = some w := Option.isSome_iff_exists.mp (by decide)
  exact ⟨w, hRun, poisoned_after_fence_iff _ _ _ _ _ fenceActs w hRun⟩

theorem peers_put_overtakes_fence :
    ∃ w, exec World.step contested (fenceActs ++ [.resume 0 calm]) = some w ∧ ¬ Poisoned w.trace := by
  have h : (exec World.step contested (fenceActs ++ [.resume 0 calm])).map (fun w => decide (Poisoned w.trace)) =
      some false := by decide
  obtain ⟨w, hRun, hPoisoned⟩ := Option.map_eq_some_iff.mp h
  exact ⟨w, hRun, of_decide_eq_false hPoisoned⟩

end WalletCore.Vss
