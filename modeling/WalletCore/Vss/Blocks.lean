import WalletCore.Vss.System

/-! # What a task's run can do

A task keeps its kind and its key while it runs, and of the store's names, chains and files only a
monitor job touches one: its own file. The tracking set grows in two ways only: a monitor write
publishes its key once the blob is known to be on the server, and a fetched manifest is merged.
Every manifest that a task is about to put is the set of keys publishable at that moment.
-/

namespace WalletCore.Vss

open Lib

/-! ## The frame of a run -/

/-- Where a task may stand after a run. -/
inductive Task.GoesOn : Task → Task → Prop
  | monitor (write : MonitorWrite) (isNew : Bool) (phase next : MonitorPhase) :
    GoesOn (.monitor write isNew phase) (.monitor write isNew next)
  | cm (bytes : Bytes) (byTick : Bool) (phase next : CmPhase) : GoesOn (.cm bytes byTick phase) (.cm bytes byTick next)
  | write (key : String) (bytes : Bytes) (policy : WritePolicy) (phase next : WritePhase) :
    GoesOn (.write key bytes policy phase) (.write key bytes policy next)
  | delete (key : String) (started next : Option Nat) : GoesOn (.delete key started) (.delete key next)
  | archive (key : String) (phase next : OncePhase) : GoesOn (.archive key phase) (.archive key next)
  | archiveDelete (key : String) (phase : OncePhase) (version : Nat) :
    GoesOn (.archive key phase) (.archiveDelete key version)
  | backfill (phase next : OncePhase) : GoesOn (.backfill phase) (.backfill next)

namespace Store

structure Untouched (s s' : Store) : Prop where
  chains : s'.chains = s.chains
  names : s'.nameToVssKey = s.nameToVssKey
  files : s'.monitors = s.monitors

/-- What a run leaves of the chains, the names and the files, where the task goes on, and what is seen. -/
structure RunFrame (s : Store) (id : Nat) (task : Task) (block : Block) : Prop where
  chains : block.store.chains = s.chains
  names : block.store.nameToVssKey = s.nameToVssKey
  files : block.store.monitors = s.monitors ∨ ∃ write isNew phase, task = .monitor write isNew phase ∧
    block.store.monitors = s.monitors.insert write.localKey ⟨write.vssKey, write.bytes⟩
  next : ∀ next, block.next = some next → task.GoesOn next
  events : ∀ event ∈ block.events, event = .fenced ∨ ∃ write isNew phase, task = .monitor write isNew phase ∧
    (event = .wroteLocal write.localKey write.bytes ∨ event = .monitorUpdated id write isNew)

section Frame

variable {s s' : Store} {env : Env} {id : Nat} {write : MonitorWrite} {isNew : Bool} {phase : MonitorPhase}
  {task : Task}

theorem Untouched.ended (h : Untouched s s') : RunFrame s id task ⟨s', none, []⟩ :=
  ⟨h.chains, h.names, .inl h.files, by simp, by simp⟩

theorem Untouched.goesOn (h : Untouched s s') {next : Task} (hNext : task.GoesOn next) :
    RunFrame s id task ⟨s', some next, []⟩ := by
  refine ⟨h.chains, h.names, .inl h.files, fun other hOther => ?_, by simp⟩
  rwa [← Option.some.inj hOther]

theorem Untouched.tripFence (h : Untouched s s') (flagOk : Bool) :
    RunFrame s id task ⟨s'.tripFence flagOk, none, s'.tripFenceEvents⟩ := by
  rw [Store.tripFence, tripFenceEvents]
  split <;> exact ⟨h.chains, h.names, .inl h.files, by simp, by simp⟩

theorem Untouched.localWriteWithRetry (h : Untouched s s') :
    RunFrame s id (.monitor write isNew phase) (s'.localWriteWithRetry env id write isNew) := by
  rw [Store.localWriteWithRetry]
  split
  · refine ⟨h.chains, h.names, .inr ⟨write, isNew, phase, rfl, ?_⟩, by simp, ?_⟩
    · rw [← h.files]
      rfl
    · intro event hEvent
      refine .inr ⟨write, isNew, phase, rfl, ?_⟩
      rcases List.mem_cons.mp hEvent with hLocal | hSignal
      · exact .inl hLocal
      · split at hSignal
        · exact .inr (List.mem_singleton.mp hSignal)
        · cases hSignal
  · exact h.goesOn (.monitor ..)

theorem Untouched.writeManifestWithRetryLocked (h : Untouched s s') :
    RunFrame s id (.monitor write isNew phase) (s'.writeManifestWithRetryLocked env id write isNew) := by
  have hUnlocked : Untouched s s'.unlockManifest := ⟨h.chains, h.names, h.files⟩
  rw [Store.writeManifestWithRetryLocked]
  split
  · exact hUnlocked.ended
  · split
    · exact hUnlocked.localWriteWithRetry
    · exact h.goesOn (.monitor ..)

theorem Untouched.blobStored (h : Untouched s s') :
    RunFrame s id (.monitor write isNew phase) (s'.blobStored env id write isNew) := by
  have hMarked : Untouched s (s'.markPublishable write.vssKey) := ⟨h.chains, h.names, h.files⟩
  rw [Store.blobStored]
  split
  · exact hMarked.goesOn (.monitor ..)
  · exact hMarked.localWriteWithRetry

theorem Untouched.putFundCritical (h : Untouched s s') :
    RunFrame s id (.monitor write isNew phase) (s'.putFundCritical write isNew) := by
  rw [Store.putFundCritical]
  split
  · exact h.ended
  · exact h.goesOn (.monitor ..)

theorem Untouched.mergeManifest (h : Untouched s s') (bytes : Bytes) : Untouched s (s'.mergeManifest bytes) := by
  rw [Store.mergeManifest]
  split
  · exact ⟨h.chains, h.names, h.files⟩
  · exact h

theorem Untouched.manifestRound (h : Untouched s s') (round : Nat) : Untouched s (s'.manifestRound round).1 := by
  rw [Store.manifestRound]
  split
  · exact ⟨h.chains, h.names, h.files⟩
  · split
    · split <;> exact ⟨h.chains, h.names, h.files⟩
    · exact h

theorem untouched_onceBestEffort {phase : OncePhase} {answer : Option Answer} {result : Store × Option OncePhase}
    (h : s.writeManifestOnceBestEffort phase answer = some result) : Untouched s result.1 := by
  rw [writeManifestOnceBestEffort.eq_def] at h
  split at h
  case h_2 =>
    split at h
    · cases h
    · cases h
      apply Untouched.manifestRound
      exact ⟨rfl, rfl, rfl⟩
  all_goals cases h
  all_goals first
    | exact ⟨rfl, rfl, rfl⟩
    | apply Untouched.manifestRound; exact ⟨rfl, rfl, rfl⟩
    | apply Untouched.manifestRound; apply Untouched.mergeManifest; exact ⟨rfl, rfl, rfl⟩

theorem runMonitorJob_frame {answer : Option Answer} {block : Block}
    (h : s.runMonitorJob env id write isNew phase answer = some block) :
    RunFrame s id (.monitor write isNew phase) block := by
  have hSame : Untouched s s := ⟨rfl, rfl, rfl⟩
  have hRecorded : ∀ key version, Untouched s (s.recordVersion key version) := fun _ _ => ⟨rfl, rfl, rfl⟩
  rw [runMonitorJob.eq_def] at h
  split at h <;> (try split at h) <;> cases h
  all_goals first
    | exact hSame.goesOn (.monitor ..)
    | exact (hRecorded _ _).goesOn (.monitor ..)
    | exact hSame.putFundCritical
    | exact (hRecorded _ _).blobStored
    | exact (hRecorded _ _).tripFence _
    | exact hSame.localWriteWithRetry
    | exact hSame.writeManifestWithRetryLocked
    | exact (hRecorded _ _).writeManifestWithRetryLocked
    | exact ((hRecorded _ _).mergeManifest _).writeManifestWithRetryLocked
    | apply Untouched.localWriteWithRetry; exact ⟨rfl, rfl, rfl⟩
    | apply Untouched.writeManifestWithRetryLocked; exact ⟨rfl, rfl, rfl⟩

theorem resume_frame {answer : Option Answer} {block : Block} (h : s.resume env id task answer = some block) :
    RunFrame s id task block := by
  cases task with
  | monitor write isNew phase => exact runMonitorJob_frame h
  | cm bytes byTick phase =>
    rw [resume, cmRemoteAttempt.eq_def] at h
    split at h <;> (try split at h) <;> cases h
    all_goals first
      | apply Untouched.ended; exact ⟨rfl, rfl, rfl⟩
      | apply Untouched.tripFence; exact ⟨rfl, rfl, rfl⟩
      | exact Untouched.goesOn ⟨rfl, rfl, rfl⟩ (.cm ..)
  | write key bytes policy phase =>
    obtain ⟨⟨recorded, next⟩, -, rfl⟩ := Option.map_eq_some_iff.mp h
    have hRecorded : Untouched s (s.recordSome key recorded) := by
      cases recorded <;> exact ⟨rfl, rfl, rfl⟩
    cases next with
    | none => exact hRecorded.ended
    | some next => exact hRecorded.goesOn (.write ..)
  | delete key started =>
    rw [resume, runDelete.eq_def] at h
    split at h <;> cases h
    · split
      · exact Untouched.ended ⟨rfl, rfl, rfl⟩
      · exact Untouched.goesOn ⟨rfl, rfl, rfl⟩ (.delete ..)
    · apply Untouched.ended
      exact ⟨rfl, rfl, rfl⟩
  | archive key phase =>
    obtain ⟨result, hResult, rfl⟩ := Option.map_eq_some_iff.mp h
    have hSame := untouched_onceBestEffort hResult
    split
    · exact hSame.goesOn (.archive ..)
    · split
      · exact hSame.ended
      · exact hSame.goesOn (.archiveDelete ..)
  | archiveDelete key version =>
    rw [resume, finishArchive.eq_def] at h
    split at h <;> cases h
    all_goals
      apply Untouched.ended
      exact ⟨rfl, rfl, rfl⟩
  | backfill phase =>
    obtain ⟨⟨after, next⟩, hResult, rfl⟩ := Option.map_eq_some_iff.mp h
    have hSame := untouched_onceBestEffort hResult
    cases next with
    | none => exact hSame.ended
    | some next => exact hSame.goesOn (.backfill ..)
  | fetch key =>
    rw [resume, fetchVersioned.eq_def] at h
    split at h <;> cases h
    all_goals
      apply Untouched.ended
      exact ⟨rfl, rfl, rfl⟩

end Frame

end Store

/-! ## The tracking set -/

def Store.Publishes (s : Store) (key : String) : Prop := s.monitorKeys.lookup key = some .publishable

/-- The tracking set before and after a run of the task that saw the answer. -/
inductive KeyMove (keys : MonitorKeySet) : Task → Option Answer → MonitorKeySet → Prop
  | kept (task : Task) (answer : Option Answer) : KeyMove keys task answer keys
  | stored (write : MonitorWrite) (isNew : Bool) (version new : Nat) :
    KeyMove keys (.monitor write isNew (.put version)) (some (.putOk new)) (keys.markPublishable write.vssKey)
  | identical (write : MonitorWrite) (isNew : Bool) (version : Nat) :
    KeyMove keys (.monitor write isNew .refetch) (some (.found write.bytes version))
      (keys.markPublishable write.vssKey)
  | merged (task : Task) (bytes : Bytes) (version : Nat) (parsed : List String)
    (hTask : task.request = some (.get monitorManifestKey)) (hParsed : parseMonitorManifest bytes = .ok parsed) :
    KeyMove keys task (some (.found bytes version)) (keys.extendPublishable parsed)

theorem KeyMove.publishes_mono {keys keys' : MonitorKeySet} {task : Task} {answer : Option Answer}
    (h : KeyMove keys task answer keys') {key : String} (hKey : keys.lookup key = some .publishable) :
    keys'.lookup key = some .publishable := by
  cases h with
  | kept => exact hKey
  | stored write isNew version new =>
    rw [MonitorKeySet.lookup_markPublishable]
    split
    · rfl
    · exact hKey
  | identical write isNew version =>
    rw [MonitorKeySet.lookup_markPublishable]
    split
    · rfl
    · exact hKey
  | merged bytes version parsed hTask hParsed =>
    rw [MonitorKeySet.lookup_extendPublishable]
    split
    · rfl
    · exact hKey

/-- A key that is publishable afterwards was so before, or the task has seen its blob or a manifest with it. -/
theorem KeyMove.publishes_cases {keys keys' : MonitorKeySet} {task : Task} {answer : Option Answer}
    (h : KeyMove keys task answer keys') {key : String} (hKey : keys'.lookup key = some .publishable) :
    keys.lookup key = some .publishable ∨
    (∃ write isNew version new, task = .monitor write isNew (.put version) ∧ answer = some (.putOk new) ∧
      key = write.vssKey) ∨
    (∃ write isNew version, task = .monitor write isNew .refetch ∧ answer = some (.found write.bytes version) ∧
      key = write.vssKey) ∨
    ∃ bytes version parsed, task.request = some (.get monitorManifestKey) ∧ answer = some (.found bytes version) ∧
      parseMonitorManifest bytes = .ok parsed ∧ key ∈ parsed := by
  cases h with
  | kept => exact .inl hKey
  | stored write isNew version new =>
    rw [MonitorKeySet.lookup_markPublishable] at hKey
    split at hKey
    · next hSame => exact .inr (.inl ⟨write, isNew, version, new, rfl, rfl, hSame⟩)
    · exact .inl hKey
  | identical write isNew version =>
    rw [MonitorKeySet.lookup_markPublishable] at hKey
    split at hKey
    · next hSame => exact .inr (.inr (.inl ⟨write, isNew, version, rfl, rfl, hSame⟩))
    · exact .inl hKey
  | merged _ bytes version parsed hTask hParsed =>
    rw [MonitorKeySet.lookup_extendPublishable] at hKey
    split at hKey
    · next hMem => exact .inr (.inr (.inr ⟨bytes, version, parsed, hTask, rfl, hParsed, hMem⟩))
    · exact .inl hKey

/-- The payload of a manifest put that the task waits for. -/
def Task.pendingManifest : Task → Option Bytes
  | .monitor _ _ (.manifestPut payload _) => some payload
  | .archive _ (.put _ payload _) => some payload
  | .backfill (.put _ payload _) => some payload
  | _ => none

namespace Store

theorem mergeManifest_keyMove (s : Store) {task : Task} (bytes : Bytes) (version : Nat)
    (hTask : task.request = some (.get monitorManifestKey)) :
    KeyMove s.monitorKeys task (some (.found bytes version)) (s.mergeManifest bytes).monitorKeys := by
  rw [mergeManifest]
  split
  · rename_i parsed hParsed
    exact .merged task bytes version parsed hTask hParsed
  · exact .kept ..

theorem localWriteWithRetry_monitorKeys (s : Store) (env : Env) (id : Nat) (write : MonitorWrite) (isNew : Bool) :
    (s.localWriteWithRetry env id write isNew).store.monitorKeys = s.monitorKeys := by
  rw [localWriteWithRetry]
  split <;> rfl

theorem writeManifestWithRetryLocked_monitorKeys (s : Store) (env : Env) (id : Nat) (write : MonitorWrite)
    (isNew : Bool) : (s.writeManifestWithRetryLocked env id write isNew).store.monitorKeys = s.monitorKeys := by
  rw [writeManifestWithRetryLocked]
  split
  · rfl
  · split
    · exact localWriteWithRetry_monitorKeys ..
    · rfl

theorem blobStored_monitorKeys (s : Store) (env : Env) (id : Nat) (write : MonitorWrite) (isNew : Bool) :
    (s.blobStored env id write isNew).store.monitorKeys = s.monitorKeys.markPublishable write.vssKey := by
  rw [blobStored]
  split
  · rfl
  · exact localWriteWithRetry_monitorKeys ..

theorem tripFence_monitorKeys (s : Store) (flagOk : Bool) : (s.tripFence flagOk).monitorKeys = s.monitorKeys := by
  rw [tripFence]
  split <;> rfl

theorem putFundCritical_store (s : Store) (write : MonitorWrite) (isNew : Bool) :
    (s.putFundCritical write isNew).store = s := by
  rw [putFundCritical]
  split <;> rfl

theorem manifestRound_monitorKeys (s : Store) (round : Nat) :
    (s.manifestRound round).1.monitorKeys = s.monitorKeys := by
  rw [manifestRound]
  split
  · rfl
  · split
    · split <;> rfl
    · rfl

theorem runMonitorJob_keyMove {s : Store} {env : Env} {id : Nat} {write : MonitorWrite} {isNew : Bool}
    {phase : MonitorPhase} {answer : Option Answer} {block : Block}
    (h : s.runMonitorJob env id write isNew phase answer = some block) :
    KeyMove s.monitorKeys (.monitor write isNew phase) answer block.store.monitorKeys := by
  rw [runMonitorJob.eq_def] at h
  split at h
  case h_2 =>
    cases h
    rw [blobStored_monitorKeys]
    exact .stored ..
  case h_5 bytes version =>
    split at h
    · rename_i hSame
      subst hSame
      cases h
      rw [blobStored_monitorKeys]
      exact .identical ..
    · cases h
      rw [tripFence_monitorKeys]
      exact .kept ..
  case h_13 bytes version =>
    cases h
    rw [writeManifestWithRetryLocked_monitorKeys]
    exact mergeManifest_keyMove (s.recordVersion monitorManifestKey version) bytes version rfl
  all_goals (try split at h) <;> cases h
  all_goals simp only [putFundCritical_store, localWriteWithRetry_monitorKeys,
    writeManifestWithRetryLocked_monitorKeys, recordVersion_monitorKeys, unlockManifest_monitorKeys,
    lockManifest_monitorKeys]
  all_goals exact .kept ..

theorem writeManifestOnceBestEffort_keyMove {s : Store} {phase : OncePhase} {answer : Option Answer}
    {result : Store × Option OncePhase} (h : s.writeManifestOnceBestEffort phase answer = some result)
    {task : Task} (hTask : task.request = phase.request) :
    KeyMove s.monitorKeys task answer result.1.monitorKeys := by
  rw [writeManifestOnceBestEffort.eq_def] at h
  split at h
  case h_6 round bytes version =>
    cases h
    rw [manifestRound_monitorKeys]
    exact mergeManifest_keyMove (s.recordVersion monitorManifestKey version) bytes version hTask
  all_goals (try split at h) <;> cases h
  all_goals (try rw [manifestRound_monitorKeys])
  all_goals exact .kept ..

theorem resume_keyMove {s : Store} {env : Env} {id : Nat} {task : Task} {answer : Option Answer} {block : Block}
    (h : s.resume env id task answer = some block) :
    KeyMove s.monitorKeys task answer block.store.monitorKeys := by
  cases task with
  | monitor write isNew phase => exact runMonitorJob_keyMove h
  | cm bytes byTick phase =>
    rw [resume, cmRemoteAttempt.eq_def] at h
    split at h <;> (try split at h) <;> cases h
    all_goals (try rw [tripFence_monitorKeys])
    all_goals exact .kept ..
  | write key bytes policy phase =>
    obtain ⟨result, -, rfl⟩ := Option.map_eq_some_iff.mp h
    cases result.1 <;> exact .kept ..
  | delete key started =>
    rw [resume, runDelete.eq_def] at h
    split at h <;> cases h <;> exact .kept ..
  | archive key phase =>
    obtain ⟨result, hResult, rfl⟩ := Option.map_eq_some_iff.mp h
    have hMove := writeManifestOnceBestEffort_keyMove hResult (show (Task.archive key phase).request = _ from rfl)
    split
    · exact hMove
    · split <;> exact hMove
  | archiveDelete key version =>
    rw [resume, finishArchive.eq_def] at h
    split at h <;> cases h <;> exact .kept ..
  | backfill phase =>
    obtain ⟨result, hResult, rfl⟩ := Option.map_eq_some_iff.mp h
    exact writeManifestOnceBestEffort_keyMove hResult rfl
  | fetch key =>
    rw [resume, fetchVersioned.eq_def] at h
    split at h <;> cases h <;> exact .kept ..

/-! ## Pending manifests -/

/-- Where the task goes next, it does not wait with a manifest other than the current one. -/
def PendingCurrent (block : Block) : Prop :=
  ∀ payload, block.next.bind Task.pendingManifest = some payload →
    payload = manifestPayload block.store.monitorKeys.publishable

/-- The same, and there is something to publish. -/
def PendingFresh (block : Block) : Prop :=
  ∀ payload, block.next.bind Task.pendingManifest = some payload →
    payload = manifestPayload block.store.monitorKeys.publishable ∧ block.store.monitorKeys.publishable ≠ []

theorem localWriteWithRetry_pending (s : Store) (env : Env) (id : Nat) (write : MonitorWrite) (isNew : Bool) :
    PendingFresh (s.localWriteWithRetry env id write isNew) := by
  rw [localWriteWithRetry]
  split <;> simp [PendingFresh, Task.pendingManifest]

theorem writeManifestWithRetryLocked_pending (s : Store) (env : Env) (id : Nat) (write : MonitorWrite)
    (isNew : Bool) : PendingFresh (s.writeManifestWithRetryLocked env id write isNew) := by
  rw [writeManifestWithRetryLocked]
  split
  · simp [PendingFresh]
  · split
    · exact localWriteWithRetry_pending _ _ _ _ _
    · rename_i hSome
      intro payload hPayload
      cases hPayload
      exact ⟨rfl, fun hNil => hSome (by rw [hNil]; rfl)⟩

theorem blobStored_pending (s : Store) (env : Env) (id : Nat) (write : MonitorWrite) (isNew : Bool) :
    PendingFresh (s.blobStored env id write isNew) := by
  rw [blobStored]
  split
  · simp [PendingFresh, Task.pendingManifest]
  · exact localWriteWithRetry_pending _ _ _ _ _

theorem runMonitorJob_pending {s : Store} {env : Env} {id : Nat} {write : MonitorWrite} {isNew : Bool}
    {phase : MonitorPhase} {answer : Option Answer} {block : Block}
    (h : s.runMonitorJob env id write isNew phase answer = some block) : PendingFresh block := by
  have hPut : PendingFresh (s.putFundCritical write isNew) := by
    rw [putFundCritical]
    split <;> simp [PendingFresh, Task.pendingManifest]
  rw [runMonitorJob.eq_def] at h
  split at h <;> (try split at h) <;> cases h
  all_goals first
    | exact hPut
    | exact blobStored_pending _ _ _ _ _
    | exact localWriteWithRetry_pending _ _ _ _ _
    | exact writeManifestWithRetryLocked_pending _ _ _ _ _
    | simp [PendingFresh, Task.pendingManifest]

theorem manifestRound_pending (s : Store) (round : Nat) {round' version : Nat} {payload : Bytes}
    (h : (s.manifestRound round).2 = some (.put round' payload version)) :
    payload = manifestPayload (s.manifestRound round).1.monitorKeys.publishable ∧
      (s.manifestRound round).1.monitorKeys.publishable ≠ [] := by
  rw [manifestRound_monitorKeys]
  rw [manifestRound] at h
  split at h
  · cases h
  · split at h
    · split at h <;> cases h
    · rename_i hSome
      cases h
      exact ⟨rfl, fun hNil => hSome (by rw [hNil]; rfl)⟩

theorem writeManifestOnceBestEffort_pending {s : Store} {phase : OncePhase} {answer : Option Answer}
    {result : Store × Option OncePhase} (h : s.writeManifestOnceBestEffort phase answer = some result)
    {round version : Nat} {payload : Bytes} (hNext : result.2 = some (.put round payload version)) :
    payload = manifestPayload result.1.monitorKeys.publishable ∧ result.1.monitorKeys.publishable ≠ [] := by
  rw [writeManifestOnceBestEffort.eq_def] at h
  split at h
  case h_1 =>
    cases h
    simp only at hNext
    split at hNext <;> cases hNext
  case h_2 =>
    split at h
    · cases h
    · cases h
      exact manifestRound_pending _ _ hNext
  case h_6 =>
    cases h
    exact manifestRound_pending _ _ hNext
  case h_7 =>
    cases h
    exact manifestRound_pending _ _ hNext
  all_goals cases h
  all_goals cases hNext

theorem resume_pendingFresh {s : Store} {env : Env} {id : Nat} {task : Task} {answer : Option Answer} {block : Block}
    (h : s.resume env id task answer = some block) : PendingFresh block := by
  cases task with
  | monitor write isNew phase => exact runMonitorJob_pending h
  | cm bytes byTick phase =>
    rw [resume, cmRemoteAttempt.eq_def] at h
    split at h <;> (try split at h) <;> cases h <;> simp [PendingFresh, Task.pendingManifest]
  | write key bytes policy phase =>
    obtain ⟨result, -, rfl⟩ := Option.map_eq_some_iff.mp h
    cases hNext : result.2 <;> simp [PendingFresh, Task.pendingManifest]
  | delete key started =>
    rw [resume, runDelete.eq_def] at h
    split at h <;> cases h
    · simp only [PendingFresh]
      split <;> simp [Task.pendingManifest]
    · simp [PendingFresh]
  | archive key phase =>
    obtain ⟨result, hResult, rfl⟩ := Option.map_eq_some_iff.mp h
    split
    · rename_i next hPhase
      intro payload hPayload
      cases next <;> cases hPayload
      exact writeManifestOnceBestEffort_pending hResult hPhase
    · split <;> simp [PendingFresh, Task.pendingManifest]
  | archiveDelete key version =>
    rw [resume, finishArchive.eq_def] at h
    split at h <;> cases h <;> simp [PendingFresh]
  | backfill phase =>
    obtain ⟨result, hResult, rfl⟩ := Option.map_eq_some_iff.mp h
    intro payload hPayload
    cases hPhase : result.2 with
    | none => simp [hPhase] at hPayload
    | some next =>
      simp only [hPhase, Option.map_some, Option.bind_some] at hPayload
      cases next <;> cases hPayload
      exact writeManifestOnceBestEffort_pending hResult hPhase
  | fetch key =>
    rw [resume, fetchVersioned.eq_def] at h
    split at h <;> cases h <;> simp [PendingFresh]

theorem resume_pending {s : Store} {env : Env} {id : Nat} {task : Task} {answer : Option Answer} {block : Block}
    (h : s.resume env id task answer = some block) : PendingCurrent block :=
  fun payload hPayload => (resume_pendingFresh h payload hPayload).1

/-! ## Calls -/

theorem noteMonitor_publishes (s : Store) (write : MonitorWrite) (isNew : Bool) (key : String) :
    (s.noteMonitor write isNew).Publishes key ↔ s.Publishes key := by
  rw [Publishes, noteMonitor_monitorKeys]
  split
  · exact MonitorKeySet.lookup_insertUnverified
  · rfl

theorem startCmAttempt_monitorKeys (s : Store) (bytes : Bytes) (byTick : Bool) :
    (s.startCmAttempt bytes byTick).store.monitorKeys = s.monitorKeys := by
  rw [startCmAttempt]
  split <;> rfl

/-- A call publishes nothing, and only an archive takes a key back. -/
theorem call_publishes (s : Store) (id : Nat) (call : Call) (key : String) :
    ((s.call id call).store.Publishes key → s.Publishes key) ∧
      (s.Publishes key → (s.call id call).store.Publishes key ∨ .archived key ∈ (s.call id call).events) := by
  have hSame : ∀ s' : Store, s'.monitorKeys = s.monitorKeys → (s'.Publishes key ↔ s.Publishes key) := by
    intro s' h
    rw [Publishes, Publishes, h]
  have hKept : ∀ s' : Store, (s'.Publishes key ↔ s.Publishes key) → ∀ events : List Event,
      (s'.Publishes key → s.Publishes key) ∧ (s.Publishes key → s'.Publishes key ∨ .archived key ∈ events) :=
    fun s' h events => ⟨h.mp, fun hKey => .inl (h.mpr hKey)⟩
  cases call with
  | queueMonitorWrite write isNew =>
    rw [call, queueMonitorWrite]
    split <;> exact hKept _ (noteMonitor_publishes s write isNew key) _
  | cmRemoteWriteBounded bytes =>
    rw [call, cmRemoteWriteBounded]
    split
    · exact hKept _ Iff.rfl _
    · exact hKept _ (hSame _ (startCmAttempt_monitorKeys ..)) _
  | cmRetryPending =>
    rw [call, cmRetryPending]
    split
    · exact hKept _ Iff.rfl _
    · exact hKept _ (hSame _ (startCmAttempt_monitorKeys ..)) _
  | archiveMonitor name localOk =>
    simp only [call, archiveMonitor]
    split
    · exact hKept _ (hSame _ (archiveLocal_monitorKeys ..)) _
    · rename_i archived hName
      have hForget : ∀ s' : Store, s'.monitorKeys = (s.archiveLocal name localOk).monitorKeys.remove archived →
          (s'.Publishes key → s.Publishes key) ∧ (s.Publishes key → s'.Publishes key ∨ key = archived) := by
        intro s' h
        rw [Publishes, Publishes, h, MonitorKeySet.lookup_remove, archiveLocal_monitorKeys]
        split <;> simp [*]
      split
      · simpa [returned] using hForget _ rfl
      · simpa [spawn] using hForget _ rfl
  | backfillManifestIfNeeded =>
    rw [call, backfillManifestIfNeeded]
    split <;> exact hKept _ Iff.rfl _
  | putLww | putWithMerge | deleteBestEffort | fetchVersioned => exact hKept _ Iff.rfl _

/-- A call leaves a monitor write in its chain, and every other task without a manifest. -/
theorem call_next (s : Store) (id : Nat) (call : Call) :
    (∃ write isNew, (s.call id call).next = some (.monitor write isNew .queued) ∧
      (s.call id call).events = [.queued id write isNew]) ∨
    (∀ write isNew phase, (s.call id call).next ≠ some (.monitor write isNew phase)) ∧
      (s.call id call).next.bind Task.pendingManifest = none ∧
      ∀ id' write isNew, .monitorUpdated id' write isNew ∉ (s.call id call).events := by
  cases call with
  | queueMonitorWrite write isNew =>
    rw [call, queueMonitorWrite]
    split
    · exact .inr (by simp [returned])
    · exact .inl ⟨write, isNew, rfl, rfl⟩
  | cmRemoteWriteBounded bytes =>
    rw [call, cmRemoteWriteBounded]
    split
    · exact .inr (by simp [returned])
    · rw [startCmAttempt]
      split <;> exact .inr (by simp [returned, spawn, Task.pendingManifest])
  | cmRetryPending =>
    rw [call, cmRetryPending]
    split
    · exact .inr (by simp [returned])
    · rw [startCmAttempt]
      split <;> exact .inr (by simp [returned, spawn, Task.pendingManifest])
  | archiveMonitor name localOk =>
    simp only [call, archiveMonitor]
    split
    · exact .inr (by simp [returned])
    · split <;> exact .inr (by simp [returned, spawn, Task.pendingManifest])
  | backfillManifestIfNeeded =>
    rw [call, backfillManifestIfNeeded]
    split <;> exact .inr (by simp [returned, spawn, Task.pendingManifest])
  | putLww | putWithMerge | deleteBestEffort | fetchVersioned =>
    exact .inr (by simp [call, enqueue, spawn, Task.pendingManifest])

end Store

end WalletCore.Vss
