import WalletCore.Restore.Plan
import WalletCore.Vss.Durability
import WalletCore.Vss.ManifestSound

/-! # Whether the remote backup boots

A monitor's completion waits for its blob and, for a new channel, for the manifest. The channel
manager is written by a single bounded attempt whose bytes are kept for the next tick when it fails,
and nothing waits for that. A backup with monitors and without a manager is refused by every restore.
-/

namespace WalletCore.Vss

open Lib Restore

/-! ## The backup -/

def Event.isReport : Event → Bool
  | .monitorUpdated .. => true
  | _ => false

/-- A monitor completion was signalled. -/
def World.reported (w : World) : Bool := w.trace.any Event.isReport

/-- The server holds a monitor blob or a manifest that lists one. -/
def BacksUp (server : Server) : Prop :=
  (∃ key, isValidMonitorKey key = true ∧ (server key).isSome = true) ∨ remoteManifest server ≠ []

/-- The answers that another device gets from the server. -/
def Reads (transport : Transport) (server : Server) : Prop := ∀ key, transport.get key = .ok (server key)

/-- Once a completion was signalled, a backup that is there holds the channel manager, and no
restore misses it. -/
def Bootable (w : World) : Prop :=
  w.reported = true → BacksUp w.server →
    (w.server channelManagerVssKey).isSome = true ∧
      ∀ transport stack manifest, Reads transport w.server →
        downloadAndValidate transport stack manifest ≠ .error (.backupInconsistent .managerMissing)

/-! ## One client, and the manager before the monitors -/

/-- What one client does. The program deletes no fixed key but that of the recovery state. -/
def ownAct : Act → Bool
  | .call (.deleteBestEffort key) => key != channelManagerVssKey
  | .foreign .. => false
  | _ => true

/-- The local write succeeds, and someone hears of it. -/
def Env.reports (env : Env) : Bool := env.localOk && env.sinkAlive

/-- The gate has no key to publish. -/
def Store.skipsManifest (s : Store) : Bool := !s.fenced && s.monitorKeys.publishable.isEmpty

/-- The task, if it runs now, comes to the end of a monitor job. -/
def Task.reports (s : Store) (env : Env) : Task → Option Answer → Bool
  | .monitor _ isNew (.put _), some (.putOk _) => !isNew && env.reports
  | .monitor job isNew .refetch, some (.found bytes _) => bytes = job.bytes && !isNew && env.reports
  | .monitor _ _ .manifestLock, none => !s.manifestLock && s.skipsManifest && env.reports
  | .monitor _ _ (.manifestPut ..), some (.putOk _) => env.reports
  | .monitor _ _ .manifestRefetch, some (.found bytes version) =>
    ((s.recordVersion monitorManifestKey version).mergeManifest bytes).skipsManifest && env.reports
  | .monitor _ _ .manifestRefetch, some .missing => s.skipsManifest && env.reports
  | .monitor _ _ .manifestSleep, none => s.skipsManifest && env.reports
  | .monitor _ _ .localSleep, none => env.reports
  | _, _ => false

/-- The act lets a task come to the end of a monitor job. -/
def World.endsJob (w : World) : Act → Bool
  | .resume id env => (w.slots id).any fun slot => slot.task.reports w.store env slot.answer
  | _ => false

def Request.putsManager (server : Server) : Request → Bool
  | .put key _ version => key == channelManagerVssKey && server.version key == version
  | _ => false

/-- A put of the channel manager takes effect, whatever becomes of its answer. -/
def World.writesManager (w : World) : Act → Bool
  | .deliver id delivery =>
    delivery != .failed && (w.slots id).any fun slot => slot.task.request.any (Request.putsManager w.server)
  | _ => false

/-- No monitor job ends before the first put of the channel manager takes effect. -/
def ManagerFirst : World → List Act → Prop
  | _, [] => True
  | w, act :: rest =>
    w.writesManager act = true ∨ w.endsJob act = false ∧ ∀ w', w.step act = some w' → ManagerFirst w' rest

instance decidableManagerFirst : (w : World) → (acts : List Act) → Decidable (ManagerFirst w acts)
  | _, [] => isTrue trivial
  | w, act :: rest =>
    match hStep : w.step act with
    | none => decidable_of_iff (w.writesManager act = true ∨ w.endsJob act = false) (by simp [ManagerFirst, hStep])
    | some w' =>
      have : Decidable (ManagerFirst w' rest) := decidableManagerFirst w' rest
      decidable_of_iff (w.writesManager act = true ∨ w.endsJob act = false ∧ ManagerFirst w' rest)
        (by simp [ManagerFirst, hStep])

/-! ## The end of a monitor job -/

namespace Store

variable {s : Store} {env : Env} {id : Nat} {write : MonitorWrite} {isNew : Bool}

theorem localWriteWithRetry_reports (s : Store) (env : Env) (id : Nat) (write : MonitorWrite) (isNew : Bool) :
    (s.localWriteWithRetry env id write isNew).events.any Event.isReport = env.reports := by
  rw [localWriteWithRetry, Env.reports]
  cases env.localOk with
  | false => rfl
  | true => cases hSink : env.sinkAlive <;> simp [Event.isReport]

theorem writeManifestWithRetryLocked_reports (s : Store) (env : Env) (id : Nat) (write : MonitorWrite)
    (isNew : Bool) :
    (s.writeManifestWithRetryLocked env id write isNew).events.any Event.isReport =
      (s.skipsManifest && env.reports) := by
  rw [writeManifestWithRetryLocked, skipsManifest]
  cases s.fenced with
  | true => rfl
  | false =>
    cases hEmpty : s.monitorKeys.publishable.isEmpty with
    | true =>
      rw [if_neg (by simp), if_pos rfl, localWriteWithRetry_reports]
      rfl
    | false => rfl

theorem blobStored_reports (s : Store) (env : Env) (id : Nat) (write : MonitorWrite) (isNew : Bool) :
    (s.blobStored env id write isNew).events.any Event.isReport = (!isNew && env.reports) := by
  rw [blobStored]
  cases isNew with
  | true => rfl
  | false => exact localWriteWithRetry_reports ..

theorem tripFenceEvents_reports (s : Store) : s.tripFenceEvents.any Event.isReport = false := by
  rw [tripFenceEvents]
  split <;> rfl

theorem putFundCritical_reports (s : Store) (write : MonitorWrite) (isNew : Bool) :
    (s.putFundCritical write isNew).events.any Event.isReport = false := by
  rw [putFundCritical]
  split <;> rfl

theorem runMonitorJob_reports {phase : MonitorPhase} {answer : Option Answer} {block : Block}
    (h : s.runMonitorJob env id write isNew phase answer = some block) :
    block.events.any Event.isReport = (Task.monitor write isNew phase).reports s env answer := by
  rw [runMonitorJob.eq_def] at h
  split at h
  · cases h
    exact putFundCritical_reports ..
  · cases h
    exact blobStored_reports ..
  · cases h
    rfl
  · cases h
    rename_i answer hNotOk hNotConflict
    cases answer <;> first | exact absurd rfl (hNotOk _) | rfl
  · split at h
    · rename_i hSame
      cases h
      simp only [Task.reports, hSame, decide_true, Bool.true_and]
      exact blobStored_reports ..
    · rename_i hOther
      cases h
      simp only [Task.reports, hOther, decide_false, Bool.false_and]
      exact tripFenceEvents_reports ..
  · cases h
    rfl
  · cases h
    rename_i answer hNotFound hNotMissing
    cases answer <;> first | exact absurd rfl (hNotFound _ _) | rfl
  · cases h
    exact putFundCritical_reports ..
  · split at h
    · cases h
    · rename_i hFree
      cases h
      simp only [Task.reports, hFree, Bool.not_false, Bool.true_and]
      exact writeManifestWithRetryLocked_reports ..
  · cases h
    exact localWriteWithRetry_reports ..
  · cases h
    rfl
  · cases h
    rename_i answer hNotOk hNotConflict
    cases answer <;> first | exact absurd rfl (hNotOk _) | rfl
  · cases h
    exact writeManifestWithRetryLocked_reports ..
  · cases h
    exact writeManifestWithRetryLocked_reports ..
  · cases h
    rename_i answer hNotFound hNotMissing
    cases answer <;> first | exact absurd rfl (hNotFound _ _) | exact absurd rfl hNotMissing | rfl
  · cases h
    exact writeManifestWithRetryLocked_reports ..
  · cases h
    exact localWriteWithRetry_reports ..
  · cases h

theorem resume_reports {task : Task} {answer : Option Answer} {block : Block}
    (h : s.resume env id task answer = some block) :
    block.events.any Event.isReport = task.reports s env answer := by
  by_cases hMonitor : ∃ write isNew phase, task = .monitor write isNew phase
  · obtain ⟨write, isNew, phase, rfl⟩ := hMonitor
    exact runMonitorJob_reports h
  · simp only [not_exists] at hMonitor
    have hQuiet : block.events.any Event.isReport = false := by
      rw [List.any_eq_false]
      intro event hEvent
      cases event with
      | monitorUpdated id' write isNew => exact absurd hEvent ((resume_other hMonitor h).2 id' write isNew)
      | session | queued | archived | started | stored | fetched | wroteLocal | fenced => simp [Event.isReport]
    rw [hQuiet]
    cases task with
    | monitor write isNew phase => exact absurd rfl (hMonitor write isNew phase)
    | cm | write | delete | archive | archiveDelete | backfill | fetch => rfl

end Store

/-! ## The channel manager is never deleted -/

/-- The task deletes no channel manager. -/
def Task.sparesManager : Task → Bool
  | .delete key _ | .archive key _ | .archiveDelete key _ => key != channelManagerVssKey
  | _ => true

structure ManagerInv (w : World) : Prop where
  names : ∀ name key, w.store.nameToVssKey.lookup name = some key → key ≠ channelManagerVssKey
  files : ∀ name file, w.store.monitors.lookup name = some file → file.vssKey ≠ channelManagerVssKey
  tasks : ∀ id slot, w.slots id = some slot → slot.task.sparesManager = true

theorem Task.GoesOn.sparesManager {task next : Task} (h : task.GoesOn next) (hTask : task.sparesManager = true) :
    next.sparesManager = true := by
  cases h with
  | monitor | cm | write | backfill => rfl
  | delete | archive | archiveDelete => exact hTask

/-- What a call of the client brings into the names, the files and the tasks. -/
structure CallKept (s : Store) (called : Called) : Prop where
  names : ∀ name key, called.store.nameToVssKey.lookup name = some key →
    s.nameToVssKey.lookup name = some key ∨ isValidMonitorKey key = true
  files : ∀ name file, called.store.monitors.lookup name = some file → s.monitors.lookup name = some file
  next : ∀ next, called.next = some next → next.sparesManager = true ∨
    ∃ name key, next = .archive key .spawned ∧ s.nameToVssKey.lookup name = some key
  quiet : called.events.any Event.isReport = false

namespace Store

theorem returned_callKept (s : Store) : CallKept s (s.returned []) :=
  ⟨fun _ _ => .inl, fun _ _ hFile => hFile, by simp [returned], rfl⟩

theorem spawn_callKept (s : Store) {task : Task} (hTask : task.sparesManager = true) :
    CallKept s (s.spawn task []) := by
  refine ⟨fun _ _ => .inl, fun _ _ hFile => hFile, fun next hNext => .inl ?_, rfl⟩
  rwa [← Option.some.inj hNext]

theorem enqueue_callKept (s : Store) (id : Nat) (key : String) {task : Task} (hTask : task.sparesManager = true) :
    CallKept s (s.enqueue id key task []) := by
  refine ⟨fun _ _ => .inl, fun _ _ hFile => hFile, fun next hNext => .inl ?_, rfl⟩
  rwa [← Option.some.inj hNext]

theorem startCmAttempt_callKept (s : Store) (bytes : Bytes) (byTick : Bool) :
    CallKept s (s.startCmAttempt bytes byTick) := by
  rw [startCmAttempt]
  split
  · exact returned_callKept s
  · exact spawn_callKept s rfl

theorem archiveMonitor_callKept (s : Store) (name : String) (localOk : Bool) :
    CallKept s (s.archiveMonitor name localOk) := by
  have hFiles : ∀ other file, (s.archiveLocal name localOk).monitors.lookup other = some file →
      s.monitors.lookup other = some file := by
    intro other file hFile
    rw [archiveLocal] at hFile
    split at hFile
    · split at hFile
      · change Finmap.lookup other (s.monitors.erase name) = some file at hFile
        rw [StringMap.lookup_erase_eq] at hFile
        split at hFile
        · cases hFile
        · exact hFile
      · exact hFile
    · exact hFile
  have hNames := s.archiveLocal_nameToVssKey name localOk
  simp only [archiveMonitor]
  split
  · exact ⟨fun other key hKey => .inl (hNames ▸ hKey), hFiles, by simp [returned], rfl⟩
  · rename_i key hKey
    have hForgotten : ∀ other key', ((s.archiveLocal name localOk).nameToVssKey.erase name).lookup other = some key' →
        s.nameToVssKey.lookup other = some key' ∨ isValidMonitorKey key' = true := by
      intro other key' hLookup
      rw [StringMap.lookup_erase_eq, hNames] at hLookup
      split at hLookup
      · cases hLookup
      · exact .inl hLookup
    rw [hNames] at hKey
    split
    · exact ⟨hForgotten, hFiles, by simp [returned], rfl⟩
    · refine ⟨hForgotten, hFiles, fun next hNext => .inr ?_, rfl⟩
      exact ⟨name, key, (Option.some.inj hNext).symm, hKey⟩

theorem call_callKept (s : Store) (id : Nat) {call : Call} (hOwn : ownAct (.call call) = true) :
    CallKept s (s.call id call) := by
  cases call with
  | queueMonitorWrite write isNew =>
    have hNames : ∀ name key, (s.nameToVssKey.insert write.monitorName write.vssKey).lookup name = some key →
        s.nameToVssKey.lookup name = some key ∨ isValidMonitorKey key = true := by
      intro name key hKey
      rw [StringMap.lookup_insert_eq] at hKey
      split at hKey
      · exact .inr (Option.some.inj hKey ▸ write.keyValid)
      · exact .inl hKey
    rw [Store.call, queueMonitorWrite]
    split
    · exact ⟨hNames, fun _ _ hFile => hFile, by simp [returned], rfl⟩
    · refine ⟨hNames, fun _ _ hFile => hFile, fun next hNext => .inl ?_, rfl⟩
      rw [← Option.some.inj hNext]
      rfl
  | cmRemoteWriteBounded bytes =>
    rw [Store.call, cmRemoteWriteBounded]
    split
    · exact returned_callKept s
    · exact startCmAttempt_callKept ..
  | cmRetryPending =>
    rw [Store.call, cmRetryPending]
    split
    · exact returned_callKept s
    · exact startCmAttempt_callKept ..
  | putLww key bytes => exact enqueue_callKept s id key rfl
  | putWithMerge key bytes => exact enqueue_callKept s id key rfl
  | deleteBestEffort key => exact enqueue_callKept s id key hOwn
  | archiveMonitor name localOk => exact archiveMonitor_callKept s name localOk
  | backfillManifestIfNeeded =>
    rw [Store.call, backfillManifestIfNeeded]
    split
    · exact spawn_callKept s rfl
    · exact returned_callKept s
  | fetchVersioned key => exact spawn_callKept s rfl

end Store

namespace ManagerInv

variable {w : World}

theorem call (hInv : ManagerInv w) {call : Call} (hOwn : ownAct (.call call) = true) :
    ManagerInv (w.stepCall call) := by
  have hKept := w.store.call_callKept w.nextId hOwn
  constructor
  · intro name key hKey
    rcases hKept.names name key hKey with hOld | hValid
    · exact hInv.names name key hOld
    · exact isValidMonitorKey_ne_channelManager hValid
  · exact fun name file hFile => hInv.files name file (hKept.files name file hFile)
  · intro other slot hSlot
    rw [World.stepCall, World.land_slots] at hSlot
    split at hSlot
    · obtain ⟨next, hNext, rfl⟩ := Option.map_eq_some_iff.mp hSlot
      rcases hKept.next next hNext with hSpares | ⟨name, key, rfl, hName⟩
      · exact hSpares
      · exact bne_iff_ne.mpr (hInv.names name key hName)
    · exact hInv.tasks other slot hSlot

theorem resume (hInv : ManagerInv w) {id : Nat} {slot : Slot} {env : Env} {block : Block}
    (hSlot : w.slots id = some slot) (hBlock : w.store.resume env id slot.task slot.answer = some block) :
    ManagerInv (w.land id block slot.prev) := by
  have hFrame := Store.resume_frame hBlock
  constructor
  · intro name key hKey
    rw [World.land_store, hFrame.names] at hKey
    exact hInv.names name key hKey
  · intro name file hFile
    rw [World.land_store] at hFile
    rcases hFrame.files with hSame | ⟨write, isNew, phase, -, hWritten⟩
    · exact hInv.files name file (hSame ▸ hFile)
    · rw [hWritten, StringMap.lookup_insert_eq] at hFile
      split at hFile
      · rw [← Option.some.inj hFile]
        exact isValidMonitorKey_ne_channelManager write.keyValid
      · exact hInv.files name file hFile
  · intro other slot' hOther
    rw [World.land_slots] at hOther
    split at hOther
    · obtain ⟨next, hNext, rfl⟩ := Option.map_eq_some_iff.mp hOther
      exact (hFrame.next next hNext).sparesManager (hInv.tasks id slot hSlot)
    · exact hInv.tasks other slot' hOther

theorem deliver (hInv : ManagerInv w) {id : Nat} {slot : Slot} (hSlot : w.slots id = some slot) (request : Request)
    (delivery : Delivery) : ManagerInv (w.stepDeliver id slot request delivery) := by
  refine ⟨hInv.names, hInv.files, ?_⟩
  intro other slot' hOther
  rw [World.stepDeliver_slots] at hOther
  split at hOther
  · rw [← Option.some.inj hOther]
    exact hInv.tasks id slot hSlot
  · exact hInv.tasks other slot' hOther

theorem restart (hInv : ManagerInv w) (seed : Seed) : ManagerInv (w.stepRestart seed) := by
  constructor
  · intro name key hKey
    have hMem := StringMap.mem_of_lookup_ofPairs hKey
    obtain ⟨file, hFile, hEntry⟩ := List.mem_map.mp hMem
    obtain ⟨rfl, rfl⟩ := Prod.mk.inj hEntry
    exact hInv.files file.1 file.2 ((StringMap.mem_toPairs ..).mp hFile)
  · exact hInv.files
  · intro id slot hSlot
    cases hSlot

end ManagerInv

/-! ## Deliveries and the backup -/

theorem deliver_lands {server : Server} {key : String} {value : Bytes} {version : Nat} {delivery : Delivery}
    (hCurrent : server.version key = version) (hSent : delivery ≠ .failed) :
    (server.deliver (.put key value version) delivery).1 =
      Function.update server key (some (value, version + 1)) := by
  have hOnce : (server.once (.put key value version)).1 = Function.update server key (some (value, version + 1)) := by
    rw [Server.once, if_pos hCurrent]
  cases delivery with
  | ok => exact hOnce
  | failed => exact absurd rfl hSent
  | lost => exact hOnce
  | resent => exact (Server.once_once ..).trans hOnce

/-- A task's requests leave the channel manager where it is, or replace it. -/
theorem deliver_manager {server : Server} {task : Task} {request : Request} (hTask : task.sparesManager = true)
    (hRequest : task.request = some request) (delivery : Delivery)
    (hManager : (server channelManagerVssKey).isSome = true) :
    ((server.deliver request delivery).1 channelManagerVssKey).isSome = true := by
  have hOnce : ∀ phase : OncePhase, phase.request = some request → channelManagerVssKey ≠ request.key := by
    intro phase hPhase
    cases phase <;> cases hPhase <;> exact (by decide : channelManagerVssKey ≠ monitorManifestKey)
  have hEffect := server.deliver_effect request delivery
  generalize (server.deliver request delivery).1 = after at hEffect ⊢
  cases hEffect with
  | none => exact hManager
  | put key value version hVersion =>
    by_cases hKey : channelManagerVssKey = key
    · rw [hKey, Function.update_self, Option.isSome_some]
    · rwa [Function.update_of_ne hKey]
  | delete key value version hEntry =>
    have hKey : channelManagerVssKey ≠ key := by
      cases task with
      | monitor write isNew phase => cases phase <;> cases hRequest
      | cm bytes byTick phase => cases phase <;> cases hRequest
      | write other bytes policy phase => cases phase <;> cases hRequest
      | delete other started =>
        obtain ⟨current, -, hDelete⟩ := Option.map_eq_some_iff.mp hRequest
        obtain ⟨rfl, -⟩ := Request.delete.inj hDelete
        exact (bne_iff_ne.mp hTask).symm
      | archive other phase => exact hOnce phase hRequest
      | archiveDelete other current =>
        obtain ⟨rfl, -⟩ := Request.delete.inj (Option.some.inj hRequest)
        exact (bne_iff_ne.mp hTask).symm
      | backfill phase => exact hOnce phase hRequest
      | fetch other => cases hRequest
    rwa [Function.update_of_ne hKey]

/-! ## Restores -/

theorem except_bind_error {ε α β : Type} {x : Except ε α} {f : α → Except ε β} {e : ε} (h : x >>= f = .error e) :
    x = .error e ∨ ∃ value, f value = .error e := by
  cases x with
  | error e' =>
    cases h
    exact .inl rfl
  | ok value => exact .inr ⟨value, h⟩

section Restores

variable {transport : Transport} {stack : Stack}

theorem downloadMonitors_ne_managerMissing {index : Nat} {keys : List String} :
    downloadMonitors transport stack index keys ≠ .error (.backupInconsistent .managerMissing) := by
  induction keys generalizing index with
  | nil =>
    intro h
    cases h
  | cons key rest ih =>
    intro h
    rw [downloadMonitors] at h
    split at h
    · cases h
    · rcases except_bind_error h with hFirst | ⟨monitor, h⟩
      · rw [downloadMonitor] at hFirst
        split at hFirst
        · cases hFirst
        · cases hFirst
        · split at hFirst <;> cases hFirst
      · rcases except_bind_error h with hRest | ⟨others, h⟩
        · exact ih hRest
        · cases h

theorem downloadPeers_ne_managerMissing :
    downloadPeers transport ≠ .error (.backupInconsistent .managerMissing) := by
  intro h
  rw [downloadPeers] at h
  split at h
  · cases h
  · cases h
  · split at h <;> cases h

theorem downloadAndValidate_ne_managerMissing {entry : Bytes × Nat}
    (hManager : transport.get channelManagerVssKey = .ok (some entry)) (manifest : Option (List String × Nat)) :
    downloadAndValidate transport stack manifest ≠ .error (.backupInconsistent .managerMissing) := by
  intro h
  rw [downloadAndValidate] at h
  rcases except_bind_error h with hDownload | ⟨cm, h⟩
  · simp only [downloadManager, hManager] at hDownload
    split at hDownload <;> cases hDownload
  · rcases except_bind_error h with hMonitors | ⟨monitors, h⟩
    · exact downloadMonitors_ne_managerMissing hMonitors
    · rcases except_bind_error h with hPeers | ⟨peers, h⟩
      · exact downloadPeers_ne_managerMissing hPeers
      · cases h

/-- A manifest that lists a monitor is refused when the manager is not there. -/
theorem downloadAndValidate_managerMissing {keys : List String} {version : Nat} (hKeys : keys ≠ [])
    (hManager : transport.get channelManagerVssKey = .ok none) :
    downloadAndValidate transport stack (some (keys, version)) =
      .error (.backupInconsistent .managerMissing) := by
  have hDownload : downloadManager transport stack keys = .error (.backupInconsistent .managerMissing) := by
    rw [downloadManager, hManager]
    simp [hKeys]
  change (downloadManager transport stack keys >>= _) = _
  rw [hDownload]
  rfl

end Restores

/-! ## Every run -/

theorem bootable_iff_manager {w : World} :
    Bootable w ↔ (w.reported = true → BacksUp w.server → (w.server channelManagerVssKey).isSome = true) := by
  constructor
  · exact fun h hReported hBacksUp => (h hReported hBacksUp).1
  · intro h hReported hBacksUp
    have hManager := h hReported hBacksUp
    obtain ⟨entry, hEntry⟩ := Option.isSome_iff_exists.mp hManager
    refine ⟨hManager, fun transport stack manifest hReads => ?_⟩
    exact downloadAndValidate_ne_managerMissing ((hReads _).trans (congrArg _ hEntry)) manifest

theorem land_reported (w : World) (id : Nat) (block : Block) (prev : Option Nat) :
    (w.land id block prev).reported = (block.events.any Event.isReport || w.reported) := by
  have hStarted : (startedEvents block.next).any Event.isReport = false := by
    rw [List.any_eq_false]
    intro event hEvent
    obtain ⟨request, rfl⟩ := startedEvents_started hEvent
    exact Bool.false_ne_true
  rw [World.reported, World.land_trace, List.any_append, List.any_reverse, List.any_append, hStarted, Bool.or_false,
    World.reported]

theorem deliver_reported (w : World) (id : Nat) (slot : Slot) (request : Request) (delivery : Delivery) :
    (w.stepDeliver id slot request delivery).reported = w.reported := by
  have hQuiet : (deliveryEvents w.server request delivery).any Event.isReport = false := by
    rw [List.any_eq_false]
    intro event hEvent
    obtain ⟨key, bytes, rfl | rfl⟩ := deliveryEvents_shown hEvent <;> exact Bool.false_ne_true
  have hTrace : (w.stepDeliver id slot request delivery).trace =
      (deliveryEvents w.server request delivery).reverse ++ w.trace := rfl
  rw [World.reported, hTrace, List.any_append, List.any_reverse, hQuiet, Bool.false_or, World.reported]

section Steps

variable {w w' : World} {id : Nat} {slot : Slot}

/-- A step of the client ends a monitor job or signals no completion, and it leaves a manager on the server. -/
theorem step_manager (hInv : ManagerInv w) {act : Act} (hOwn : ownAct act = true) (hStep : w.step act = some w') :
    ManagerInv w' ∧ w'.reported = (w.endsJob act || w.reported) ∧
      ((w.server channelManagerVssKey).isSome = true → (w'.server channelManagerVssKey).isSome = true) := by
  cases act with
  | call call =>
    obtain ⟨-, rfl⟩ := World.step_call_iff.mp hStep
    refine ⟨hInv.call hOwn, ?_, id⟩
    refine (land_reported ..).trans ?_
    rw [(w.store.call_callKept w.nextId hOwn).quiet]
    rfl
  | deliver id delivery =>
    obtain ⟨slot, request, hSlot, hRequest, -, rfl⟩ := World.step_deliver_iff.mp hStep
    exact ⟨hInv.deliver hSlot request delivery, deliver_reported .., deliver_manager (hInv.tasks id slot hSlot) hRequest delivery⟩
  | resume id env =>
    obtain ⟨slot, block, hSlot, -, hBlock, rfl⟩ := World.step_resume_iff.mp hStep
    refine ⟨hInv.resume hSlot hBlock, ?_, fun hManager => hManager⟩
    rw [land_reported, Store.resume_reports hBlock, World.endsJob, hSlot, Option.any_some]
  | foreign => cases hOwn
  | restart seed =>
    cases hStep
    exact ⟨hInv.restart seed, rfl, id⟩

/-- A put of the manager that takes effect leaves it on the server. -/
theorem manager_of_writes {act : Act} (hWrites : w.writesManager act = true) (hStep : w.step act = some w') :
    (w'.server channelManagerVssKey).isSome = true := by
  cases act with
  | deliver id delivery =>
    obtain ⟨slot, request, hSlot, hRequest, -, rfl⟩ := World.step_deliver_iff.mp hStep
    rw [World.writesManager, hSlot, Option.any_some, hRequest, Option.any_some, Bool.and_eq_true, bne_iff_ne] at hWrites
    obtain ⟨hSent, hPut⟩ := hWrites
    change ((w.server.deliver request delivery).1 channelManagerVssKey).isSome = true
    cases request with
    | put key value version =>
      rw [Request.putsManager, Bool.and_eq_true, beq_iff_eq, beq_iff_eq] at hPut
      obtain ⟨rfl, hCurrent⟩ := hPut
      rw [deliver_lands hCurrent hSent, Function.update_self, Option.isSome_some]
    | get | delete => cases hPut
  | call | resume | foreign | restart => cases hWrites

/-- From then on every state has it. -/
theorem run_manager (hInv : ManagerInv w) (hManager : (w.server channelManagerVssKey).isSome = true) {acts : List Act}
    (hOwn : ∀ act ∈ acts, ownAct act = true) (hRun : exec World.step w acts = some w') :
    (w'.server channelManagerVssKey).isSome = true :=
  (exec_inv (P := fun w => ManagerInv w ∧ (w.server channelManagerVssKey).isSome = true)
    (fun _ _ _ h hOwn hStep =>
      let ⟨hInv, _, hKept⟩ := step_manager h.1 hOwn hStep
      ⟨hInv, hKept h.2⟩)
    ⟨hInv, hManager⟩ (along_of_forall hOwn w) hRun).2

/-- Until the first put of the manager nothing was signalled, and after it the manager is there. -/
theorem run_reported (hInv : ManagerInv w) (hQuiet : w.reported = false) {acts : List Act}
    (hOwn : ∀ act ∈ acts, ownAct act = true) (hFirst : ManagerFirst w acts) {before after : List Act}
    (hSplit : acts = before ++ after) (hRun : exec World.step w before = some w') :
    w'.reported = true → (w'.server channelManagerVssKey).isSome = true := by
  induction before generalizing w acts with
  | nil =>
    cases hRun
    rw [hQuiet]
    rintro ⟨⟩
  | cons act before ih =>
    subst hSplit
    obtain ⟨hHere, hRest⟩ := List.forall_mem_cons.mp hOwn
    obtain ⟨next, hStep, hLater⟩ := Option.bind_eq_some_iff.mp hRun
    obtain ⟨hNext, hReported, -⟩ := step_manager hInv hHere hStep
    obtain hWrites | ⟨hEnds, hFirst⟩ := hFirst
    · have hBefore : ∀ act ∈ before, ownAct act = true := fun act hMem => hRest act (List.mem_append_left _ hMem)
      exact fun _ => run_manager hNext (manager_of_writes hWrites hStep) hBefore hLater
    · rw [hEnds, hQuiet] at hReported
      exact ih hNext hReported hRest (hFirst next hStep) rfl hLater

end Steps

/-- A wallet that starts with nothing on its disk but archived monitors, and an empty namespace. -/
def freshWallet (archivedMonitors : StringMap LocalMonitor) : World :=
  .start (fun _ => none) ∅ archivedMonitors false ⟨fun _ => none, ∅⟩

theorem managerInv_fresh (archivedMonitors : StringMap LocalMonitor) : ManagerInv (freshWallet archivedMonitors) := by
  constructor
  · intro name key hKey
    have hMem := StringMap.mem_of_lookup_ofPairs hKey
    rw [StringMap.toPairs_empty] at hMem
    cases hMem
  · intro name file hFile
    simp [freshWallet, World.start, Store.start] at hFile
  · intro id slot hSlot
    cases hSlot

/-- In every run of one client from an empty namespace, with any failures, restarts and archives: when the first put
of the channel manager takes effect before the first monitor job ends, every state reached has a bootable backup. -/
theorem run_bootable (archivedMonitors : StringMap LocalMonitor) (acts : List Act)
    (hOwn : ∀ act ∈ acts, ownAct act = true) (hFirst : ManagerFirst (freshWallet archivedMonitors) acts)
    (before after : List Act) (reached : World) (hSplit : acts = before ++ after)
    (hRun : exec World.step (freshWallet archivedMonitors) before = some reached) : Bootable reached := by
  rw [bootable_iff_manager]
  intro hReported _
  exact run_reported (managerInv_fresh archivedMonitors) rfl hOwn hFirst hSplit hRun hReported

/-- A first channel is opened: its blob, its manifest entry and its file are written. -/
def openChannel (id : Nat) : List Act :=
  [.call (.queueMonitorWrite (sampleWrite [2]) true), .resume id calm, .deliver id .ok, .resume id calm,
   .resume id calm, .deliver id .ok, .resume id calm]

/-- The manager is written before the channel is opened. -/
def managerThenChannel : List Act :=
  .call (.cmRemoteWriteBounded (.raw [1])) :: .deliver 0 .ok :: .resume 0 calm :: openChannel 1

theorem run_bootable_managerThenChannel :
    ∃ w, exec World.step (freshWallet ∅) managerThenChannel = some w ∧ w.reported = true ∧ BacksUp w.server ∧
      ∀ before after reached, managerThenChannel = before ++ after →
        exec World.step (freshWallet ∅) before = some reached → Bootable reached := by
  have hEnd : (exec World.step (freshWallet ∅) managerThenChannel).map (fun w =>
      (w.reported, w.server monitorManifestKey)) = some (true, some (manifestPayload [sampleKey], 1)) := by decide +kernel
  obtain ⟨w, hRun, hSeen⟩ := Option.map_eq_some_iff.mp hEnd
  obtain ⟨hReported, hManifest⟩ := Prod.mk.inj hSeen
  refine ⟨w, hRun, hReported, .inr ?_, run_bootable ∅ managerThenChannel (by decide) (by decide +kernel)⟩
  rw [remoteManifest, hManifest]
  simp

/-- The one attempt to write the manager fails, and the server is back when the channel is opened. -/
def outageThenChannel : List Act :=
  .call (.cmRemoteWriteBounded (.raw [1])) :: .deliver 0 .failed :: .resume 0 calm :: openChannel 1

theorem outageThenChannel_unbootable :
    (∀ act ∈ outageThenChannel, ownAct act = true) ∧
      ∃ w, exec World.step (freshWallet ∅) outageThenChannel = some w ∧ w.store.cmPending = some (.raw [1]) ∧
        ¬ Bootable w ∧
        ∀ transport stack, Reads transport w.server → ∃ manifest, fetchManifest transport = .ok manifest ∧
          downloadAndValidate transport stack manifest = .error (.backupInconsistent .managerMissing) := by
  have hEnd : (exec World.step (freshWallet ∅) outageThenChannel).map (fun w =>
      (w.store.cmPending, w.reported, w.server channelManagerVssKey, w.server monitorManifestKey)) =
        some (some (.raw [1]), true, none, some (manifestPayload [sampleKey], 1)) := by decide +kernel
  obtain ⟨w, hRun, hSeen⟩ := Option.map_eq_some_iff.mp hEnd
  obtain ⟨hPending, hReported, hManager, hManifest⟩ : w.store.cmPending = some (.raw [1]) ∧ w.reported = true ∧
      w.server channelManagerVssKey = none ∧
      w.server monitorManifestKey = some (manifestPayload [sampleKey], 1) := by simpa using hSeen
  refine ⟨by decide, w, hRun, hPending, ?_, ?_⟩
  · intro hBoot
    have hBacksUp : BacksUp w.server := by
      right
      rw [remoteManifest, hManifest]
      simp
    have hSome := (hBoot hReported hBacksUp).1
    rw [hManager] at hSome
    cases hSome
  · intro transport stack hReads
    have hParsed : parseMonitorManifest (manifestPayload [sampleKey]) = .ok [sampleKey] := by decide +kernel
    refine ⟨some ([sampleKey], 1), ?_, ?_⟩
    · simp only [fetchManifest, hReads monitorManifestKey, hManifest, hParsed]
    · exact downloadAndValidate_managerMissing (by simp) ((hReads _).trans (congrArg _ hManager))

end WalletCore.Vss
