import WalletCore.Vss.Blocks

/-! # Soundness of the remote manifest

Every key that the remote manifest lists should have a blob, or a later restore fails for good.
A key can reach the manifest from several places: the tracking set, a manifest that a task is about
to put or has fetched, a blob that was just acknowledged. The listing stays sound as long as an
archived blob is deleted only when none of these names its key.
-/

namespace WalletCore.Vss

open Lib

/-- The keys that the remote manifest lists. -/
def remoteManifest (server : Server) : List String :=
  match server monitorManifestKey with
  | some (bytes, _) => listedKeys bytes
  | none => []

/-- Every key listed remotely has a blob under exactly that key. -/
def ManifestSound (server : Server) : Prop := ∀ key ∈ remoteManifest server, (server key).isSome = true

instance (server : Server) : Decidable (ManifestSound server) :=
  inferInstanceAs (Decidable (∀ key ∈ remoteManifest server, (server key).isSome = true))

/-- The places from which a key can still reach the remote manifest. -/
inductive Referenced (w : World) (key : String) : Prop
  | listed (hKey : key ∈ remoteManifest w.server)
  | tracked (hKey : w.store.Publishes key)
  | pending (id : Nat) (slot : Slot) (payload : Bytes) (hSlot : w.slots id = some slot)
    (hPending : slot.task.pendingManifest = some payload) (hAnswer : slot.answer = none) (hKey : key ∈ listedKeys payload)
  | fetched (id : Nat) (slot : Slot) (bytes : Bytes) (version : Nat) (hSlot : w.slots id = some slot)
    (hRequest : slot.task.request = some (.get monitorManifestKey))
    (hAnswer : slot.answer = some (.found bytes version)) (hKey : key ∈ listedKeys bytes)
  | acknowledged (id : Nat) (slot : Slot) (write : MonitorWrite) (isNew : Bool) (version new : Nat)
    (hSlot : w.slots id = some slot) (hTask : slot.task = .monitor write isNew (.put version))
    (hAnswer : slot.answer = some (.putOk new)) (hKey : key = write.vssKey)
  | recognised (id : Nat) (slot : Slot) (write : MonitorWrite) (isNew : Bool) (version : Nat)
    (hSlot : w.slots id = some slot) (hTask : slot.task = .monitor write isNew .refetch)
    (hAnswer : slot.answer = some (.found write.bytes version)) (hKey : key = write.vssKey)

/-! ## The runs -/

/-- The tasks of monitor writes, archives and backfills. -/
def Task.ofMonitors : Task → Bool
  | .monitor .. | .archive .. | .archiveDelete .. | .backfill _ => true
  | _ => false

def Act.ofMonitors : Act → Bool
  | .call (.queueMonitorWrite ..) | .call (.archiveMonitor ..) | .call .backfillManifestIfNeeded => true
  | .deliver .. | .resume .. => true
  | _ => false

/-- Whether the task in a slot can still bring the key to the manifest. -/
def Slot.names (slot : Slot) (key : String) : Bool :=
  match slot.task, slot.answer with
  | .monitor write _ (.put _), some (.putOk _) => key = write.vssKey
  | .monitor write _ .refetch, some (.found bytes _) => bytes = write.bytes && key = write.vssKey
  | task, some (.found bytes _) => task.request = some (.get monitorManifestKey) && key ∈ listedKeys bytes
  | task, none => task.pendingManifest.any fun payload => key ∈ listedKeys payload
  | _, _ => false

def World.names (w : World) (key : String) : Bool :=
  key ∈ remoteManifest w.server || w.store.monitorKeys.lookup key = some .publishable ||
    (List.range w.nextId).any fun id => (w.slots id).any (·.names key)

/-- A delete of an archived blob takes effect only when nothing names its key any more. -/
def deletesUnreferenced (w : World) : Act → Bool
  | .deliver id delivery =>
    match w.slots id with
    | some ⟨.archiveDelete key version, _, _⟩ =>
      !(delivery ≠ .failed && (w.server key).any (·.2 = version) && w.names key)
    | _ => true
  | _ => true

structure SoundInv (w : World) : Prop where
  fresh : ∀ id slot, w.slots id = some slot → id < w.nextId
  tasks : ∀ id slot, w.slots id = some slot → slot.task.ofMonitors = true
  backed : ∀ key, key ≠ monitorManifestKey → Referenced w key → (w.server key).isSome = true

theorem Referenced.names {w : World} (hFresh : ∀ id slot, w.slots id = some slot → id < w.nextId) {key : String}
    (h : Referenced w key) : w.names key = true := by
  have hTask : ∀ {id slot}, w.slots id = some slot → slot.names key = true → w.names key = true := by
    intro id slot hSlot hNames
    have hAny : ((List.range w.nextId).any fun id => (w.slots id).any (·.names key)) = true :=
      List.any_eq_true.mpr ⟨id, List.mem_range.mpr (hFresh id slot hSlot), by rw [hSlot]; exact hNames⟩
    rw [World.names, hAny, Bool.or_true]
  cases h with
  | listed hKey => simp [World.names, hKey]
  | tracked hKey => simp [World.names, show w.store.monitorKeys.lookup key = _ from hKey]
  | pending id slot payload hSlot hPending hAnswer hKey =>
    refine hTask hSlot ?_
    simp [Slot.names, hAnswer, hPending, hKey]
  | fetched id slot bytes version hSlot hRequest hAnswer hKey =>
    refine hTask hSlot ?_
    obtain ⟨task, answer, prev⟩ := slot
    cases hAnswer
    simp only [Slot.names]
    split
    · cases ‹some _ = some _›
    · rename_i write _ _ _ _
      exact absurd (Request.get.inj (Option.some.inj hRequest)) (isValidMonitorKey_ne_manifest write.keyValid)
    · simp_all
    · cases ‹some _ = none›
    · simp_all
  | acknowledged id slot write isNew version new hSlot hMonitor hAnswer hKey =>
    exact hTask hSlot (by simp [Slot.names, hMonitor, hAnswer, hKey])
  | recognised id slot write isNew version hSlot hMonitor hAnswer hKey =>
    exact hTask hSlot (by simp [Slot.names, hMonitor, hAnswer, hKey])

theorem SoundInv.manifestSound {w : World} (h : SoundInv w) : ManifestSound w.server := by
  intro key hKey
  by_cases hSelf : key = monitorManifestKey
  · subst hSelf
    rw [remoteManifest] at hKey
    split at hKey
    · simp [*]
    · cases hKey
  · exact h.backed key hSelf (.listed hKey)

/-! ## Calls and runs of tasks -/

theorem Referenced.of_land {w : World} {id nextId : Nat} {block : Block} {prev : Option Nat} {key : String}
    (h : Referenced { w.land id block prev with nextId := nextId } key) :
    Referenced w key ∨ block.store.Publishes key ∨
      ∃ payload, block.next.bind Task.pendingManifest = some payload ∧ key ∈ listedKeys payload := by
  have hLanded : ∀ {other : Nat} {slot : Slot}, (w.land id block prev).slots other = some slot →
      slot.answer = none ∧ block.next = some slot.task ∨ w.slots other = some slot := by
    intro other slot hSlot
    rw [World.land_slots] at hSlot
    split at hSlot
    · obtain ⟨task, hNext, rfl⟩ := Option.map_eq_some_iff.mp hSlot
      exact .inl ⟨rfl, hNext⟩
    · exact .inr hSlot
  cases h with
  | listed hKey => exact .inl (.listed hKey)
  | tracked hKey => exact .inr (.inl hKey)
  | pending other slot payload hSlot hPending hAnswer hKey =>
    rcases hLanded hSlot with ⟨-, hNext⟩ | hSlot
    · exact .inr (.inr ⟨payload, by rw [hNext, Option.bind_some, hPending], hKey⟩)
    · exact .inl (.pending other slot payload hSlot hPending hAnswer hKey)
  | fetched other slot bytes version hSlot hRequest hAnswer hKey =>
    rcases hLanded hSlot with ⟨hNone, -⟩ | hSlot
    · simp [hNone] at hAnswer
    · exact .inl (.fetched other slot bytes version hSlot hRequest hAnswer hKey)
  | acknowledged other slot write isNew version new hSlot hTask hAnswer hKey =>
    rcases hLanded hSlot with ⟨hNone, -⟩ | hSlot
    · simp [hNone] at hAnswer
    · exact .inl (.acknowledged other slot write isNew version new hSlot hTask hAnswer hKey)
  | recognised other slot write isNew version hSlot hTask hAnswer hKey =>
    rcases hLanded hSlot with ⟨hNone, -⟩ | hSlot
    · simp [hNone] at hAnswer
    · exact .inl (.recognised other slot write isNew version hSlot hTask hAnswer hKey)

/-- A key that a task's run publishes was named by what the task had seen. -/
theorem KeyMove.referenced {w : World} {id : Nat} {slot : Slot} {keys' : MonitorKeySet} {key : String}
    (hSlot : w.slots id = some slot) (h : KeyMove w.store.monitorKeys slot.task slot.answer keys')
    (hKey : keys'.lookup key = some .publishable) : Referenced w key := by
  obtain hTracked | ⟨write, isNew, version, new, hTask, hAnswer, hSame⟩ | ⟨write, isNew, version, hTask, hAnswer, hSame⟩ |
    ⟨bytes, version, parsed, hRequest, hAnswer, hParsed, hMem⟩ := h.publishes_cases hKey
  · exact .tracked hTracked
  · exact .acknowledged id slot write isNew version new hSlot hTask hAnswer hSame
  · exact .recognised id slot write isNew version hSlot hTask hAnswer hSame
  · exact .fetched id slot bytes version hSlot hRequest hAnswer (parseMonitorManifest_subset hParsed hMem)

theorem Store.resume_ofMonitors {s : Store} {env : Env} {id : Nat} {task : Task} {answer : Option Answer}
    {block : Block} (hTask : task.ofMonitors = true) (h : s.resume env id task answer = some block) :
    ∀ next, block.next = some next → next.ofMonitors = true := by
  intro next hNext
  cases (resume_frame h).next next hNext with
  | monitor | archive | archiveDelete | backfill => rfl
  | cm | write | delete => cases hTask

theorem Store.call_ofMonitors (s : Store) (id : Nat) {call : Call} (hCall : (Act.call call).ofMonitors = true) :
    ∀ next, (s.call id call).next = some next → next.ofMonitors = true := by
  cases call with
  | queueMonitorWrite write isNew =>
    rw [call, queueMonitorWrite]
    split <;> simp [returned, enqueue, Task.ofMonitors]
  | archiveMonitor name localOk =>
    simp only [call, archiveMonitor]
    split
    · simp [returned]
    · split <;> simp [returned, spawn, Task.ofMonitors]
  | backfillManifestIfNeeded =>
    rw [call, backfillManifestIfNeeded]
    split <;> simp [returned, spawn, Task.ofMonitors]
  | cmRemoteWriteBounded | cmRetryPending | putLww | putWithMerge | deleteBestEffort | fetchVersioned => cases hCall

theorem SoundInv.land {w : World} {id nextId : Nat} {block : Block} {prev : Option Nat} (hInv : SoundInv w)
    (hId : id < nextId) (hNext : w.nextId ≤ nextId)
    (hTasks : ∀ next, block.next = some next → next.ofMonitors = true)
    (hTracked : ∀ key, block.store.Publishes key → Referenced w key)
    (hPending : ∀ payload, block.next.bind Task.pendingManifest = some payload →
      ∀ key ∈ listedKeys payload, Referenced w key) :
    SoundInv { w.land id block prev with nextId := nextId } := by
  refine ⟨?_, ?_, ?_⟩
  · exact World.land_fresh hInv.fresh hId hNext block prev
  · intro other slot hSlot
    rw [World.land_slots] at hSlot
    split at hSlot
    · obtain ⟨task, hNext, rfl⟩ := Option.map_eq_some_iff.mp hSlot
      exact hTasks task hNext
    · exact hInv.tasks other slot hSlot
  · intro key hKey hRef
    rcases hRef.of_land with hRef | hRef | ⟨payload, hNext, hMem⟩
    · exact hInv.backed key hKey hRef
    · exact hInv.backed key hKey (hTracked key hRef)
    · exact hInv.backed key hKey (hPending payload hNext key hMem)

theorem SoundInv.call {w : World} (hInv : SoundInv w) {call : Call} (hCall : (Act.call call).ofMonitors = true) :
    SoundInv (w.stepCall call) := by
  refine hInv.land (Nat.lt_succ_self _) (Nat.le_succ _) (w.store.call_ofMonitors w.nextId hCall) ?_ ?_
  · intro key hKey
    exact .tracked ((w.store.call_publishes w.nextId call key).1 hKey)
  · intro payload hPayload
    rcases w.store.call_next w.nextId call with ⟨write, isNew, hNext, -⟩ | ⟨-, hNone, -⟩
    · rw [hNext] at hPayload
      cases hPayload
    · rw [hNone] at hPayload
      cases hPayload

theorem SoundInv.resume {w : World} (hInv : SoundInv w) {id : Nat} {slot : Slot} {env : Env} {block : Block}
    (hSlot : w.slots id = some slot) (hBlock : w.store.resume env id slot.task slot.answer = some block) :
    SoundInv (w.land id block slot.prev) := by
  have hTracked : ∀ key, block.store.Publishes key → Referenced w key :=
    fun key hKey => (Store.resume_keyMove hBlock).referenced hSlot hKey
  refine hInv.land (hInv.fresh id slot hSlot) le_rfl (Store.resume_ofMonitors (hInv.tasks id slot hSlot) hBlock) hTracked ?_
  intro payload hPayload key hKey
  rw [Store.resume_pending hBlock payload hPayload, listedKeys_manifestPayload, MonitorKeySet.mem_publishable] at hKey
  exact hTracked key hKey

/-! ## Deliveries -/

theorem Task.request_ofMonitors {task : Task} {request : Request} (hTask : task.ofMonitors = true)
    (h : task.request = some request) :
    (∃ write isNew version, task = .monitor write isNew (.put version) ∧
      request = .put write.vssKey write.bytes version) ∨
    (∃ write isNew, task = .monitor write isNew .refetch ∧ request = .get write.vssKey) ∨
    (∃ payload version, task.pendingManifest = some payload ∧ request = .put monitorManifestKey payload version) ∨
    request = .get monitorManifestKey ∨ (∃ version, request = .delete monitorManifestKey version) ∨
    (∃ key version, task = .archiveDelete key version ∧ request = .delete key version) := by
  have hOnce : ∀ phase : OncePhase, phase.request = some request →
      (∃ round payload version, phase = .put round payload version ∧
        request = .put monitorManifestKey payload version) ∨
      request = .get monitorManifestKey ∨ ∃ version, request = .delete monitorManifestKey version := by
    intro phase h
    cases phase <;> simp [OncePhase.request] at h <;> simp [← h]
  cases task with
  | monitor write isNew phase =>
    cases phase <;> simp [Task.request] at h <;> subst h <;> simp [Task.pendingManifest]
  | archive key phase =>
    rcases hOnce phase h with ⟨round, payload, version, rfl, rfl⟩ | rfl | ⟨version, rfl⟩ <;>
      simp [Task.pendingManifest]
  | backfill phase =>
    rcases hOnce phase h with ⟨round, payload, version, rfl, rfl⟩ | rfl | ⟨version, rfl⟩ <;>
      simp [Task.pendingManifest]
  | archiveDelete key version =>
    cases h
    simp
  | cm | write | delete | fetch => cases hTask

theorem Referenced.of_deliver {w : World} {id : Nat} {slot : Slot} {request : Request} {delivery : Delivery}
    {key : String} (h : Referenced (w.stepDeliver id slot request delivery) key) :
    Referenced w key ∨ key ∈ remoteManifest (w.server.deliver request delivery).1 ∨
      (∃ bytes version, slot.task.request = some (.get monitorManifestKey) ∧
        (w.server.deliver request delivery).2 = .found bytes version ∧ key ∈ listedKeys bytes) ∨
      (∃ write isNew version new, slot.task = .monitor write isNew (.put version) ∧
        (w.server.deliver request delivery).2 = .putOk new ∧ key = write.vssKey) ∨
      ∃ write isNew version, slot.task = .monitor write isNew .refetch ∧
        (w.server.deliver request delivery).2 = .found write.bytes version ∧ key = write.vssKey := by
  have hServed : ∀ {other : Nat} {slot' : Slot},
      (w.stepDeliver id slot request delivery).slots other = some slot' →
      slot'.task = slot.task ∧ slot'.answer = some (w.server.deliver request delivery).2 ∨
        w.slots other = some slot' := by
    intro other slot' hSlot'
    rw [World.stepDeliver_slots] at hSlot'
    split at hSlot'
    · cases hSlot'
      exact .inl ⟨rfl, rfl⟩
    · exact .inr hSlot'
  cases h with
  | listed hKey => exact .inr (.inl hKey)
  | tracked hKey => exact .inl (.tracked hKey)
  | pending other slot' payload hSlot' hPending hAnswer hKey =>
    rcases hServed hSlot' with ⟨-, hSome⟩ | hSlot'
    · simp [hSome] at hAnswer
    · exact .inl (.pending other slot' payload hSlot' hPending hAnswer hKey)
  | fetched other slot' bytes version hSlot' hRequest hAnswer hKey =>
    rcases hServed hSlot' with ⟨hTask, hSome⟩ | hSlot'
    · exact .inr (.inr (.inl ⟨bytes, version, hTask ▸ hRequest, Option.some.inj (hSome.symm.trans hAnswer), hKey⟩))
    · exact .inl (.fetched other slot' bytes version hSlot' hRequest hAnswer hKey)
  | acknowledged other slot' write isNew version new hSlot' hTask hAnswer hKey =>
    rcases hServed hSlot' with ⟨hSame, hSome⟩ | hSlot'
    · exact .inr (.inr (.inr (.inl ⟨write, isNew, version, new, hSame ▸ hTask,
        Option.some.inj (hSome.symm.trans hAnswer), hKey⟩)))
    · exact .inl (.acknowledged other slot' write isNew version new hSlot' hTask hAnswer hKey)
  | recognised other slot' write isNew version hSlot' hTask hAnswer hKey =>
    rcases hServed hSlot' with ⟨hSame, hSome⟩ | hSlot'
    · exact .inr (.inr (.inr (.inr ⟨write, isNew, version, hSame ▸ hTask,
        Option.some.inj (hSome.symm.trans hAnswer), hKey⟩)))
    · exact .inl (.recognised other slot' write isNew version hSlot' hTask hAnswer hKey)

/-- The blobs that a delivery leaves: only an effective archive delete takes one away. -/
theorem deliver_backed {w : World} (hInv : SoundInv w) {id : Nat} {slot : Slot} {request : Request}
    {delivery : Delivery} (hSlot : w.slots id = some slot) (hRequest : slot.task.request = some request)
    (hGuard : deletesUnreferenced w (.deliver id delivery) = true) {key : String} (hKey : key ≠ monitorManifestKey)
    (hRef : Referenced w key) : ((w.server.deliver request delivery).1 key).isSome = true := by
  have hBacked := hInv.backed key hKey hRef
  by_cases hFailed : delivery = .failed
  · subst hFailed
    exact hBacked
  generalize hAfter : (w.server.deliver request delivery).1 = after
  have hEffect := hAfter ▸ w.server.deliver_effect request delivery
  cases hEffect with
  | none => exact hBacked
  | put other value version hVersion =>
    rw [Function.update_apply]
    split
    · rfl
    · exact hBacked
  | delete other value version hEntry =>
    rw [Function.update_apply]
    split
    · rename_i hOther
      subst hOther
      rcases Task.request_ofMonitors (hInv.tasks id slot hSlot) hRequest with
        ⟨_, _, _, -, h⟩ | ⟨_, _, -, h⟩ | ⟨_, _, -, h⟩ | h | ⟨_, h⟩ | ⟨_, _, hTask, h⟩
      · cases h
      · cases h
      · cases h
      · cases h
      · cases h
        exact absurd rfl hKey
      · cases h
        have hNames := hRef.names hInv.fresh
        obtain ⟨task, answer, prev⟩ := slot
        cases hTask
        simp [deletesUnreferenced, hSlot, hFailed, hEntry, hNames] at hGuard
    · exact hBacked

/-- A key that the manifest lists after a delivery was named before it. -/
theorem deliver_listed {w : World} (hInv : SoundInv w) {id : Nat} {slot : Slot} {request : Request}
    {delivery : Delivery} (hSlot : w.slots id = some slot) (hRequest : slot.task.request = some request)
    (hAnswer : slot.answer = none) {key : String}
    (hKey : key ∈ remoteManifest (w.server.deliver request delivery).1) : Referenced w key := by
  generalize hAfter : (w.server.deliver request delivery).1 = after at hKey
  have hEffect := hAfter ▸ w.server.deliver_effect request delivery
  cases hEffect with
  | none => exact .listed hKey
  | put other value version hVersion =>
    by_cases hOther : monitorManifestKey = other
    · subst hOther
      rw [remoteManifest, Function.update_self] at hKey
      rcases Task.request_ofMonitors (hInv.tasks id slot hSlot) hRequest with
        ⟨write, _, _, -, h⟩ | ⟨_, _, -, h⟩ | ⟨payload, _, hPending, h⟩ | h | ⟨_, h⟩ | ⟨_, _, -, h⟩
      · exact absurd (Request.put.inj h).1.symm (isValidMonitorKey_ne_manifest write.keyValid)
      · cases h
      · cases h
        exact .pending id slot _ hSlot hPending hAnswer hKey
      · cases h
      · cases h
      · cases h
    · rw [remoteManifest, Function.update_of_ne hOther] at hKey
      exact .listed hKey
  | delete other value version hEntry =>
    by_cases hOther : monitorManifestKey = other
    · subst hOther
      rw [remoteManifest, Function.update_self] at hKey
      cases hKey
    · rw [remoteManifest, Function.update_of_ne hOther] at hKey
      exact .listed hKey

theorem SoundInv.deliver {w : World} (hInv : SoundInv w) {id : Nat} {slot : Slot} {request : Request}
    {delivery : Delivery} (hSlot : w.slots id = some slot) (hRequest : slot.task.request = some request)
    (hAnswer : slot.answer = none) (hGuard : deletesUnreferenced w (.deliver id delivery) = true) :
    SoundInv (w.stepDeliver id slot request delivery) := by
  have hBacked : ∀ key, key ≠ monitorManifestKey → Referenced w key →
      ((w.server.deliver request delivery).1 key).isSome = true :=
    fun key hKey hRef => deliver_backed hInv hSlot hRequest hGuard hKey hRef
  have hAnswered := w.server.deliver_answered request delivery
  refine ⟨?_, ?_, ?_⟩
  · intro other slot' hSlot'
    rw [World.stepDeliver_slots] at hSlot'
    split at hSlot'
    · rename_i hOther
      exact hOther ▸ hInv.fresh id slot hSlot
    · exact hInv.fresh other slot' hSlot'
  · intro other slot' hSlot'
    rw [World.stepDeliver_slots] at hSlot'
    split at hSlot'
    · cases hSlot'
      exact hInv.tasks id slot hSlot
    · exact hInv.tasks other slot' hSlot'
  · intro key hKey hRef
    rcases hRef.of_deliver with hRef | hListed | ⟨bytes, version, hGet, hFound, hMem⟩ |
      ⟨write, isNew, version, new, hTask, hOk, rfl⟩ | ⟨write, isNew, version, hTask, hFound, rfl⟩
    · exact hBacked key hKey hRef
    · exact hBacked key hKey (deliver_listed hInv hSlot hRequest hAnswer hListed)
    · cases hRequest.symm.trans hGet
      rw [hFound] at hAnswered
      have hListed : key ∈ remoteManifest (w.server.deliver (.get monitorManifestKey) delivery).1 := by
        rw [remoteManifest, show (w.server.deliver (.get monitorManifestKey) delivery).1 monitorManifestKey = _ from
          hAnswered]
        exact hMem
      exact hBacked key hKey (deliver_listed hInv hSlot hRequest hAnswer hListed)
    · rw [hTask] at hRequest
      cases hRequest
      rw [hOk] at hAnswered
      exact Option.isSome_iff_exists.mpr ⟨_, hAnswered.2⟩
    · rw [hTask] at hRequest
      cases hRequest
      rw [hFound] at hAnswered
      exact Option.isSome_iff_exists.mpr ⟨_, hAnswered⟩

/-! ## Whole runs -/

theorem SoundInv.step {w w' : World} {act : Act} (hInv : SoundInv w)
    (hGuard : act.ofMonitors = true ∧ deletesUnreferenced w act = true) (h : w.step act = some w') : SoundInv w' := by
  cases act with
  | call call =>
    obtain ⟨-, rfl⟩ := World.step_call_iff.mp h
    exact hInv.call hGuard.1
  | deliver id delivery =>
    obtain ⟨slot, request, hSlot, hRequest, hAnswer, rfl⟩ := World.step_deliver_iff.mp h
    exact hInv.deliver hSlot hRequest hAnswer hGuard.2
  | resume id env =>
    obtain ⟨slot, block, hSlot, -, hBlock, rfl⟩ := World.step_resume_iff.mp h
    exact hInv.resume hSlot hBlock
  | foreign | restart => cases hGuard.1

theorem Store.start_publishes (monitors archivedMonitors : StringMap LocalMonitor) (fencedFlag : Bool) (seed : Seed)
    (key : String) : (Store.start monitors archivedMonitors fencedFlag seed).Publishes key ↔
      seed.monitorKeys.lookup key = some .publishable := by
  rw [Publishes, start]
  generalize seed.monitorKeys = keys
  induction monitors.toPairs generalizing keys with
  | nil => rfl
  | cons file rest ih => exact (ih _).trans MonitorKeySet.lookup_insertUnverified

/-- What startup promises: the manifest and the publishable keys name existing blobs. The
cached versions may be anything. -/
structure SoundStart (server : Server) (seed : Seed) : Prop where
  manifest : ManifestSound server
  publishable : ∀ key, seed.monitorKeys.lookup key = some .publishable → (server key).isSome = true

/-- In every run of one store whose archive deletes take effect only on keys that nothing names
any more, the remote manifest lists existing blobs only. -/
theorem run_manifestSound (server : Server) (monitors archivedMonitors : StringMap LocalMonitor) (fencedFlag : Bool)
    (seed : Seed) (acts : List Act) (w : World) (hStart : SoundStart server seed)
    (hGuard : Along World.step (fun w act => act.ofMonitors = true ∧ deletesUnreferenced w act = true)
      (.start server monitors archivedMonitors fencedFlag seed) acts)
    (hRun : exec World.step (.start server monitors archivedMonitors fencedFlag seed) acts = some w) :
    ManifestSound w.server := by
  have hInv : SoundInv (.start server monitors archivedMonitors fencedFlag seed) := by
    refine ⟨by simp [World.start], by simp [World.start], ?_⟩
    rintro key - hRef
    cases hRef with
    | listed hKey => exact hStart.manifest key hKey
    | tracked hKey => exact hStart.publishable key ((Store.start_publishes ..).mp hKey)
    | pending _ _ _ hSlot | fetched _ _ _ _ hSlot | acknowledged _ _ _ _ _ _ hSlot | recognised _ _ _ _ _ hSlot =>
      simp [World.start] at hSlot
  exact (exec_inv (fun _ _ _ hInv hGuard hStep => hInv.step hGuard hStep) hInv hGuard hRun).manifestSound

/-! ## An archive -/

/-- One channel, backed up and listed. -/
def oneChannelServer : Server :=
  Function.update (Function.update (fun _ => none) sampleKey (some (.raw [1], 1)))
    monitorManifestKey (some (manifestPayload [sampleKey], 1))

def oneChannelSeed : Seed where
  versions := Function.update (Function.update (fun _ => none) sampleKey (some 1)) monitorManifestKey (some 1)
  monitorKeys := Finmap.singleton sampleKey .publishable

def oneChannel : World :=
  .start oneChannelServer (Finmap.singleton "monitor" ⟨sampleKey, .raw [1]⟩) ∅ false oneChannelSeed

/-- The channel is archived: the manifest is to be retired, then the blob deleted. -/
def archiveActs (retire : Delivery) : List Act :=
  [.call (.archiveMonitor "monitor" true), .resume 0 calm, .resume 0 calm, .deliver 0 retire, .resume 0 calm,
   .deliver 0 .ok, .resume 0 calm]

theorem soundStart_oneChannel : SoundStart oneChannelServer oneChannelSeed := by
  refine ⟨by decide, ?_⟩
  intro key hKey
  have hSame : key = sampleKey := by simpa [oneChannelSeed] using Finmap.mem_of_lookup_eq_some hKey
  subst hSame
  decide

theorem run_manifestSound_archive :
    ∃ w, exec World.step oneChannel (archiveActs .ok) = some w ∧ ManifestSound w.server := by
  obtain ⟨w, hRun⟩ : ∃ w, exec World.step oneChannel (archiveActs .ok) = some w :=
    Option.isSome_iff_exists.mp (by decide +kernel)
  exact ⟨w, hRun, run_manifestSound _ _ _ _ _ (archiveActs .ok) w soundStart_oneChannel (by decide +kernel) hRun⟩

/-- The retiring delete fails, the blob's delete does not: the manifest lists a missing blob. -/
theorem archive_breaks_manifest :
    SoundStart oneChannelServer oneChannelSeed ∧ (∀ act ∈ archiveActs .failed, act.ofMonitors = true) ∧
      ∃ w, exec World.step oneChannel (archiveActs .failed) = some w ∧ ¬ ManifestSound w.server := by
  have h : (exec World.step oneChannel (archiveActs .failed)).map (fun w => decide (ManifestSound w.server)) =
      some false := by decide +kernel
  obtain ⟨w, hRun, hSound⟩ := Option.map_eq_some_iff.mp h
  refine ⟨soundStart_oneChannel, by decide, w, hRun, of_decide_eq_false hSound⟩

end WalletCore.Vss
