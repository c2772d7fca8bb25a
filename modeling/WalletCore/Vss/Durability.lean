import WalletCore.Vss.Blocks
import WalletCore.Vss.Fence

/-! # The durability gate of monitor writes

A monitor update is reported complete only when its blob has been on the server, a new channel's
key has been in an accepted manifest, and the local file is written. The order of these steps is
carried along every run as a fact about each monitor task's place and the events since it was queued.
-/

namespace WalletCore.Vss

open Lib

/-- The server held the write's bytes under its key. -/
def Held (since : List Event) (write : MonitorWrite) : Prop :=
  .stored write.vssKey write.bytes ∈ since ∨ .fetched write.vssKey write.bytes ∈ since

/-- A new channel's key was in an accepted manifest, unless the channel was archived. -/
def Listed (since : List Event) (write : MonitorWrite) (isNew : Bool) : Prop :=
  isNew = true → .archived write.vssKey ∈ since ∨
    ∃ payload, .stored monitorManifestKey payload ∈ since ∧ write.vssKey ∈ listedKeys payload

/-- What has happened, between the queueing of a write and its completion. -/
structure Durable (since : List Event) (write : MonitorWrite) (isNew : Bool) : Prop where
  held : Held since write
  wroteLocal : .wroteLocal write.localKey write.bytes ∈ since
  listed : Listed since write isNew

/-- Every completion in the trace, newest event first, comes after all that it stands for. -/
def Gated (trace : List Event) : Prop :=
  ∀ later id write isNew earlier, trace = later ++ .monitorUpdated id write isNew :: earlier →
    ∃ since before, earlier = since ++ .queued id write isNew :: before ∧ Durable since write isNew

/-! ## One task -/

def Tracked (s : Store) (since : List Event) (write : MonitorWrite) : Prop :=
  .archived write.vssKey ∈ since ∨ s.Publishes write.vssKey

/-- What is known where a monitor task stands, with the answer it has. -/
def PhaseOk (s : Store) (since : List Event) (write : MonitorWrite) (isNew : Bool) :
    MonitorPhase → Option Answer → Prop
  | .put _, some (.putOk _) => Held since write
  | .refetch, some (.found bytes _) => .fetched write.vssKey bytes ∈ since
  | .manifestLock, _ | .manifestRefetch, _ | .manifestSleep, _ => Held since write ∧ Tracked s since write
  | .manifestPut payload _, some (.putOk _) =>
    Held since write ∧ (.archived write.vssKey ∈ since ∨
      .stored monitorManifestKey payload ∈ since ∧ write.vssKey ∈ listedKeys payload)
  | .manifestPut payload _, _ =>
    Held since write ∧ Tracked s since write ∧
      (.archived write.vssKey ∈ since ∨ write.vssKey ∈ listedKeys payload)
  | .localSleep, _ => Held since write ∧ Listed since write isNew
  | _, _ => True

theorem Held.mono {since since' : List Event} {write : MonitorWrite} (hSub : since ⊆ since')
    (h : Held since write) : Held since' write :=
  h.imp (fun h => hSub h) (fun h => hSub h)

theorem Listed.mono {since since' : List Event} {write : MonitorWrite} {isNew : Bool} (hSub : since ⊆ since')
    (h : Listed since write isNew) : Listed since' write isNew := by
  intro hNew
  rcases h hNew with hArchived | ⟨payload, hStored, hKey⟩
  · exact .inl (hSub hArchived)
  · exact .inr ⟨payload, hSub hStored, hKey⟩

theorem PhaseOk.mono {s s' : Store} {since since' : List Event} {write : MonitorWrite} {isNew : Bool}
    {phase : MonitorPhase} {answer : Option Answer} (hSub : since ⊆ since')
    (hKeys : s.Publishes write.vssKey → s'.Publishes write.vssKey ∨ .archived write.vssKey ∈ since')
    (h : PhaseOk s since write isNew phase answer) : PhaseOk s' since' write isNew phase answer := by
  have hTracked : Tracked s since write → Tracked s' since' write := by
    rintro (hArchived | hKey)
    · exact .inl (hSub hArchived)
    · exact (hKeys hKey).symm
  unfold PhaseOk at h ⊢
  split at h
  · exact h.mono hSub
  · exact hSub h
  · exact ⟨h.1.mono hSub, hTracked h.2⟩
  · exact ⟨h.1.mono hSub, hTracked h.2⟩
  · exact ⟨h.1.mono hSub, hTracked h.2⟩
  · exact ⟨h.1.mono hSub, h.2.imp (fun h => hSub h) (fun h => ⟨hSub h.1, h.2⟩)⟩
  · exact ⟨h.1.mono hSub, hTracked h.2.1, h.2.2.imp_left fun h => hSub h⟩
  · exact ⟨h.1.mono hSub, h.2.mono hSub⟩
  · trivial

/-- Where a monitor task's run leaves it, and what the run reported. -/
structure BlockOk (since : List Event) (id : Nat) (write : MonitorWrite) (isNew : Bool) (block : Block) : Prop where
  next : ∀ task, block.next = some task →
    ∃ phase, task = .monitor write isNew phase ∧ PhaseOk block.store since write isNew phase none
  signal : ∀ id' write' isNew', .monitorUpdated id' write' isNew' ∈ block.events →
    block.events = [.wroteLocal write.localKey write.bytes, .monitorUpdated id write isNew] ∧
      block.next = none ∧ Held since write ∧ Listed since write isNew

namespace Store

variable {s : Store} {since : List Event} {env : Env} {id : Nat} {write : MonitorWrite} {isNew : Bool}

theorem localWriteWithRetry_ok (hHeld : Held since write) (hListed : Listed since write isNew) :
    BlockOk since id write isNew (s.localWriteWithRetry env id write isNew) := by
  rw [localWriteWithRetry]
  split
  · refine ⟨by simp, ?_⟩
    split
    · simp [hHeld, hListed]
    · simp
  · refine ⟨?_, by simp⟩
    rintro task hTask
    exact ⟨.localSleep, (Option.some.inj hTask).symm, hHeld, hListed⟩

theorem writeManifestWithRetryLocked_ok (hHeld : Held since write) (hTracked : Tracked s since write) :
    BlockOk since id write isNew (s.writeManifestWithRetryLocked env id write isNew) := by
  rw [writeManifestWithRetryLocked]
  split
  · exact ⟨by simp, by simp⟩
  · have hKeys : .archived write.vssKey ∈ since ∨ write.vssKey ∈ s.monitorKeys.publishable :=
      hTracked.imp_right fun hKey => (MonitorKeySet.mem_publishable ..).mpr hKey
    split
    · rename_i hEmpty
      refine localWriteWithRetry_ok hHeld fun _ => ?_
      rcases hKeys with hArchived | hKey
      · exact .inl hArchived
      · simp [List.isEmpty_iff.mp hEmpty] at hKey
    · refine ⟨?_, by simp⟩
      rintro task hTask
      refine ⟨_, (Option.some.inj hTask).symm, hHeld, hTracked, ?_⟩
      rwa [listedKeys_manifestPayload]

theorem blobStored_ok (hHeld : Held since write) :
    BlockOk since id write isNew (s.blobStored env id write isNew) := by
  rw [blobStored]
  split
  · refine ⟨?_, by simp⟩
    rintro task hTask
    refine ⟨_, (Option.some.inj hTask).symm, hHeld, .inr ?_⟩
    simp [Publishes, MonitorKeySet.lookup_markPublishable]
  · exact localWriteWithRetry_ok hHeld fun hNew => absurd hNew (by assumption)

theorem putFundCritical_ok : BlockOk since id write isNew (s.putFundCritical write isNew) := by
  rw [putFundCritical]
  split
  · exact ⟨by simp, by simp⟩
  · refine ⟨?_, by simp⟩
    rintro task hTask
    exact ⟨_, (Option.some.inj hTask).symm, trivial⟩

theorem runMonitorJob_ok {phase : MonitorPhase} {answer : Option Answer} {block : Block}
    (hPhase : PhaseOk s since write isNew phase answer)
    (h : s.runMonitorJob env id write isNew phase answer = some block) : BlockOk since id write isNew block := by
  have hStay : ∀ (s' : Store) (next : MonitorPhase), PhaseOk s' since write isNew next none →
      BlockOk since id write isNew ⟨s', some (.monitor write isNew next), []⟩ := by
    intro s' next hNext
    refine ⟨?_, by simp⟩
    rintro task hTask
    exact ⟨next, (Option.some.inj hTask).symm, hNext⟩
  rw [runMonitorJob.eq_def] at h
  split at h
  · cases h
    exact putFundCritical_ok
  · cases h
    exact blobStored_ok hPhase
  · cases h
    exact hStay _ _ trivial
  · cases h
    exact hStay _ _ trivial
  · split at h
    · rename_i hSame
      subst hSame
      cases h
      exact blobStored_ok (.inr hPhase)
    · cases h
      refine ⟨by simp, ?_⟩
      rw [tripFenceEvents]
      split <;> simp
  · cases h
    exact hStay _ _ trivial
  · cases h
    exact hStay _ _ trivial
  · cases h
    exact putFundCritical_ok
  · split at h
    · cases h
    · cases h
      exact writeManifestWithRetryLocked_ok hPhase.1 hPhase.2
  · cases h
    refine localWriteWithRetry_ok hPhase.1 fun _ => ?_
    exact hPhase.2.imp_right fun h => ⟨_, h.1, h.2⟩
  · cases h
    exact hStay _ _ ⟨hPhase.1, hPhase.2.1⟩
  · cases h
    rename_i answer hNotOk hNotConflict
    cases answer <;> first | exact absurd rfl (hNotOk _) | exact hStay _ _ ⟨hPhase.1, hPhase.2.1⟩
  · rename_i bytes version
    cases h
    refine writeManifestWithRetryLocked_ok hPhase.1 (hPhase.2.imp_right fun hKey => ?_)
    exact (mergeManifest_keyMove (s.recordVersion monitorManifestKey version) bytes version
      (show (Task.monitor write isNew .manifestRefetch).request = _ from rfl)).publishes_mono hKey
  · cases h
    exact writeManifestWithRetryLocked_ok hPhase.1 hPhase.2
  · cases h
    exact hStay _ _ hPhase
  · cases h
    exact writeManifestWithRetryLocked_ok hPhase.1 hPhase.2
  · cases h
    exact localWriteWithRetry_ok hPhase.1 hPhase.2
  · cases h

end Store

/-! ## Every run -/

/-- The facts about the task that stands in a slot; only monitor tasks carry any. -/
def SlotOk (s : Store) (trace : List Event) (id : Nat) (slot : Slot) : Prop :=
  ∀ write isNew phase, slot.task = .monitor write isNew phase →
    ∃ since before, trace = since ++ .queued id write isNew :: before ∧
      PhaseOk s since write isNew phase slot.answer

structure DurabilityInv (w : World) : Prop where
  fresh : ∀ id slot, w.slots id = some slot → id < w.nextId
  slots : ∀ id slot, w.slots id = some slot → SlotOk w.store w.trace id slot
  gated : Gated w.trace
  ended : ∀ id write isNew, .monitorUpdated id write isNew ∈ w.trace → w.slots id = none ∧ id < w.nextId

theorem SlotOk.mono {s s' : Store} {trace later : List Event} {id : Nat} {slot : Slot}
    (hKeys : ∀ key, s.Publishes key → s'.Publishes key ∨ .archived key ∈ later)
    (h : SlotOk s trace id slot) : SlotOk s' (later ++ trace) id slot := by
  intro write isNew phase hTask
  obtain ⟨since, before, rfl, hPhase⟩ := h write isNew phase hTask
  refine ⟨later ++ since, before, (List.append_assoc ..).symm, hPhase.mono (List.subset_append_right ..) ?_⟩
  intro hKey
  exact (hKeys _ hKey).imp_right fun h => List.mem_append_left _ h

theorem gated_cons {event : Event} {trace : List Event} (hTrace : Gated trace)
    (hEvent : ∀ id write isNew, event = .monitorUpdated id write isNew →
      ∃ since before, trace = since ++ .queued id write isNew :: before ∧ Durable since write isNew) :
    Gated (event :: trace) := by
  intro later id write isNew earlier hSplit
  cases later with
  | nil =>
    obtain ⟨rfl, rfl⟩ := List.cons.inj hSplit
    exact hEvent id write isNew rfl
  | cons first rest => exact hTrace rest id write isNew earlier (List.cons.inj hSplit).2

theorem gated_append {events trace : List Event} (hTrace : Gated trace)
    (hEvents : ∀ id write isNew, .monitorUpdated id write isNew ∉ events) : Gated (events ++ trace) := by
  induction events with
  | nil => exact hTrace
  | cons event rest ih =>
    refine gated_cons (ih fun id write isNew h => hEvents id write isNew (List.mem_cons_of_mem _ h)) ?_
    rintro id write isNew rfl
    exact absurd List.mem_cons_self (hEvents id write isNew)

theorem not_mem_startedEvents (next : Option Task) (id : Nat) (write : MonitorWrite) (isNew : Bool) :
    .monitorUpdated id write isNew ∉ startedEvents next := by
  intro hMem
  obtain ⟨request, hStarted⟩ := startedEvents_started hMem
  cases hStarted

/-- What a run to the next await, or a call, must meet for the facts to go on. -/
structure LandOk (w : World) (id : Nat) (block : Block) (prev : Option Nat) : Prop where
  keys : ∀ key, w.store.Publishes key → block.store.Publishes key ∨ .archived key ∈ block.events
  next : ∀ task, block.next = some task → SlotOk block.store (w.land id block prev).trace id ⟨task, none, prev⟩
  signal : ∀ id' write isNew, .monitorUpdated id' write isNew ∈ block.events →
    id' = id ∧ block.next = none ∧ block.events = [.wroteLocal write.localKey write.bytes, .monitorUpdated id write isNew] ∧
      ∃ since before, w.trace = since ++ .queued id write isNew :: before ∧ Held since write ∧ Listed since write isNew
  unseen : ∀ write isNew, .monitorUpdated id write isNew ∉ w.trace

theorem LandOk.gated {w : World} {id : Nat} {block : Block} {prev : Option Nat} (hInv : DurabilityInv w)
    (h : LandOk w id block prev) : Gated (w.land id block prev).trace := by
  rw [World.land_trace, List.reverse_append, List.append_assoc]
  refine gated_append ?_ (by simpa using not_mem_startedEvents block.next)
  by_cases hSignal : ∃ id' write isNew, .monitorUpdated id' write isNew ∈ block.events
  · obtain ⟨id', write, isNew, hMem⟩ := hSignal
    obtain ⟨rfl, hNext, hEvents, since, before, hTrace, hHeld, hListed⟩ := h.signal id' write isNew hMem
    rw [hEvents]
    refine gated_cons (gated_cons hInv.gated (by simp)) ?_
    intro id'' write' isNew' hEvent
    obtain ⟨rfl, rfl, rfl⟩ := Event.monitorUpdated.inj hEvent
    refine ⟨.wroteLocal write.localKey write.bytes :: since, before, ?_, ?_⟩
    · simp [hTrace]
    · exact ⟨hHeld.mono (List.subset_cons_self ..), List.mem_cons_self, hListed.mono (List.subset_cons_self ..)⟩
  · exact gated_append hInv.gated fun id' write isNew hMem => hSignal ⟨id', write, isNew, by simpa using hMem⟩

theorem LandOk.inv {w : World} {id nextId : Nat} {block : Block} {prev : Option Nat} (hInv : DurabilityInv w)
    (h : LandOk w id block prev) (hId : id < nextId) (hNext : w.nextId ≤ nextId) :
    DurabilityInv { w.land id block prev with nextId := nextId } := by
  have hKeys : ∀ key, w.store.Publishes key →
      block.store.Publishes key ∨ .archived key ∈ (block.events ++ startedEvents block.next).reverse := by
    intro key hKey
    exact (h.keys key hKey).imp_right fun h => by simp [h]
  refine ⟨?_, ?_, h.gated hInv, ?_⟩
  · exact World.land_fresh hInv.fresh hId hNext block prev
  · intro other slot hSlot
    rw [World.land_slots] at hSlot
    split at hSlot
    · rename_i hOther
      obtain ⟨task, hTask, rfl⟩ := Option.map_eq_some_iff.mp hSlot
      rw [hOther]
      exact h.next task hTask
    · exact (hInv.slots other slot hSlot).mono hKeys
  · intro other write isNew hMem
    simp only [World.land_trace, List.mem_append, List.mem_reverse] at hMem
    rw [World.land_slots]
    rcases hMem with (hMem | hMem) | hMem
    · obtain ⟨rfl, hEnd, -⟩ := h.signal other write isNew hMem
      simp [hEnd, hId]
    · exact absurd hMem (not_mem_startedEvents _ _ _ _)
    · have hOther : other ≠ id := by
        rintro rfl
        exact h.unseen write isNew hMem
      obtain ⟨hNone, hLt⟩ := hInv.ended other write isNew hMem
      rw [if_neg hOther]
      exact ⟨hNone, hLt.trans_le hNext⟩

theorem DurabilityInv.call {w : World} (hInv : DurabilityInv w) (call : Call) :
    LandOk w w.nextId (w.store.call w.nextId call).toBlock (w.store.call w.nextId call).prev := by
  refine ⟨?_, ?_, ?_, ?_⟩
  · exact fun key => (w.store.call_publishes w.nextId call key).2
  · intro task hTask write isNew phase hMonitor
    rcases w.store.call_next w.nextId call with ⟨write', isNew', hNext, hEvents⟩ | ⟨hOther, -⟩
    · rw [hNext] at hTask
      cases hTask
      cases hMonitor
      exact ⟨[], w.trace, by simp [World.land_trace, hEvents, hNext, startedEvents, Task.request], trivial⟩
    · exact absurd (hTask.trans (congrArg some hMonitor)) (hOther write isNew phase)
  · intro id' write isNew hMem
    rcases w.store.call_next w.nextId call with ⟨write', isNew', hNext, hEvents⟩ | ⟨-, -, hQuiet⟩
    · simp [hEvents] at hMem
    · exact absurd hMem (hQuiet _ _ _)
  · intro write isNew hMem
    exact absurd (hInv.ended _ write isNew hMem).2 (lt_irrefl _)

theorem deliver_putOk {server : Server} {key : String} {value : Bytes} {version new : Nat} {delivery : Delivery}
    (h : (server.deliver (.put key value version) delivery).2 = .putOk new) :
    .stored key value ∈ deliveryEvents server (.put key value version) delivery := by
  have hAnswered := server.deliver_answered (.put key value version) delivery
  by_cases hVersion : server.version key = version
  · cases delivery <;> simp_all [deliveryEvents, Server.deliver]
  · exfalso
    cases delivery <;> simp [Server.deliver, Server.once, hVersion] at h

theorem deliver_found {server : Server} {key : String} {value : Bytes} {version : Nat} {delivery : Delivery}
    (h : (server.deliver (.get key) delivery).2 = .found value version) :
    .fetched key value ∈ deliveryEvents server (.get key) delivery := by
  simp [deliveryEvents, h]

theorem not_mem_deliveryEvents (server : Server) (request : Request) (delivery : Delivery) (id : Nat)
    (write : MonitorWrite) (isNew : Bool) : .monitorUpdated id write isNew ∉ deliveryEvents server request delivery := by
  intro hMem
  obtain ⟨key, bytes, hShown | hShown⟩ := deliveryEvents_shown hMem <;> cases hShown

theorem PhaseOk.answered {s : Store} {since : List Event} {write : MonitorWrite} {isNew : Bool}
    {phase : MonitorPhase} {server : Server} {request : Request} (delivery : Delivery)
    (hRequest : (Task.monitor write isNew phase).request = some request)
    (h : PhaseOk s since write isNew phase none) :
    PhaseOk s ((deliveryEvents server request delivery).reverse ++ since) write isNew phase
      (some (server.deliver request delivery).2) := by
  have hMono : PhaseOk s ((deliveryEvents server request delivery).reverse ++ since) write isNew phase none :=
    h.mono (List.subset_append_right ..) fun hKey => .inl hKey
  cases phase with
  | put version =>
    cases hRequest
    cases hAnswer : (server.deliver (.put write.vssKey write.bytes version) delivery).2 <;> try trivial
    exact .inl (List.mem_append_left _ (List.mem_reverse.mpr (deliver_putOk hAnswer)))
  | refetch =>
    cases hRequest
    cases hAnswer : (server.deliver (.get write.vssKey) delivery).2 <;> try trivial
    exact List.mem_append_left _ (List.mem_reverse.mpr (deliver_found hAnswer))
  | manifestPut payload version =>
    cases hRequest
    cases hAnswer : (server.deliver (.put monitorManifestKey payload version) delivery).2 <;> try exact hMono
    obtain ⟨hHeld, -, hListed⟩ := hMono
    refine ⟨hHeld, hListed.imp_right fun hKey => ⟨?_, hKey⟩⟩
    exact List.mem_append_left _ (List.mem_reverse.mpr (deliver_putOk hAnswer))
  | manifestRefetch => exact hMono
  | queued | sleep | manifestLock | manifestSleep | localSleep => cases hRequest

theorem DurabilityInv.deliver {w : World} (hInv : DurabilityInv w) {id : Nat} {slot : Slot} {request : Request}
    (hSlot : w.slots id = some slot) (hRequest : slot.task.request = some request) (hAnswer : slot.answer = none)
    (delivery : Delivery) : DurabilityInv (w.stepDeliver id slot request delivery) := by
  refine ⟨?_, ?_, gated_append hInv.gated ?_, ?_⟩
  · intro other slot' hOther
    rw [World.stepDeliver_slots] at hOther
    split at hOther
    · rename_i hId
      exact hId ▸ hInv.fresh id slot hSlot
    · exact hInv.fresh other slot' hOther
  · intro other slot' hOther
    rw [World.stepDeliver_slots] at hOther
    split at hOther
    · rename_i hId
      cases hOther
      subst hId
      intro write isNew phase hTask
      obtain ⟨since, before, hTrace, hPhase⟩ := hInv.slots other slot hSlot write isNew phase hTask
      rw [hAnswer] at hPhase
      rw [hTask] at hRequest
      refine ⟨(deliveryEvents w.server request delivery).reverse ++ since, before, ?_, hPhase.answered delivery hRequest⟩
      rw [List.append_assoc, ← hTrace]
      rfl
    · exact (hInv.slots other slot' hOther).mono fun key hKey => .inl hKey
  · intro id' write isNew hMem
    exact not_mem_deliveryEvents _ _ _ _ _ _ (List.mem_reverse.mp hMem)
  · intro other write isNew hMem
    rcases List.mem_append.mp hMem with hMem | hMem
    · exact absurd (List.mem_reverse.mp hMem) (not_mem_deliveryEvents _ _ _ _ _ _)
    · obtain ⟨hNone, hLt⟩ := hInv.ended other write isNew hMem
      refine ⟨?_, hLt⟩
      rw [World.stepDeliver_slots, if_neg]
      · exact hNone
      · rintro rfl
        simp [hSlot] at hNone

theorem Store.resume_other {s : Store} {env : Env} {id : Nat} {task : Task} {answer : Option Answer} {block : Block}
    (hTask : ∀ write isNew phase, task ≠ .monitor write isNew phase)
    (h : s.resume env id task answer = some block) :
    (∀ write isNew phase, block.next ≠ some (.monitor write isNew phase)) ∧
      ∀ id' write isNew, .monitorUpdated id' write isNew ∉ block.events := by
  have hFrame := resume_frame h
  constructor
  · intro write isNew phase hNext
    cases hFrame.next _ hNext with
    | monitor _ _ before => exact hTask write isNew before rfl
  · intro id' write isNew hMem
    rcases hFrame.events _ hMem with hFenced | ⟨write', isNew', phase, hMonitor, -⟩
    · cases hFenced
    · exact hTask write' isNew' phase hMonitor

theorem DurabilityInv.resume {w : World} (hInv : DurabilityInv w) {id : Nat} {slot : Slot} {env : Env}
    {block : Block} (hSlot : w.slots id = some slot)
    (hBlock : w.store.resume env id slot.task slot.answer = some block) : LandOk w id block slot.prev := by
  have hKeys : ∀ key, w.store.Publishes key → block.store.Publishes key ∨ .archived key ∈ block.events :=
    fun key hKey => .inl ((Store.resume_keyMove hBlock).publishes_mono hKey)
  have hUnseen : ∀ write isNew, .monitorUpdated id write isNew ∉ w.trace := by
    intro write isNew hMem
    simp [(hInv.ended id write isNew hMem).1] at hSlot
  by_cases hMonitor : ∃ write isNew phase, slot.task = .monitor write isNew phase
  · obtain ⟨write, isNew, phase, hTask⟩ := hMonitor
    obtain ⟨since, before, hTrace, hPhase⟩ := hInv.slots id slot hSlot write isNew phase hTask
    rw [hTask] at hBlock
    have hOk := Store.runMonitorJob_ok hPhase hBlock
    refine ⟨hKeys, ?_, ?_, hUnseen⟩
    · intro task hNext write' isNew' phase' hTask'
      obtain ⟨next, hPhase', hNextOk⟩ := hOk.next task hNext
      cases hTask'.symm.trans hPhase'
      refine ⟨(block.events ++ startedEvents block.next).reverse ++ since, before, ?_, ?_⟩
      · rw [World.land_trace, hTrace, List.append_assoc]
      · exact hNextOk.mono (List.subset_append_right ..) fun hKey => .inl hKey
    · intro id' write' isNew' hMem
      obtain ⟨hEvents, hNext, hHeld, hListed⟩ := hOk.signal id' write' isNew' hMem
      rw [hEvents] at hMem
      simp only [List.mem_cons, reduceCtorEq, false_or, List.not_mem_nil, or_false] at hMem
      cases hMem
      exact ⟨rfl, hNext, hEvents, since, before, hTrace, hHeld, hListed⟩
  · simp only [not_exists] at hMonitor
    obtain ⟨hNext, hQuiet⟩ := Store.resume_other hMonitor hBlock
    refine ⟨hKeys, ?_, ?_, hUnseen⟩
    · intro task hTask write isNew phase hPhase
      exact absurd (hTask.trans (congrArg some hPhase)) (hNext write isNew phase)
    · intro id' write isNew hMem
      exact absurd hMem (hQuiet id' write isNew)

theorem DurabilityInv.step {w w' : World} {act : Act} (hInv : DurabilityInv w) (h : w.step act = some w') :
    DurabilityInv w' := by
  cases act with
  | call call =>
    obtain ⟨-, rfl⟩ := World.step_call_iff.mp h
    exact (hInv.call call).inv hInv (Nat.lt_succ_self _) (Nat.le_succ _)
  | deliver id delivery =>
    obtain ⟨slot, request, hSlot, hRequest, hAnswer, rfl⟩ := World.step_deliver_iff.mp h
    exact hInv.deliver hSlot hRequest hAnswer delivery
  | resume id env =>
    obtain ⟨slot, block, hSlot, -, hBlock, rfl⟩ := World.step_resume_iff.mp h
    exact (hInv.resume hSlot hBlock).inv hInv (hInv.fresh id slot hSlot) le_rfl
  | foreign key value =>
    cases h
    exact ⟨hInv.fresh, hInv.slots, hInv.gated, hInv.ended⟩
  | restart seed =>
    cases h
    refine ⟨by simp [World.stepRestart, World.see], by simp [World.stepRestart, World.see], ?_, ?_⟩
    · exact gated_cons hInv.gated (by simp)
    · intro id write isNew hMem
      rcases List.mem_cons.mp hMem with hMem | hMem
      · cases hMem
      · exact ⟨rfl, (hInv.ended id write isNew hMem).2⟩

theorem durabilityInv_start (server : Server) (monitors archivedMonitors : StringMap LocalMonitor)
    (fencedFlag : Bool) (seed : Seed) :
    DurabilityInv (.start server monitors archivedMonitors fencedFlag seed) := by
  refine ⟨by simp [World.start], by simp [World.start], ?_, by simp [World.start]⟩
  refine gated_cons ?_ (by simp)
  intro later id write isNew earlier hSplit
  simp at hSplit

/-! ## Writes that the fence stops -/

/-- A monitor task that looks at the fence again before it can complete. -/
def Task.haltsAtFence : Task → Bool
  | .monitor _ _ .queued | .monitor _ _ .sleep | .monitor _ _ .manifestLock | .monitor _ _ .manifestRefetch
  | .monitor _ _ .manifestSleep => true
  | .monitor _ isNew (.put _) | .monitor _ isNew .refetch => isNew
  | _ => false

theorem Store.resume_halts {s : Store} {env : Env} {id : Nat} {task : Task} {answer : Option Answer} {block : Block}
    (hFenced : s.fenced = true) (hHalts : task.haltsAtFence = true)
    (h : s.resume env id task answer = some block) :
    (∀ next, block.next = some next → next.haltsAtFence = true) ∧
      ∀ id' write isNew, .monitorUpdated id' write isNew ∉ block.events := by
  cases task with
  | monitor write isNew phase =>
    have hManifest : ∀ s' : Store, s'.fenced = true →
        s'.writeManifestWithRetryLocked env id write isNew = ⟨s'.unlockManifest, none, []⟩ := by
      intro s' hFenced
      rw [writeManifestWithRetryLocked, if_pos hFenced]
    have hPut : s.putFundCritical write isNew = ⟨s, none, []⟩ := by
      rw [putFundCritical, if_pos hFenced]
    rw [resume, runMonitorJob.eq_def] at h
    split at h <;> (try split at h) <;> cases h
    all_goals first
      | cases hHalts; done
      | rw [hPut]; simp
      | rw [hManifest _ (by simpa using hFenced)]; simp
      | simp [tripFenceEvents, hFenced]; done
      | simp [Task.haltsAtFence]; done
      | have hNew : isNew = true := hHalts
        simp [blobStored, hNew, Task.haltsAtFence]
  | cm | write | delete | archive | archiveDelete | backfill | fetch => cases hHalts

/-- A write that the fence has caught, or that has ended, and was never reported. -/
structure Halted (w : World) (id : Nat) : Prop where
  caught : (∃ slot, w.slots id = some slot ∧ slot.task.haltsAtFence = true ∧ w.store.fenced = true) ∨
    w.slots id = none
  old : id < w.nextId
  unseen : ∀ write isNew, .monitorUpdated id write isNew ∉ w.trace

theorem FenceMove.fenced_mono {s : Store} {block : Block} (h : FenceMove s block) (hFenced : s.fenced = true) :
    block.store.fenced = true := by
  cases h with
  | kept hSame => rw [hSame, hFenced]
  | tripped hBefore hAfter => exact hAfter

theorem Halted.land {w : World} {id other nextId : Nat} {block : Block} {prev : Option Nat} (h : Halted w id)
    (hOther : other ≠ id) (hLand : LandOk w other block prev) (hMove : FenceMove w.store block)
    (hNext : w.nextId ≤ nextId) : Halted { w.land other block prev with nextId := nextId } id := by
  refine ⟨?_, h.old.trans_le hNext, ?_⟩
  · rw [World.land_slots, if_neg hOther.symm]
    refine h.caught.imp_left ?_
    rintro ⟨slot, hSlot, hHalts, hFenced⟩
    exact ⟨slot, hSlot, hHalts, hMove.fenced_mono hFenced⟩
  · intro write isNew hMem
    simp only [World.land_trace, List.mem_append, List.mem_reverse] at hMem
    rcases hMem with (hMem | hMem) | hMem
    · exact hOther (hLand.signal id write isNew hMem).1.symm
    · exact not_mem_startedEvents _ _ _ _ hMem
    · exact h.unseen write isNew hMem

theorem Halted.step {w w' : World} {id : Nat} {act : Act} (hInv : DurabilityInv w) (h : Halted w id)
    (hStep : w.step act = some w') : Halted w' id := by
  cases act with
  | call call =>
    obtain ⟨-, rfl⟩ := World.step_call_iff.mp hStep
    exact h.land h.old.ne' (hInv.call call) (w.store.call_fenceMove w.nextId call) (Nat.le_succ _)
  | deliver other delivery =>
    obtain ⟨slot, request, hSlot, hRequest, hAnswer, rfl⟩ := World.step_deliver_iff.mp hStep
    refine ⟨?_, h.old, ?_⟩
    · rw [World.stepDeliver_slots]
      split
      · rename_i hId
        subst hId
        rcases h.caught with ⟨slot', hSlot', hHalts, hFenced⟩ | hNone
        · cases hSlot.symm.trans hSlot'
          exact .inl ⟨_, rfl, hHalts, hFenced⟩
        · simp [hSlot] at hNone
      · exact h.caught
    · intro write isNew hMem
      rcases List.mem_append.mp hMem with hMem | hMem
      · exact not_mem_deliveryEvents _ _ _ _ _ _ (List.mem_reverse.mp hMem)
      · exact h.unseen write isNew hMem
  | resume other env =>
    obtain ⟨slot, block, hSlot, -, hBlock, rfl⟩ := World.step_resume_iff.mp hStep
    by_cases hOther : other = id
    · subst hOther
      rcases h.caught with ⟨slot', hSlot', hHalts, hFenced⟩ | hNone
      · cases hSlot.symm.trans hSlot'
        obtain ⟨hNext, hQuiet⟩ := Store.resume_halts hFenced hHalts hBlock
        refine ⟨?_, h.old, ?_⟩
        · rw [World.land_slots, if_pos rfl]
          cases hTask : block.next with
          | none => exact .inr rfl
          | some task =>
            exact .inl ⟨_, rfl, hNext task hTask, (Store.resume_fenceMove hBlock).fenced_mono hFenced⟩
        · intro write isNew hMem
          simp only [World.land_trace, List.mem_append, List.mem_reverse] at hMem
          rcases hMem with (hMem | hMem) | hMem
          · exact hQuiet _ _ _ hMem
          · exact not_mem_startedEvents _ _ _ _ hMem
          · exact h.unseen write isNew hMem
      · simp [hSlot] at hNone
    · exact h.land hOther (hInv.resume hSlot hBlock) (Store.resume_fenceMove hBlock) le_rfl
  | foreign key value =>
    cases hStep
    exact ⟨h.caught, h.old, h.unseen⟩
  | restart seed =>
    cases hStep
    refine ⟨.inr rfl, h.old, ?_⟩
    intro write isNew hMem
    rcases List.mem_cons.mp hMem with hMem | hMem
    · cases hMem
    · exact h.unseen write isNew hMem

/-! ## The gate -/

/-- From any startup state, with any other client, any failures and any order of steps: every
completion comes after all that it stands for, and a write that was waiting in its chain, between
two attempts, for the manifest lock or for a fetched manifest when the store fenced, or that was
new and waiting for its blob, is never completed. -/
theorem monitorUpdated_gated (server : Server) (monitors archivedMonitors : StringMap LocalMonitor)
    (fencedFlag : Bool) (seed : Seed) (acts : List Act) (w : World)
    (hRun : exec World.step (.start server monitors archivedMonitors fencedFlag seed) acts = some w) :
    Gated w.trace ∧
      ∀ id slot, w.store.fenced = true → w.slots id = some slot → slot.task.haltsAtFence = true →
        ∀ acts' w', exec World.step w acts' = some w' →
          ∀ write isNew, .monitorUpdated id write isNew ∉ w'.trace := by
  have hInv : DurabilityInv w :=
    exec_inv_all (fun _ _ _ hInv hStep => hInv.step hStep)
      (durabilityInv_start server monitors archivedMonitors fencedFlag seed) hRun
  refine ⟨hInv.gated, ?_⟩
  intro id slot hFenced hSlot hHalts acts' w' hRun'
  have hHalted : Halted w id := by
    refine ⟨.inl ⟨slot, hSlot, hHalts, hFenced⟩, hInv.fresh id slot hSlot, ?_⟩
    intro write isNew hMem
    simp [(hInv.ended id write isNew hMem).1] at hSlot
  have hEnd : DurabilityInv w' ∧ Halted w' id :=
    exec_inv_all (P := fun w => DurabilityInv w ∧ Halted w id)
      (fun _ _ _ h hStep => ⟨h.1.step hStep, h.2.step h.1 hStep⟩) ⟨hInv, hHalted⟩ hRun'
  exact hEnd.2.unseen

/-- The channel manager belongs to another client. -/
def contestedManager : World :=
  .start (Function.update (fun _ => none) channelManagerVssKey (some (.raw [1], 1))) ∅ ∅ false ⟨fun _ => none, ∅⟩

/-- A monitor update's put is on its way, with a second update behind it, while a
channel-manager write fences. -/
def managerFences : List Act :=
  [.call (.queueMonitorWrite (sampleWrite [2]) false), .resume 0 calm,
   .call (.queueMonitorWrite (sampleWrite [4]) false), .call (.cmRemoteWriteBounded (.raw [3])),
   .deliver 2 .ok, .resume 2 calm, .deliver 2 .ok, .resume 2 calm]

theorem monitorUpdated_gated_managerFences :
    ∃ w slot, exec World.step contestedManager managerFences = some w ∧ Gated w.trace ∧
      w.slots 1 = some slot ∧ slot.task = .monitor (sampleWrite [4]) false .queued ∧
      ∀ acts w', exec World.step w acts = some w' → ∀ write isNew, .monitorUpdated 1 write isNew ∉ w'.trace := by
  have hEnd : (exec World.step contestedManager managerFences).map (fun w =>
      (w.store.fenced, (w.slots 1).map Slot.task)) =
        some (true, some (.monitor (sampleWrite [4]) false .queued)) := by decide
  obtain ⟨w, hRun, hSeen⟩ := Option.map_eq_some_iff.mp hEnd
  obtain ⟨hFenced, hTask⟩ := Prod.mk.inj hSeen
  obtain ⟨slot, hSlot, hQueued⟩ := Option.map_eq_some_iff.mp hTask
  obtain ⟨hGated, hHalts⟩ := monitorUpdated_gated _ _ _ _ _ managerFences w hRun
  exact ⟨w, slot, hRun, hGated, hSlot, hQueued, hHalts 1 slot hFenced hSlot (by rw [hQueued]; rfl)⟩

/-- The update in flight at the fence is still completed, once its put is acknowledged. -/
theorem inFlight_update_completes :
    ∃ w w' slot, exec World.step contestedManager managerFences = some w ∧ w.trace.head? = some .fenced ∧
      w.slots 0 = some slot ∧ slot.task = .monitor (sampleWrite [2]) false (.put 0) ∧
      exec World.step w [.deliver 0 .ok, .resume 0 calm] = some w' ∧
      .monitorUpdated 0 (sampleWrite [2]) false ∈ w'.trace := by
  have hFence : (exec World.step contestedManager managerFences).map (fun w =>
      (decide (w.trace.head? = some .fenced), (w.slots 0).map Slot.task)) =
        some (true, some (.monitor (sampleWrite [2]) false (.put 0))) := by decide
  obtain ⟨w, hRun, hSeen⟩ := Option.map_eq_some_iff.mp hFence
  simp only [Prod.mk.injEq, decide_eq_true_eq] at hSeen
  obtain ⟨slot, hSlot, hTask⟩ := Option.map_eq_some_iff.mp hSeen.2
  have hSignal : (exec World.step contestedManager (managerFences ++ [.deliver 0 .ok, .resume 0 calm])).map
      (fun w => decide (.monitorUpdated 0 (sampleWrite [2]) false ∈ w.trace)) = some true := by decide
  obtain ⟨w', hRun', hMem⟩ := Option.map_eq_some_iff.mp hSignal
  rw [exec_append, hRun, Option.bind_some] at hRun'
  exact ⟨w, w', slot, hRun, hSeen.1, hSlot, hTask, hRun', of_decide_eq_true hMem⟩

end WalletCore.Vss
