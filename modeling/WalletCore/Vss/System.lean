import WalletCore.Lib.Transition
import WalletCore.Vss.Store

/-! # The store and its server

The calls that reach the store, its tasks, and the server, one step at a time: a call, the
delivery of a request that a task waits for, a task's run to its next await, a write by
another client, and a restart of the process, which keeps the disk and drops the tasks.
-/

namespace WalletCore.Vss

open Lib

inductive Call where
  | queueMonitorWrite (write : MonitorWrite) (isNew : Bool)
  | cmRemoteWriteBounded (bytes : Bytes)
  | cmRetryPending
  | putLww (key : String) (bytes : Bytes)
  | putWithMerge (key : String) (bytes : Bytes)
  | deleteBestEffort (key : String)
  | archiveMonitor (name : String) (localOk : Bool)
  | backfillManifestIfNeeded
  | fetchVersioned (key : String)
deriving DecidableEq

/-- A call's effect: the store after it, the task it spawned, and the task that one waits for. -/
structure Called extends Block where
  prev : Option Nat

namespace Store

def returned (s : Store) (events : List Event) : Called := ⟨⟨s, none, events⟩, none⟩

def spawn (s : Store) (task : Task) (events : List Event) : Called := ⟨⟨s, some task, events⟩, none⟩

/-- Chains the task after the last one queued for the key. -/
def enqueue (s : Store) (id : Nat) (key : String) (task : Task) (events : List Event) : Called :=
  ⟨⟨{ s with chains := Function.update s.chains key (some id) }, some task, events⟩, s.chains key⟩

/-- The names and the tracking that a monitor write brings, before the fence is looked at. -/
@[simps] def noteMonitor (s : Store) (write : MonitorWrite) (isNew : Bool) : Store :=
  { s with
    nameToVssKey := s.nameToVssKey.insert write.monitorName write.vssKey
    monitorKeys := if isNew then s.monitorKeys.insertUnverified write.vssKey else s.monitorKeys }

def queueMonitorWrite (s : Store) (id : Nat) (write : MonitorWrite) (isNew : Bool) : Called :=
  if s.fenced then (s.noteMonitor write isNew).returned []
  else (s.noteMonitor write isNew).enqueue id write.vssKey (.monitor write isNew .queued) [.queued id write isNew]

/-- The first stretch of a channel-manager attempt, which its caller runs. -/
def startCmAttempt (s : Store) (bytes : Bytes) (byTick : Bool) : Called :=
  if s.fenced then s.returned []
  else s.spawn (.cm bytes byTick (.put (s.cachedVersion channelManagerVssKey))) []

def cmRemoteWriteBounded (s : Store) (bytes : Bytes) : Called :=
  if s.fenced ∨ s.cmPending.isSome then s.returned [] else s.startCmAttempt bytes false

def cmRetryPending (s : Store) : Called :=
  match s.cmPending with
  | none => s.returned []
  | some bytes => s.startCmAttempt bytes true

/-- The move of the monitor file to the archive, when the disk allows it. -/
def archiveLocal (s : Store) (name : String) (localOk : Bool) : Store :=
  match s.monitors.lookup name with
  | some file =>
    if localOk then
      { s with
        archivedMonitors := s.archivedMonitors.insert name file
        monitors := s.monitors.erase name }
    else s
  | none => s

@[simps] def forgetMonitor (s : Store) (name key : String) : Store :=
  { s with
    nameToVssKey := s.nameToVssKey.erase name
    monitorKeys := s.monitorKeys.remove key
    chains := Function.update s.chains key none }

def archiveMonitor (s : Store) (name : String) (localOk : Bool) : Called :=
  let s := s.archiveLocal name localOk
  match s.nameToVssKey.lookup name with
  | none => s.returned []
  | some key =>
    let s := s.forgetMonitor name key
    if s.fenced then s.returned [.archived key] else s.spawn (.archive key .spawned) [.archived key]

def backfillManifestIfNeeded (s : Store) : Called :=
  if s.monitorKeys ≠ ∅ ∧ (s.versions monitorManifestKey).isNone then s.spawn (.backfill .spawned) []
  else s.returned []

def call (s : Store) (id : Nat) : Call → Called
  | .queueMonitorWrite write isNew => s.queueMonitorWrite id write isNew
  | .cmRemoteWriteBounded bytes => s.cmRemoteWriteBounded bytes
  | .cmRetryPending => s.cmRetryPending
  | .putLww key bytes => s.enqueue id key (.write key bytes .lww .queued) []
  | .putWithMerge key bytes => s.enqueue id key (.write key bytes .merge .queued) []
  | .deleteBestEffort key => s.enqueue id key (.delete key none) []
  | .archiveMonitor name localOk => s.archiveMonitor name localOk
  | .backfillManifestIfNeeded => s.backfillManifestIfNeeded
  | .fetchVersioned key => s.spawn (.fetch key) []

end Store

/-- What the startup phases resolve before the store is built. -/
structure Seed where
  versions : String → Option Nat
  monitorKeys : MonitorKeySet

/-- A new session over the disk of the last one: every monitor file is registered again. -/
def Store.start (monitors archivedMonitors : StringMap LocalMonitor) (fencedFlag : Bool) (seed : Seed) : Store where
  versions := seed.versions
  monitorKeys := monitors.toPairs.foldl (fun keys file => keys.insertUnverified file.2.vssKey) seed.monitorKeys
  nameToVssKey := .ofPairs (monitors.toPairs.map fun file => (file.1, file.2.vssKey))
  manifestLock := false
  chains := fun _ => none
  fenced := fencedFlag
  cmPending := none
  monitors := monitors
  archivedMonitors := archivedMonitors
  fencedFlag := fencedFlag

/-! ## Steps -/

structure Slot where
  task : Task
  answer : Option Answer
  prev : Option Nat
deriving DecidableEq

structure World where
  server : Server
  store : Store
  slots : Nat → Option Slot
  nextId : Nat
  trace : List Event

inductive Act where
  | call (call : Call)
  | deliver (id : Nat) (delivery : Delivery)
  | resume (id : Nat) (env : Env)
  | foreign (key : String) (value : Option Bytes)
  | restart (seed : Seed)

def startedEvents (next : Option Task) : List Event := ((next.bind Task.request).map .started).toList

def deliveryEvents (server : Server) (request : Request) (delivery : Delivery) : List Event :=
  match request, (server.deliver request delivery).2 with
  | .put key value version, _ =>
    if delivery ≠ .failed ∧ server.version key = version then [.stored key value] else []
  | .get key, .found value _ => [.fetched key value]
  | _, _ => []

/-! ## What is left alone, and what is seen -/

namespace Store

theorem archiveLocal_eq (s : Store) (name : String) (localOk : Bool) :
    ∃ files archived, s.archiveLocal name localOk = { s with monitors := files, archivedMonitors := archived } := by
  rw [archiveLocal]
  split
  · split
    · exact ⟨_, _, rfl⟩
    · exact ⟨s.monitors, s.archivedMonitors, rfl⟩
  · exact ⟨s.monitors, s.archivedMonitors, rfl⟩

theorem archiveLocal_chains (s : Store) (name : String) (localOk : Bool) :
    (s.archiveLocal name localOk).chains = s.chains := by
  obtain ⟨files, archived, hLocal⟩ := s.archiveLocal_eq name localOk
  rw [hLocal]

theorem archiveLocal_nameToVssKey (s : Store) (name : String) (localOk : Bool) :
    (s.archiveLocal name localOk).nameToVssKey = s.nameToVssKey := by
  obtain ⟨files, archived, hLocal⟩ := s.archiveLocal_eq name localOk
  rw [hLocal]

theorem archiveLocal_monitorKeys (s : Store) (name : String) (localOk : Bool) :
    (s.archiveLocal name localOk).monitorKeys = s.monitorKeys := by
  obtain ⟨files, archived, hLocal⟩ := s.archiveLocal_eq name localOk
  rw [hLocal]

theorem archiveLocal_fenced (s : Store) (name : String) (localOk : Bool) :
    (s.archiveLocal name localOk).fenced = s.fenced := by
  obtain ⟨files, archived, hLocal⟩ := s.archiveLocal_eq name localOk
  rw [hLocal]

end Store

theorem startedEvents_started {next : Option Task} {event : Event} (hMem : event ∈ startedEvents next) :
    ∃ request, event = .started request := by
  rw [startedEvents, Option.mem_toList, Option.map_eq_some_iff] at hMem
  obtain ⟨request, -, rfl⟩ := hMem
  exact ⟨request, rfl⟩

theorem deliveryEvents_shown {server : Server} {request : Request} {delivery : Delivery} {event : Event}
    (hMem : event ∈ deliveryEvents server request delivery) :
    ∃ key bytes, event = .stored key bytes ∨ event = .fetched key bytes := by
  rw [deliveryEvents.eq_def] at hMem
  split at hMem
  · split at hMem
    · exact ⟨_, _, .inl (List.mem_singleton.mp hMem)⟩
    · cases hMem
  · exact ⟨_, _, .inr (List.mem_singleton.mp hMem)⟩
  · cases hMem

/-! ## The steps of the world -/

namespace World

def see (w : World) (events : List Event) : World := { w with trace := events.reverse ++ w.trace }

def setSlot (w : World) (id : Nat) (slot : Option Slot) : World :=
  { w with slots := Function.update w.slots id slot }

/-- The end of a task's run: it now stands at its next await, or is gone. -/
def land (w : World) (id : Nat) (block : Block) (prev : Option Nat) : World :=
  let w := { w with store := block.store }
  (w.setSlot id (block.next.map fun task => ⟨task, none, prev⟩)).see (block.events ++ startedEvents block.next)

/-- Whether the background processor, or the timer tick, is inside an attempt. -/
def cmBusy (w : World) (byTick : Bool) : Bool :=
  (List.range w.nextId).any fun id =>
    match w.slots id with
    | some ⟨.cm _ tick _, _, _⟩ => tick == byTick
    | _ => false

def callable (w : World) : Call → Bool
  | .cmRemoteWriteBounded _ => !w.cmBusy false
  | .cmRetryPending => !w.cmBusy true
  | _ => true

/-- A chained task runs once its predecessor is gone. -/
def ready (w : World) (slot : Slot) : Bool :=
  match slot.prev with
  | some id => (w.slots id).isNone
  | none => true

def stepCall (w : World) (call : Call) : World :=
  let called := w.store.call w.nextId call
  { w.land w.nextId called.toBlock called.prev with nextId := w.nextId + 1 }

def stepDeliver (w : World) (id : Nat) (slot : Slot) (request : Request) (delivery : Delivery) : World :=
  let result := w.server.deliver request delivery
  let w' := { w with server := result.1 }
  (w'.setSlot id (some { slot with answer := some result.2 })).see (deliveryEvents w.server request delivery)

def stepForeign (w : World) (key : String) (value : Option Bytes) : World :=
  { w with server := Function.update w.server key (value.map fun bytes => (bytes, w.server.version key + 1)) }

def stepRestart (w : World) (seed : Seed) : World :=
  let store := Store.start w.store.monitors w.store.archivedMonitors w.store.fencedFlag seed
  { w with store := store, slots := fun _ => none }.see [.session store.fenced]

def step (w : World) : Act → Option World
  | .call call => if w.callable call then some (w.stepCall call) else none
  | .deliver id delivery =>
    match w.slots id with
    | some slot =>
      match slot.task.request, slot.answer with
      | some request, none => some (w.stepDeliver id slot request delivery)
      | _, _ => none
    | none => none
  | .resume id env =>
    match w.slots id with
    | some slot =>
      if w.ready slot then
        (w.store.resume env id slot.task slot.answer).map fun block => w.land id block slot.prev
      else none
    | none => none
  | .foreign key value => some (w.stepForeign key value)
  | .restart seed => some (w.stepRestart seed)

def start (server : Server) (monitors archivedMonitors : StringMap LocalMonitor) (fencedFlag : Bool)
    (seed : Seed) : World where
  server := server
  store := .start monitors archivedMonitors fencedFlag seed
  slots := fun _ => none
  nextId := 0
  trace := [.session fencedFlag]

/-! ## What a step does -/

theorem step_deliver_iff {w w' : World} {id : Nat} {delivery : Delivery} :
    w.step (.deliver id delivery) = some w' ↔ ∃ slot request, w.slots id = some slot ∧
      slot.task.request = some request ∧ slot.answer = none ∧ w.stepDeliver id slot request delivery = w' := by
  simp only [step]
  constructor
  · intro h
    split at h
    · rename_i slot hSlot
      split at h
      · rename_i request hRequest hAnswer
        exact ⟨slot, request, hSlot, hRequest, hAnswer, Option.some.inj h⟩
      · cases h
    · cases h
  · rintro ⟨slot, request, hSlot, hRequest, hAnswer, rfl⟩
    simp [hSlot, hRequest, hAnswer]

theorem step_resume_iff {w w' : World} {id : Nat} {env : Env} :
    w.step (.resume id env) = some w' ↔ ∃ slot block, w.slots id = some slot ∧ w.ready slot = true ∧
      w.store.resume env id slot.task slot.answer = some block ∧ w.land id block slot.prev = w' := by
  simp only [step]
  constructor
  · intro h
    split at h
    · rename_i slot hSlot
      split at h
      · rename_i hReady
        obtain ⟨block, hBlock, hLand⟩ := Option.map_eq_some_iff.mp h
        exact ⟨slot, block, hSlot, hReady, hBlock, hLand⟩
      · cases h
    · cases h
  · rintro ⟨slot, block, hSlot, hReady, hBlock, rfl⟩
    simp [hSlot, hReady, hBlock]

theorem step_call_iff {w w' : World} {call : Call} :
    w.step (.call call) = some w' ↔ w.callable call = true ∧ w.stepCall call = w' := by
  simp [step]

theorem land_slots (w : World) (id : Nat) (block : Block) (prev : Option Nat) (other : Nat) :
    (w.land id block prev).slots other =
      if other = id then block.next.map fun task => ⟨task, none, prev⟩ else w.slots other :=
  Function.update_apply ..

/-- The names given so far stay below the next one. -/
theorem land_fresh {w : World} {id nextId : Nat} (h : ∀ other slot, w.slots other = some slot → other < w.nextId)
    (hId : id < nextId) (hNext : w.nextId ≤ nextId) (block : Block) (prev : Option Nat) (other : Nat) (slot : Slot)
    (hSlot : (w.land id block prev).slots other = some slot) : other < nextId := by
  rw [land_slots] at hSlot
  split at hSlot
  · next hOther => exact hOther ▸ hId
  · exact (h other slot hSlot).trans_le hNext

@[simp] theorem land_store (w : World) (id : Nat) (block : Block) (prev : Option Nat) :
    (w.land id block prev).store = block.store := rfl

@[simp] theorem land_server (w : World) (id : Nat) (block : Block) (prev : Option Nat) :
    (w.land id block prev).server = w.server := rfl

@[simp] theorem land_nextId (w : World) (id : Nat) (block : Block) (prev : Option Nat) :
    (w.land id block prev).nextId = w.nextId := rfl

theorem land_trace (w : World) (id : Nat) (block : Block) (prev : Option Nat) :
    (w.land id block prev).trace = (block.events ++ startedEvents block.next).reverse ++ w.trace := rfl

theorem stepDeliver_slots (w : World) (id : Nat) (slot : Slot) (request : Request) (delivery : Delivery)
    (other : Nat) :
    (w.stepDeliver id slot request delivery).slots other =
      if other = id then some { slot with answer := some (w.server.deliver request delivery).2 }
      else w.slots other :=
  Function.update_apply ..

end World

/-! ## Inputs of the examples -/

def sampleKey : String := "0000000000000000000000000000000000000000000000000000000000000000:0"

def sampleWrite (text : List UInt8) : MonitorWrite where
  monitorName := "monitor"
  vssKey := sampleKey
  localKey := "monitor"
  channelId := "channel"
  updateId := 1
  bytes := .raw text
  keyValid := by decide

def calm : Env := ⟨true, true, true, .raw []⟩

end WalletCore.Vss
