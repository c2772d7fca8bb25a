import Mathlib.Logic.Function.Basic
import WalletCore.Lib.Transition
import WalletCore.Lib.Turns
import WalletCore.Restore.Explicit

/-! # Handles on one data directory

Several `Node` values, in one process or in several, may point at the same storage directory. Each guards its
own running state with a mutex, which `start` and `restore` hold to their end and `stop` only while it takes
the state out; what keeps the handles apart is the lock on the file `node.lock`. The kernel releases it when
the file closes, be it that the guard is dropped or that the process dies. Any call may be at any point when
another one moves.
-/

namespace WalletCore.Instance

open Lib Restore

deriving instance DecidableEq for ManifestPut, Sent, Device

/-- A `Node` value of a process. -/
structure Handle where
  process : Nat
  index : Nat
deriving DecidableEq

/-- What the tasks of a node write: never the words or the marker, and no flag is taken back. -/
inductive NodeWrite where
  | write (file : StoreFile) (bytes : Bytes)
  | remove (file : StoreFile)
  | fence
  | send (sent : Sent)

def NodeWrite.apply (device : Device) : NodeWrite → Device
  | .write file bytes => device.mapStore (·.write bytes file)
  | .remove file => device.mapStore (·.remove file)
  | .fence => { device with fencedFlag := true }
  | .send sent => device.send sent

/-! ## Calls -/

/-- `builder::build` up to the channel state. -/
def build (fs : FileSystem) (wallets : Wallets) (transport : String → Option Transport) (generated : String) :
    Start (String × Booted) := do
  prepareMarkerResume fs wallets
  checkFence
  let words ← readOrGenerateMnemonic wallets generated
  match transport words with
  | none =>
    if ← Prog.read (·.marker.isSome) then Prog.fail .restoreInProgress
    else return (words, ← loadChannelManager (wallets.node words) false)
  | some transport => return (words, ← bootChannels fs (wallets.node words) transport)

/-- How far a call has come. -/
inductive Phase where
  | starting
  | unfenced
  | building (session : Session Device BuildError (String × Booted))
  | assembled (words : String)
  | restoring
  | writing (session : Session Device RestoreError Unit)
  | stopping (words : String)
  | dropping (words : String)

namespace Phase

/-- The phases in which the call has the `DataDirLock`. -/
def hasDirLock : Phase → Bool
  | .building _ | .assembled _ | .writing _ | .stopping _ => true
  | .starting | .unfenced | .restoring | .dropping _ => false

/-- The phases in which the call has the mutex of its handle. -/
def hasStateLock : Phase → Bool
  | .starting | .unfenced | .building _ | .assembled _ | .restoring | .writing _ => true
  | .stopping _ | .dropping _ => false

/-- The words of the node whose tasks are alive in this phase. -/
def node : Phase → Option String
  | .assembled words | .stopping words | .dropping words => some words
  | .starting | .unfenced | .building _ | .restoring | .writing _ => none

end Phase

structure Call where
  handle : Handle
  phase : Phase

/-- The running states hold the words of their node; `stateLock` names the call that has the mutex. -/
structure World where
  device : Device
  lock : Option Nat
  states : Handle → Option String
  stateLock : Handle → Option Nat
  calls : Nat → Option Call

namespace World

/-- No process has opened the directory. -/
def idle (device : Device) : World := ⟨device, none, fun _ => none, fun _ => none, fun _ => none⟩

def setPhase (w : World) (id : Nat) (call : Call) (phase : Phase) : World :=
  { w with calls := Function.update w.calls id (some { call with phase := phase }) }

/-- The call returns and lets go of what it has. -/
def endCall (w : World) (id : Nat) (call : Call) : World :=
  { w with
    lock := if call.phase.hasDirLock then none else w.lock
    stateLock := if call.phase.hasStateLock then Function.update w.stateLock call.handle none else w.stateLock
    calls := Function.update w.calls id none }

/-- `DataDirLock::acquire`: a lock that someone has fails the call at once. -/
def acquire (w : World) (id : Nat) (call : Call) (opens : Bool) (phase : Phase) : World :=
  if opens && w.lock.isNone then { w.setPhase id call phase with lock := some call.handle.process }
  else w.endCall id call

end World

/-! ## Steps -/

/-- The runtime parameters of a start: the server behind each seed, and the words it would generate. -/
structure StartInput where
  transport : String → Option Transport
  generated : String

structure RestoreInput where
  transport : Option Transport
  raw : String
  nowMs : UInt64

/-- `opens` says whether the directory and the lock file could be opened; `elsewhere` is where the disk may get
to when a program meets a disk that it did not leave. -/
inductive Action where
  | start (id : Nat) (handle : Handle)
  | checkFence (id : Nat)
  | acquireStart (id : Nat) (opens : Bool) (input : StartInput)
  | startWrites (id : Nat) (fate : Fate) (elsewhere : Device)
  | assemble (id : Nat)
  | startFails (id : Nat)
  | install (id : Nat)
  | stop (id : Nat) (handle : Handle)
  | stopped (id : Nat)
  | restore (id : Nat) (handle : Handle)
  | acquireRestore (id : Nat) (opens : Bool) (input : RestoreInput)
  | restoreWrites (id : Nat) (fate : Fate) (elsewhere : Device)
  | restored (id : Nat)
  | restoreFails (id : Nat)
  | handleWrites (handle : Handle) (write : NodeWrite)
  | callWrites (id : Nat) (write : NodeWrite)
  | drop (id : Nat) (handle : Handle)
  | dropped (id : Nat)
  | crash (process : Nat)

namespace World

variable (fs : FileSystem) (wallets : Wallets)

/-- A call enters and waits for the mutex of its handle. -/
def enter (w : World) (id : Nat) (handle : Handle) (phase : Phase) : Option World :=
  if (w.calls id).isNone && (w.stateLock handle).isNone then
    -- `AlreadyRunning` and `NodeRunning` return at once.
    if (w.states handle).isSome then some w
    else some { w with
      stateLock := Function.update w.stateLock handle (some id)
      calls := Function.update w.calls id (some ⟨handle, phase⟩) }
  else none

/-- The running state is taken out of the handle, by a `stop` or by the end of the handle. -/
def take (w : World) (id : Nat) (handle : Handle) (phase : String → Phase) : Option World :=
  if (w.calls id).isNone && (w.stateLock handle).isNone then
    some ((w.states handle).elim w fun words => { w with
      states := Function.update w.states handle none
      calls := Function.update w.calls id (some ⟨handle, phase words⟩) })
  else none

/-- A process dies with its handles and calls, and the kernel closes its files. -/
def crash (w : World) (process : Nat) : World :=
  { w with
    lock := if w.lock = some process then none else w.lock
    states := fun handle => if handle.process = process then none else w.states handle
    stateLock := fun handle => if handle.process = process then none else w.stateLock handle
    calls := fun id => (w.calls id).filter (·.handle.process ≠ process) }

def step (w : World) : Action → Option World
  | .start id handle => w.enter id handle .starting
  | .checkFence id =>
    match w.calls id with
    | some ⟨handle, .starting⟩ =>
      let call : Call := ⟨handle, .starting⟩
      some (if w.device.fencedFlag then w.endCall id call else w.setPhase id call .unfenced)
    | _ => none
  | .acquireStart id opens input =>
    match w.calls id with
    | some ⟨handle, .unfenced⟩ =>
      if wallets.parseMnemonic input.generated = some input.generated then
        some (w.acquire id ⟨handle, .unfenced⟩ opens
          (.building ⟨build fs wallets input.transport input.generated, w.device, []⟩))
      else none
    | _ => none
  | .startWrites id fate elsewhere =>
    match w.calls id with
    | some ⟨handle, .building session⟩ =>
      if session.atWork && fate != .dies then
        some { w.setPhase id ⟨handle, .building session⟩ (.building (session.goOn fate)) with
          device := session.move w.device fate elsewhere }
      else none
    | _ => none
  | .assemble id =>
    match w.calls id with
    | some ⟨handle, .building session⟩ =>
      let call : Call := ⟨handle, .building session⟩
      match session.outcome with
      | .ok (words, _) _ _ => some (w.setPhase id call (.assembled words))
      | .error _ _ _ => some (w.endCall id call)
      | .crashed _ => none
    | _ => none
  -- Every step of the build that does not concern the channel state may fail as well.
  | .startFails id =>
    match w.calls id with
    | some ⟨handle, .building session⟩ => some (w.endCall id ⟨handle, .building session⟩)
    | some ⟨handle, .assembled words⟩ => some (w.endCall id ⟨handle, .assembled words⟩)
    | _ => none
  | .install id =>
    match w.calls id with
    | some ⟨handle, .assembled words⟩ =>
      some { w with
        states := Function.update w.states handle (some words)
        stateLock := Function.update w.stateLock handle none
        calls := Function.update w.calls id none }
    | _ => none
  | .stop id handle => w.take id handle .stopping
  | .stopped id =>
    match w.calls id with
    | some ⟨handle, .stopping words⟩ => some (w.endCall id ⟨handle, .stopping words⟩)
    | _ => none
  | .restore id handle => w.enter id handle .restoring
  | .acquireRestore id opens input =>
    match w.calls id with
    | some ⟨handle, .restoring⟩ =>
      some (w.acquire id ⟨handle, .restoring⟩ opens
        (.writing ⟨runRestore fs wallets input.transport input.raw input.nowMs, w.device, []⟩))
    | _ => none
  | .restoreWrites id fate elsewhere =>
    match w.calls id with
    | some ⟨handle, .writing session⟩ =>
      if session.atWork && fate != .dies then
        some { w.setPhase id ⟨handle, .writing session⟩ (.writing (session.goOn fate)) with
          device := session.move w.device fate elsewhere }
      else none
    | _ => none
  | .restored id =>
    match w.calls id with
    | some ⟨handle, .writing session⟩ =>
      if session.atWork then none else some (w.endCall id ⟨handle, .writing session⟩)
    | _ => none
  -- The scratch directory, the runtime and the validation wallet come before the first write.
  | .restoreFails id =>
    match w.calls id with
    | some ⟨handle, .writing session⟩ =>
      if session.fates.isEmpty then some (w.endCall id ⟨handle, .writing session⟩) else none
    | _ => none
  | .handleWrites handle write => (w.states handle).map fun _ => { w with device := write.apply w.device }
  | .callWrites id write =>
    (w.calls id).bind fun call => call.phase.node.map fun _ => { w with device := write.apply w.device }
  -- The fields of a running state are dropped in order, the lock first and then the runtime.
  | .drop id handle =>
    (w.take id handle .dropping).map fun next =>
      if (w.states handle).isSome then { next with lock := none } else next
  | .dropped id =>
    match w.calls id with
    | some ⟨handle, .dropping words⟩ => some (w.endCall id ⟨handle, .dropping words⟩)
    | _ => none
  | .crash process => some (w.crash process)

end World

end WalletCore.Instance
