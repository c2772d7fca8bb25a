import WalletCore.Vss.Manifest
import WalletCore.Vss.Server

/-! # The VSS-backed store

The store with a remote configured. Every spawned future is a task that stands at one of its
await points; it runs from one await to the next without interruption. Backoff times and the
events that only report a delay are left out: a task that sleeps may wake at any time.
-/

namespace WalletCore.Vss

open Lib

/-- What a monitor write chain needs; the key is the hex spelling of a funding outpoint. -/
structure MonitorWrite where
  monitorName : String
  vssKey : String
  localKey : String
  channelId : String
  updateId : Nat
  bytes : Bytes
  keyValid : isValidMonitorKey vssKey = true
deriving DecidableEq

/-- A monitor file: its bytes, and the VSS key that the funding outpoint in them spells. -/
structure LocalMonitor where
  vssKey : String
  bytes : Bytes
deriving DecidableEq

/-- The state that the tasks share. The last three fields are on disk. -/
structure Store where
  versions : String → Option Nat
  monitorKeys : MonitorKeySet
  nameToVssKey : StringMap String
  manifestLock : Bool
  chains : String → Option Nat
  fenced : Bool
  cmPending : Option Bytes
  monitors : StringMap LocalMonitor
  archivedMonitors : StringMap LocalMonitor
  fencedFlag : Bool

/-! ## Tasks -/

inductive MonitorPhase where
  | queued
  | put (version : Nat)
  | refetch
  | sleep
  | manifestLock
  | manifestPut (payload : Bytes) (version : Nat)
  | manifestRefetch
  | manifestSleep
  | localSleep
deriving DecidableEq

inductive CmPhase where
  | put (version : Nat)
  | refetch
deriving DecidableEq

inductive WritePolicy where
  | lww
  | merge
deriving DecidableEq

inductive WritePhase where
  | queued
  | put (version : Nat)
  | refetch
  | retry (bytes : Bytes) (version : Nat)
deriving DecidableEq

/-- The best-effort manifest write, with the number of the attempt under way. -/
inductive OncePhase where
  | spawned
  | manifestLock
  | put (round : Nat) (payload : Bytes) (version : Nat)
  | refetch (round : Nat)
  | retire (version : Nat)
deriving DecidableEq

inductive Task where
  | monitor (write : MonitorWrite) (isNew : Bool) (phase : MonitorPhase)
  | cm (bytes : Bytes) (byTick : Bool) (phase : CmPhase)
  | write (key : String) (bytes : Bytes) (policy : WritePolicy) (phase : WritePhase)
  | delete (key : String) (started : Option Nat)
  | archive (key : String) (phase : OncePhase)
  | archiveDelete (key : String) (version : Nat)
  | backfill (phase : OncePhase)
  | fetch (key : String)
deriving DecidableEq

def OncePhase.request : OncePhase → Option Request
  | .put _ payload version => some (.put monitorManifestKey payload version)
  | .refetch _ => some (.get monitorManifestKey)
  | .retire version => some (.delete monitorManifestKey version)
  | .spawned | .manifestLock => none

def WritePhase.request (key : String) (bytes : Bytes) : WritePhase → Option Request
  | .put version => some (.put key bytes version)
  | .refetch => some (.get key)
  | .retry bytes version => some (.put key bytes version)
  | .queued => none

/-- The request a task is waiting for, if it waits for one. -/
def Task.request : Task → Option Request
  | .monitor w _ (.put version) => some (.put w.vssKey w.bytes version)
  | .monitor w _ .refetch => some (.get w.vssKey)
  | .monitor _ _ (.manifestPut payload version) => some (.put monitorManifestKey payload version)
  | .monitor _ _ .manifestRefetch => some (.get monitorManifestKey)
  | .monitor .. => none
  | .cm bytes _ (.put version) => some (.put channelManagerVssKey bytes version)
  | .cm _ _ .refetch => some (.get channelManagerVssKey)
  | .write key bytes _ phase => phase.request key bytes
  | .delete key started => started.map (.delete key)
  | .archive _ phase => phase.request
  | .archiveDelete key version => some (.delete key version)
  | .backfill phase => phase.request
  | .fetch key => some (.get key)

/-- What an observer of the store sees, in the order in which it happens. -/
inductive Event where
  | session (fenced : Bool)
  | queued (id : Nat) (write : MonitorWrite) (isNew : Bool)
  | archived (key : String)
  | started (request : Request)
  | stored (key : String) (bytes : Bytes)
  | fetched (key : String) (bytes : Bytes)
  | wroteLocal (key : String) (bytes : Bytes)
  | monitorUpdated (id : Nat) (write : MonitorWrite) (isNew : Bool)
  | fenced
deriving DecidableEq

/-- What the surroundings decide while a task runs to its next await. -/
structure Env where
  localOk : Bool
  sinkAlive : Bool
  flagOk : Bool
  merged : Bytes

/-- A task's run to its next await: the store after it, where the task now stands
(nowhere, when it has ended), and what was seen. -/
structure Block where
  store : Store
  next : Option Task
  events : List Event

namespace Store

def cachedVersion (s : Store) (key : String) : Nat := (s.versions key).getD 0

@[simps] def recordVersion (s : Store) (key : String) (version : Nat) : Store :=
  { s with versions := Function.update s.versions key (some version) }

@[simps] def removeVersion (s : Store) (key : String) : Store :=
  { s with versions := Function.update s.versions key none }

@[simps] def markPublishable (s : Store) (key : String) : Store :=
  { s with monitorKeys := s.monitorKeys.markPublishable key }

/-- Merges the keys of a fetched manifest; one that does not parse adds none. -/
def mergeManifest (s : Store) (bytes : Bytes) : Store :=
  match parseMonitorManifest bytes with
  | .ok keys => { s with monitorKeys := s.monitorKeys.extendPublishable keys }
  | .error _ => s

@[simps] def lockManifest (s : Store) : Store := { s with manifestLock := true }

@[simps] def unlockManifest (s : Store) : Store := { s with manifestLock := false }

@[simps] def setCmPending (s : Store) (pending : Option Bytes) : Store := { s with cmPending := pending }

@[simps] def writeLocal (s : Store) (write : MonitorWrite) : Store :=
  { s with monitors := s.monitors.insert write.localKey ⟨write.vssKey, write.bytes⟩ }

/-- Idempotent; the flag file may fail to be written. -/
def tripFence (s : Store) (flagOk : Bool) : Store :=
  if s.fenced then s else { s with fenced := true, fencedFlag := s.fencedFlag || flagOk }

def tripFenceEvents (s : Store) : List Event := if s.fenced then [] else [.fenced]

/-! ## Monitor writes -/

/-- One turn of the put loop. -/
def putFundCritical (s : Store) (write : MonitorWrite) (isNew : Bool) : Block :=
  if s.fenced then ⟨s, none, []⟩
  else ⟨s, some (.monitor write isNew (.put (s.cachedVersion write.vssKey))), []⟩

/-- The local write and, once it succeeds, the completion signal. -/
def localWriteWithRetry (s : Store) (env : Env) (id : Nat) (write : MonitorWrite) (isNew : Bool) : Block :=
  if env.localOk then
    ⟨s.writeLocal write, none, .wroteLocal write.localKey write.bytes ::
      if env.sinkAlive then [.monitorUpdated id write isNew] else []⟩
  else ⟨s, some (.monitor write isNew .localSleep), []⟩

/-- One turn of the gating manifest loop, under the manifest lock. -/
def writeManifestWithRetryLocked (s : Store) (env : Env) (id : Nat) (write : MonitorWrite) (isNew : Bool) : Block :=
  if s.fenced then ⟨s.unlockManifest, none, []⟩
  else if s.monitorKeys.publishable.isEmpty then s.unlockManifest.localWriteWithRetry env id write isNew
  else
    ⟨s, some (.monitor write isNew
      (.manifestPut (manifestPayload s.monitorKeys.publishable) (s.cachedVersion monitorManifestKey))), []⟩

/-- The blob is on the server: publish the key, then gate on the manifest or go on. -/
def blobStored (s : Store) (env : Env) (id : Nat) (write : MonitorWrite) (isNew : Bool) : Block :=
  if isNew then ⟨s.markPublishable write.vssKey, some (.monitor write isNew .manifestLock), []⟩
  else (s.markPublishable write.vssKey).localWriteWithRetry env id write isNew

def runMonitorJob (s : Store) (env : Env) (id : Nat) (write : MonitorWrite) (isNew : Bool) :
    MonitorPhase → Option Answer → Option Block
  | .queued, none => some (s.putFundCritical write isNew)
  | .put _, some (.putOk version) => some ((s.recordVersion write.vssKey version).blobStored env id write isNew)
  | .put _, some .conflict => some ⟨s, some (.monitor write isNew .refetch), []⟩
  | .put _, some _ => some ⟨s, some (.monitor write isNew .sleep), []⟩
  | .refetch, some (.found bytes version) =>
    let s := s.recordVersion write.vssKey version
    if bytes = write.bytes then some (s.blobStored env id write isNew)
    else some ⟨s.tripFence env.flagOk, none, s.tripFenceEvents⟩
  | .refetch, some .missing => some ⟨s.recordVersion write.vssKey 0, some (.monitor write isNew .sleep), []⟩
  | .refetch, some _ => some ⟨s, some (.monitor write isNew .sleep), []⟩
  | .sleep, none => some (s.putFundCritical write isNew)
  | .manifestLock, none =>
    if s.manifestLock then none else some (s.lockManifest.writeManifestWithRetryLocked env id write isNew)
  | .manifestPut .., some (.putOk version) =>
    some ((s.recordVersion monitorManifestKey version).unlockManifest.localWriteWithRetry env id write isNew)
  | .manifestPut .., some .conflict => some ⟨s, some (.monitor write isNew .manifestRefetch), []⟩
  | .manifestPut .., some _ => some ⟨s, some (.monitor write isNew .manifestSleep), []⟩
  | .manifestRefetch, some (.found bytes version) =>
    some (((s.recordVersion monitorManifestKey version).mergeManifest bytes).writeManifestWithRetryLocked
      env id write isNew)
  | .manifestRefetch, some .missing =>
    some ((s.recordVersion monitorManifestKey 0).writeManifestWithRetryLocked env id write isNew)
  | .manifestRefetch, some _ => some ⟨s, some (.monitor write isNew .manifestSleep), []⟩
  | .manifestSleep, none => some (s.writeManifestWithRetryLocked env id write isNew)
  | .localSleep, none => some (s.localWriteWithRetry env id write isNew)
  | _, _ => none

/-! ## The best-effort manifest write -/

/-- One attempt; with nothing to publish a known manifest is deleted instead. -/
def manifestRound (s : Store) (round : Nat) : Store × Option OncePhase :=
  if 2 ≤ round then (s.unlockManifest, none)
  else if s.monitorKeys.publishable.isEmpty then
    if s.cachedVersion monitorManifestKey = 0 then (s.unlockManifest, none)
    else (s, some (.retire (s.cachedVersion monitorManifestKey)))
  else
    (s, some (.put round (manifestPayload s.monitorKeys.publishable) (s.cachedVersion monitorManifestKey)))

/-- No phase after the block means that the write has returned, whatever became of it. -/
def writeManifestOnceBestEffort (s : Store) : OncePhase → Option Answer → Option (Store × Option OncePhase)
  | .spawned, none => some (s, if s.fenced then none else some .manifestLock)
  | .manifestLock, none => if s.manifestLock then none else some (s.lockManifest.manifestRound 0)
  | .put .., some (.putOk version) => some ((s.recordVersion monitorManifestKey version).unlockManifest, none)
  | .put round .., some .conflict => some (s, some (.refetch round))
  | .put .., some _ => some (s.unlockManifest, none)
  | .refetch round, some (.found bytes version) =>
    some (((s.recordVersion monitorManifestKey version).mergeManifest bytes).manifestRound (round + 1))
  | .refetch round, some .missing => some ((s.recordVersion monitorManifestKey 0).manifestRound (round + 1))
  | .refetch _, some _ => some (s.unlockManifest, none)
  | .retire _, some .deleteOk => some ((s.removeVersion monitorManifestKey).unlockManifest, none)
  | .retire _, some _ => some (s.unlockManifest, none)
  | _, _ => none

def runBackfill (s : Store) (phase : OncePhase) (answer : Option Answer) : Option Block :=
  (s.writeManifestOnceBestEffort phase answer).map fun result => ⟨result.1, result.2.map .backfill, []⟩

/-- The spawned half of `archive_monitor`: the manifest write, then the delete of the blob. -/
def runArchive (s : Store) (key : String) (phase : OncePhase) (answer : Option Answer) : Option Block :=
  (s.writeManifestOnceBestEffort phase answer).map fun result =>
    match result.2 with
    | some phase => ⟨result.1, some (.archive key phase), []⟩
    | none =>
      if result.1.fenced then ⟨result.1, none, []⟩
      else ⟨result.1, some (.archiveDelete key (result.1.cachedVersion key)), []⟩

def finishArchive (s : Store) (key : String) : Option Answer → Option Block
  | some .deleteOk => some ⟨s.removeVersion key, none, []⟩
  | some _ => some ⟨s, none, []⟩
  | none => none

/-! ## The channel manager -/

def cmRemoteAttempt (s : Store) (env : Env) (bytes : Bytes) (byTick : Bool) :
    CmPhase → Option Answer → Option Block
  | .put _, some (.putOk version) =>
    some ⟨(s.recordVersion channelManagerVssKey version).setCmPending none, none, []⟩
  | .put _, some .conflict => some ⟨s, some (.cm bytes byTick .refetch), []⟩
  | .put _, some _ => some ⟨s.setCmPending (some bytes), none, []⟩
  | .refetch, some (.found remote version) =>
    let s := s.recordVersion channelManagerVssKey version
    if remote = bytes then some ⟨s.setCmPending none, none, []⟩
    else some ⟨s.tripFence env.flagOk, none, s.tripFenceEvents⟩
  | .refetch, some .missing =>
    some ⟨(s.recordVersion channelManagerVssKey 0).setCmPending (some bytes), none, []⟩
  | .refetch, some _ => some ⟨s.setCmPending (some bytes), none, []⟩
  | _, none => none

end Store

/-! ## Best-effort writes of one key -/

/-- The writes that retry once on a conflict, given the fence and the cached version of
their key: the version to record, if any, and where the write now stands. -/
def putAttempt (policy : WritePolicy) (fenced : Bool) (cached : Nat) (bytes merged : Bytes) :
    WritePhase → Option Answer → Option (Option Nat × Option WritePhase)
  | .queued, none => some (none, if fenced then none else some (.put cached))
  | .put _, some (.putOk version) => some (some version, none)
  | .put _, some .conflict => some (none, some .refetch)
  | .put _, some _ => some (none, none)
  | .refetch, some (.found _ version) =>
    some (some version, some (.retry (match policy with | .lww => bytes | .merge => merged) version))
  | .refetch, some .missing => some (some 0, some (.retry bytes 0))
  | .refetch, some _ => some (none, none)
  | .retry .., some (.putOk version) => some (some version, none)
  | .retry .., some _ => some (none, none)
  | _, _ => none

def putLwwAttempt := putAttempt .lww

def putMergeAttempt := putAttempt .merge

namespace Store

def recordSome (s : Store) (key : String) : Option Nat → Store
  | some version => s.recordVersion key version
  | none => s

def runWrite (s : Store) (env : Env) (key : String) (bytes : Bytes) (policy : WritePolicy)
    (phase : WritePhase) (answer : Option Answer) : Option Block :=
  let attempt := match policy with
    | .lww => putLwwAttempt
    | .merge => putMergeAttempt
  (attempt s.fenced (s.cachedVersion key) bytes env.merged phase answer).map fun result =>
    ⟨s.recordSome key result.1, result.2.map (.write key bytes policy), []⟩

/-- Any answer to the delete resets the cached version. -/
def runDelete (s : Store) (key : String) : Option Nat → Option Answer → Option Block
  | none, none => some ⟨s, if s.fenced then none else some (.delete key (some (s.cachedVersion key))), []⟩
  | some _, some _ => some ⟨s.recordVersion key 0, none, []⟩
  | _, _ => none

def fetchVersioned (s : Store) (key : String) : Option Answer → Option Block
  | some (.found _ version) => some ⟨s.recordVersion key version, none, []⟩
  | some _ => some ⟨s, none, []⟩
  | none => none

/-- A task's run to its next await; `none` when it cannot run. -/
def resume (s : Store) (env : Env) (id : Nat) : Task → Option Answer → Option Block
  | .monitor write isNew phase => s.runMonitorJob env id write isNew phase
  | .cm bytes byTick phase => s.cmRemoteAttempt env bytes byTick phase
  | .write key bytes policy phase => s.runWrite env key bytes policy phase
  | .delete key started => s.runDelete key started
  | .archive key phase => s.runArchive key phase
  | .archiveDelete key _ => s.finishArchive key
  | .backfill phase => s.runBackfill phase
  | .fetch key => s.fetchVersioned key

end Store

end WalletCore.Vss
