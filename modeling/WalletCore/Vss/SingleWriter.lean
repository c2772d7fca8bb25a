import WalletCore.Lib.Chain
import WalletCore.Vss.Blocks

/-! # One writer and the fence

When one client alone writes the store, a conflict can only come from a put of its own whose
acknowledgement was lost, and the content compare recognises it because every retry resends the same
bytes. That holds in each session as long as the session knows the version of what it writes: a blob
left on the server by a crash before the local file was written has no version seeded.
-/

namespace WalletCore.Vss

open Lib

/-! ## Sessions -/

/-- Branch 3 of `establish_vss_state`: versions from the listing for the fixed keys and the
local monitors, and the local monitors found in it as publishable. -/
def seedFromListing (server : Server) (monitors : StringMap LocalMonitor) : Seed :=
  let versions := fun key =>
    if key ∈ fixedRemoteKeys ∨ monitors.any (fun _ file => file.vssKey = key) = true then
      (server key).map Prod.snd
    else none
  ⟨versions, .fromParts (monitors.toPairs.map (·.2.vssKey)) fun key => (versions key).isSome⟩

/-- The system, and the keys that the server held when the session was seeded and that the
session was given no version for. -/
structure Session where
  world : World
  missed : String → Bool

inductive SessionAct where
  | queueMonitorWrite (write : MonitorWrite) (isNew : Bool)
  | cmRemoteWriteBounded (bytes : Bytes)
  | cmRetryPending
  | deliver (id : Nat) (delivery : Delivery)
  | resume (id : Nat) (env : Env)
  | restart

def missedBy (server : Server) (seed : Seed) (key : String) : Bool :=
  (server key).isSome && (seed.versions key).isNone

namespace Session

def start (server : Server) (monitors archivedMonitors : StringMap LocalMonitor) : Session :=
  let seed := seedFromListing server monitors
  ⟨.start server monitors archivedMonitors false seed, missedBy server seed⟩

/-- The first write queued for a key gives the session a version for it. -/
def step (s : Session) : SessionAct → Option Session
  | .queueMonitorWrite write isNew =>
    (s.world.step (.call (.queueMonitorWrite write isNew))).map fun w =>
      ⟨w, Function.update s.missed write.vssKey false⟩
  | .cmRemoteWriteBounded bytes =>
    (s.world.step (.call (.cmRemoteWriteBounded bytes))).map fun w => ⟨w, s.missed⟩
  | .cmRetryPending => (s.world.step (.call .cmRetryPending)).map fun w => ⟨w, s.missed⟩
  | .deliver id delivery => (s.world.step (.deliver id delivery)).map fun w => ⟨w, s.missed⟩
  | .resume id env => (s.world.step (.resume id env)).map fun w => ⟨w, s.missed⟩
  | .restart =>
    let seed := seedFromListing s.world.server s.world.store.monitors
    (s.world.step (.restart seed)).map fun w => ⟨w, missedBy s.world.server seed⟩

/-- The first write queued for a key that the session missed resends what the server holds. -/
def resendsMissed (s : Session) : SessionAct → Bool
  | .queueMonitorWrite write _ =>
    !s.missed write.vssKey || (s.world.server write.vssKey).any fun entry => entry.1 = write.bytes
  | _ => true

end Session

/-! ## One attempt -/

def Settled (server : Server) (cached : Nat) (key : String) : Prop := cached = server.version key

def Holds (server : Server) (key : String) (bytes : Bytes) : Prop := ∃ version, server key = some (bytes, version)

/-- Nothing of these bytes can be read as another client's: the cached version is the
server's, or the server already holds the bytes. -/
def Open (server : Server) (cached : Nat) (key : String) (bytes : Bytes) : Prop :=
  Settled server cached key ∨ Holds server key bytes

/-- What is known of a put of the bytes, or of the refetch after its conflict. -/
def AttemptFits (server : Server) (cached : Nat) (key : String) (bytes : Bytes) : Request → Option Answer → Prop
  | .put _ _ version, none => cached = version ∧ Open server cached key bytes
  | .put .., some (.putOk new) => server key = some (bytes, new)
  | .put .., some .conflict => Holds server key bytes
  | .put .., some _ => Open server cached key bytes
  | .get _, some (.found value version) => server key = some (value, version) ∧ value = bytes
  | .get _, some .missing => False
  | .get _, _ => Holds server key bytes
  | .delete .., _ => False

theorem holds_update (server : Server) (key : String) (bytes : Bytes) (version : Nat) :
    Holds (Function.update server key (some (bytes, version))) key bytes :=
  ⟨version, Function.update_self ..⟩

theorem AttemptFits.deliver_put {server : Server} {cached version : Nat} {key : String} {bytes : Bytes}
    (delivery : Delivery) (h : AttemptFits server cached key bytes (.put key bytes version) none) :
    AttemptFits (server.deliver (.put key bytes version) delivery).1 cached key bytes (.put key bytes version)
      (some (server.deliver (.put key bytes version) delivery).2) := by
  obtain ⟨hCached, hOpen⟩ := h
  have hAnswered := server.deliver_answered (.put key bytes version) delivery
  have hEffect := server.deliver_effect (.put key bytes version) delivery
  generalize (server.deliver (.put key bytes version) delivery).1 = after at hAnswered hEffect ⊢
  generalize (server.deliver (.put key bytes version) delivery).2 = answer at hAnswered ⊢
  have hAfter : Open after cached key bytes := by
    cases hEffect with
    | none => exact hOpen
    | put => exact .inr (holds_update ..)
  cases answer with
  | putOk new => exact hAnswered.2
  | conflict =>
    rcases hAfter with hSettled | hHolds
    · exact absurd (hSettled.symm.trans hCached) hAnswered
    · exact hHolds
  | failed => exact hAfter
  | deleteOk | found | missing => exact hAnswered.elim

theorem AttemptFits.deliver_get {server : Server} {cached : Nat} {key : String} {bytes : Bytes}
    (delivery : Delivery) (h : AttemptFits server cached key bytes (.get key) none) :
    AttemptFits (server.deliver (.get key) delivery).1 cached key bytes (.get key)
      (some (server.deliver (.get key) delivery).2) := by
  have hAnswered := server.deliver_answered (.get key) delivery
  have hEffect := server.deliver_effect (.get key) delivery
  generalize (server.deliver (.get key) delivery).1 = after at hAnswered hEffect ⊢
  generalize (server.deliver (.get key) delivery).2 = answer at hAnswered ⊢
  obtain ⟨version, hHolds⟩ : Holds after key bytes := by
    cases hEffect with
    | none => exact h
  cases answer with
  | found value version' =>
    obtain ⟨rfl, rfl⟩ := Prod.mk.inj (Option.some.inj (hHolds.symm.trans hAnswered))
    exact ⟨hAnswered, rfl⟩
  | missing => simp [show after key = none from hAnswered] at hHolds
  | failed => exact ⟨version, hHolds⟩
  | putOk | deleteOk | conflict => exact hAnswered.elim

theorem AttemptFits.isOpen {server : Server} {cached : Nat} {key : String} {bytes : Bytes} {request : Request}
    {answer : Answer} (h : AttemptFits server cached key bytes request (some answer)) :
    Open server cached key bytes := by
  unfold AttemptFits at h
  split at h
  · exact h.2
  · exact .inr ⟨_, h⟩
  · exact .inr h
  · exact h
  · exact .inr ⟨_, h.2 ▸ h.1⟩
  · exact h.elim
  · exact .inr h
  · exact h.elim

/-- A delivery under another key says nothing about this one. -/
theorem AttemptFits.frame {server server' : Server} {cached : Nat} {key : String} {bytes : Bytes}
    {request : Request} {answer : Option Answer} (hSame : server' key = server key)
    (h : AttemptFits server cached key bytes request answer) :
    AttemptFits server' cached key bytes request answer := by
  have hVersion : server'.version key = server.version key := by rw [Server.version, hSame, Server.version]
  revert h
  simp only [AttemptFits, Open, Settled, Holds, hSame, hVersion]
  exact id

/-! ## Monitor jobs -/

/-- What the steps after the blob leave alone. -/
structure SameButManifest (s s' : Store) : Prop where
  fenced : s'.fenced = s.fenced
  flag : s'.fencedFlag = s.fencedFlag
  chains : s'.chains = s.chains
  pending : s'.cmPending = s.cmPending
  versions : ∀ key, key ≠ monitorManifestKey → s'.versions key = s.versions key

def MonitorPhase.afterBlob : MonitorPhase → Bool
  | .queued | .put _ | .refetch | .sleep => false
  | _ => true

/-- A run past the blob stays past it, or ends. -/
structure LateBlock (s : Store) (write : MonitorWrite) (isNew : Bool) (block : Block) : Prop where
  same : SameButManifest s block.store
  quiet : .fenced ∉ block.events
  next : ∀ task, block.next = some task → ∃ phase, task = .monitor write isNew phase ∧ phase.afterBlob = true

theorem SameButManifest.refl (s : Store) : SameButManifest s s := ⟨rfl, rfl, rfl, rfl, fun _ _ => rfl⟩

theorem SameButManifest.recordManifest (s : Store) (version : Nat) :
    SameButManifest s (s.recordVersion monitorManifestKey version) :=
  ⟨rfl, rfl, rfl, rfl, fun _ hKey => Function.update_of_ne hKey ..⟩

theorem SameButManifest.mergeManifest {s s' : Store} (h : SameButManifest s s') (bytes : Bytes) :
    SameButManifest s (s'.mergeManifest bytes) := by
  rw [Store.mergeManifest]
  split
  · exact ⟨h.fenced, h.flag, h.chains, h.pending, h.versions⟩
  · exact h

namespace Store

variable {s s' : Store} {env : Env} {id : Nat} {write : MonitorWrite} {isNew : Bool}

theorem localWriteWithRetry_late (h : SameButManifest s s') :
    LateBlock s write isNew (s'.localWriteWithRetry env id write isNew) := by
  rw [localWriteWithRetry]
  split
  · refine ⟨⟨h.fenced, h.flag, h.chains, h.pending, h.versions⟩, ?_, by simp⟩
    split <;> simp
  · refine ⟨h, by simp, ?_⟩
    rintro task hTask
    exact ⟨.localSleep, (Option.some.inj hTask).symm, rfl⟩

theorem writeManifestWithRetryLocked_late (h : SameButManifest s s') :
    LateBlock s write isNew (s'.writeManifestWithRetryLocked env id write isNew) := by
  rw [writeManifestWithRetryLocked]
  split
  · exact ⟨⟨h.fenced, h.flag, h.chains, h.pending, h.versions⟩, by simp, by simp⟩
  · split
    · apply localWriteWithRetry_late
      exact ⟨h.fenced, h.flag, h.chains, h.pending, h.versions⟩
    · refine ⟨h, by simp, ?_⟩
      rintro task hTask
      exact ⟨_, (Option.some.inj hTask).symm, rfl⟩

theorem blobStored_late : LateBlock s write isNew (s.blobStored env id write isNew) := by
  rw [blobStored]
  split
  · refine ⟨⟨rfl, rfl, rfl, rfl, fun _ _ => rfl⟩, by simp, ?_⟩
    rintro task hTask
    exact ⟨_, (Option.some.inj hTask).symm, rfl⟩
  · apply localWriteWithRetry_late
    exact ⟨rfl, rfl, rfl, rfl, fun _ _ => rfl⟩

end Store

/-- What is known of a monitor job where it stands. -/
def JobFits (server : Server) (s : Store) (write : MonitorWrite) : MonitorPhase → Option Answer → Prop
  | .queued, _ => True
  | .put version, answer =>
    AttemptFits server (s.cachedVersion write.vssKey) write.vssKey write.bytes
      (.put write.vssKey write.bytes version) answer
  | .refetch, answer =>
    AttemptFits server (s.cachedVersion write.vssKey) write.vssKey write.bytes (.get write.vssKey) answer
  | .sleep, _ => Open server (s.cachedVersion write.vssKey) write.vssKey write.bytes
  | _, _ => Settled server (s.cachedVersion write.vssKey) write.vssKey

/-- A job's run never fences, touches no version but its own and the manifest's, and ends
only with the version of its key known. -/
structure JobBlock (server : Server) (s : Store) (write : MonitorWrite) (isNew : Bool) (block : Block) : Prop where
  fenced : block.store.fenced = s.fenced
  flag : block.store.fencedFlag = s.fencedFlag
  chains : block.store.chains = s.chains
  pending : block.store.cmPending = s.cmPending
  versions : ∀ key, key ≠ write.vssKey → key ≠ monitorManifestKey → block.store.versions key = s.versions key
  quiet : .fenced ∉ block.events
  next : ∀ task, block.next = some task →
    ∃ phase, task = .monitor write isNew phase ∧ phase ≠ .queued ∧ JobFits server block.store write phase none
  settled : Settled server (s.cachedVersion write.vssKey) write.vssKey →
    Settled server (block.store.cachedVersion write.vssKey) write.vssKey
  done : block.next = none → Settled server (block.store.cachedVersion write.vssKey) write.vssKey

theorem jobFits_afterBlob {server : Server} {s : Store} {write : MonitorWrite} {phase : MonitorPhase}
    (hPhase : phase.afterBlob = true) (answer : Option Answer) :
    JobFits server s write phase answer ↔ Settled server (s.cachedVersion write.vssKey) write.vssKey := by
  cases phase <;> first | exact Iff.rfl | cases hPhase

theorem LateBlock.jobBlock {server : Server} {s s' : Store} {write : MonitorWrite} {isNew : Bool} {block : Block}
    (h : LateBlock s' write isNew block) (hFenced : s'.fenced = s.fenced) (hFlag : s'.fencedFlag = s.fencedFlag)
    (hChains : s'.chains = s.chains) (hPending : s'.cmPending = s.cmPending)
    (hVersions : ∀ key, key ≠ write.vssKey → s'.versions key = s.versions key)
    (hSettled : Settled server (s'.cachedVersion write.vssKey) write.vssKey) : JobBlock server s write isNew block := by
  have hAfter : Settled server (block.store.cachedVersion write.vssKey) write.vssKey := by
    rw [Store.cachedVersion, h.same.versions _ (isValidMonitorKey_ne_manifest write.keyValid)]
    exact hSettled
  refine ⟨h.same.fenced.trans hFenced, h.same.flag.trans hFlag, h.same.chains.trans hChains,
    h.same.pending.trans hPending, ?_, h.quiet, ?_, fun _ => hAfter, fun _ => hAfter⟩
  · intro key hKey hManifest
    exact (h.same.versions key hManifest).trans (hVersions key hKey)
  · intro task hTask
    obtain ⟨phase, hPhase, hLate⟩ := h.next task hTask
    refine ⟨phase, hPhase, ?_, (jobFits_afterBlob hLate none).mpr hAfter⟩
    rintro rfl
    cases hLate

theorem Store.runMonitorJob_jobBlock {server : Server} {s : Store} {env : Env} {id : Nat} {write : MonitorWrite}
    {isNew : Bool} {phase : MonitorPhase} {answer : Option Answer} {block : Block} (hFenced : s.fenced = false)
    (hFits : JobFits server s write phase answer)
    (hQueued : phase = .queued → Open server (s.cachedVersion write.vssKey) write.vssKey write.bytes)
    (h : s.runMonitorJob env id write isNew phase answer = some block) : JobBlock server s write isNew block := by
  have hStay : ∀ next : MonitorPhase, next ≠ .queued → JobFits server s write next none →
      JobBlock server s write isNew ⟨s, some (.monitor write isNew next), []⟩ := by
    intro next hNext hNextFits
    refine ⟨rfl, rfl, rfl, rfl, fun _ _ _ => rfl, by simp, ?_, fun h => h, by simp⟩
    rintro task hTask
    exact ⟨next, (Option.some.inj hTask).symm, hNext, hNextFits⟩
  have hPut : Open server (s.cachedVersion write.vssKey) write.vssKey write.bytes →
      JobBlock server s write isNew (s.putFundCritical write isNew) := by
    intro hOpen
    rw [putFundCritical, hFenced]
    exact hStay _ (by simp) ⟨rfl, hOpen⟩
  have hBlob : ∀ version, server write.vssKey = some (write.bytes, version) →
      JobBlock server s write isNew ((s.recordVersion write.vssKey version).blobStored env id write isNew) := by
    intro version hEntry
    refine blobStored_late.jobBlock rfl rfl rfl rfl ?_ ?_
    · exact fun key hKey => Function.update_of_ne hKey ..
    · simp [Settled, cachedVersion, Server.version_of_some hEntry]
  have hLate : ∀ {block : Block}, LateBlock s write isNew block →
      Settled server (s.cachedVersion write.vssKey) write.vssKey → JobBlock server s write isNew block :=
    fun hBlock hSettled => hBlock.jobBlock rfl rfl rfl rfl (fun _ _ => rfl) hSettled
  rw [runMonitorJob.eq_def] at h
  split at h
  · cases h
    exact hPut (hQueued rfl)
  · cases h
    exact hBlob _ hFits
  · cases h
    exact hStay _ (by simp) hFits
  · cases h
    rename_i answer hNotOk hNotConflict
    refine hStay _ (by simp) ?_
    cases answer with
    | putOk new => exact absurd rfl (hNotOk new)
    | conflict => exact absurd rfl hNotConflict
    | deleteOk | found | missing | failed => exact hFits
  · rename_i bytes version
    obtain ⟨hEntry, rfl⟩ := hFits
    rw [if_pos rfl] at h
    cases h
    exact hBlob version hEntry
  · exact hFits.elim
  · cases h
    rename_i answer hNotFound hNotMissing
    refine hStay _ (by simp) (.inr ?_)
    cases answer with
    | found value version => exact absurd rfl (hNotFound value version)
    | missing => exact absurd rfl hNotMissing
    | putOk | deleteOk | conflict | failed => exact hFits
  · cases h
    exact hPut hFits
  · split at h
    · cases h
    · cases h
      exact hLate (writeManifestWithRetryLocked_late ⟨rfl, rfl, rfl, rfl, fun _ _ => rfl⟩) hFits
  · cases h
    exact hLate (localWriteWithRetry_late ⟨rfl, rfl, rfl, rfl, (SameButManifest.recordManifest s _).versions⟩) hFits
  · cases h
    exact hStay _ (by simp) hFits
  · cases h
    exact hStay _ (by simp) hFits
  · cases h
    exact hLate (writeManifestWithRetryLocked_late ((SameButManifest.recordManifest s _).mergeManifest _)) hFits
  · cases h
    exact hLate (writeManifestWithRetryLocked_late (.recordManifest s 0)) hFits
  · cases h
    exact hStay _ (by simp) hFits
  · cases h
    exact hLate (writeManifestWithRetryLocked_late (.refl s)) hFits
  · cases h
    exact hLate (localWriteWithRetry_late (.refl s)) hFits
  · cases h

/-! ## The invariant -/

def CmPhase.request (bytes : Bytes) : CmPhase → Request
  | .put version => .put channelManagerVssKey bytes version
  | .refetch => .get channelManagerVssKey

def Task.isCm : Task → Bool
  | .cm .. => true
  | _ => false

def Slot.link (slot : Slot) : Option (Link String) :=
  match slot.task with
  | .monitor write _ _ => some ⟨write.vssKey, slot.prev⟩
  | _ => none

def World.chained (w : World) : Chains String where
  live := fun id => (w.slots id).bind Slot.link
  last := w.store.chains
  next := w.nextId

theorem chained_live (w : World) (id : Nat) : w.chained.live id = (w.slots id).bind Slot.link := rfl

def SlotFits (w : World) (slot : Slot) : Prop :=
  match slot.task with
  | .monitor write _ phase =>
    (phase ≠ .queued → w.chained.Ready ⟨write.vssKey, slot.prev⟩) ∧ JobFits w.server w.store write phase slot.answer
  | .cm bytes byTick phase =>
    w.store.cmPending = (if byTick then some bytes else none) ∧
      AttemptFits w.server (w.store.cachedVersion channelManagerVssKey) channelManagerVssKey bytes
        (phase.request bytes) slot.answer
  | _ => False

/-- The oldest job of the key carries the bytes that the server holds. -/
def OldestHolds (w : World) (key : String) : Prop :=
  ∃ id slot write isNew phase, w.slots id = some slot ∧ slot.task = .monitor write isNew phase ∧ write.vssKey = key ∧
    Holds w.server key write.bytes ∧ ∀ other link, w.chained.live other = some link → link.key = key → id ≤ other

def KeyFits (s : Session) (key : String) : Prop :=
  Settled s.world.server (s.world.store.cachedVersion key) key ∨
    (s.missed key = true ∧ ∀ id link, s.world.chained.live id = some link → link.key ≠ key) ∨
    OldestHolds s.world key

structure SoleInv (s : Session) : Prop where
  unfenced : s.world.store.fenced = false
  unflagged : s.world.store.fencedFlag = false
  untripped : .fenced ∉ s.world.trace
  fresh : ∀ id slot, s.world.slots id = some slot → id < s.world.nextId
  chained : s.world.chained.WellFormed
  slots : ∀ id slot, s.world.slots id = some slot → SlotFits s.world slot
  keys : ∀ key, isValidMonitorKey key = true → KeyFits s key
  cmOne : ∀ i j first second, s.world.slots i = some first → s.world.slots j = some second →
    first.task.isCm = true → second.task.isCm = true → i = j
  cmIdle : (∀ id slot, s.world.slots id = some slot → slot.task.isCm = false) →
    Settled s.world.server (s.world.store.cachedVersion channelManagerVssKey) channelManagerVssKey ∨
      ∃ bytes, s.world.store.cmPending = some bytes ∧ Holds s.world.server channelManagerVssKey bytes

/-! ## Session starts -/

theorem seedFromListing_versions {server : Server} {monitors : StringMap LocalMonitor} {key : String}
    (h : (server key).isSome = true → ((seedFromListing server monitors).versions key).isSome = true) :
    Settled server (((seedFromListing server monitors).versions key).getD 0) key := by
  rw [Settled, Server.version]
  simp only [seedFromListing] at h ⊢
  cases hEntry : server key with
  | none => simp
  | some entry =>
    have hSome := h (by rw [hEntry]; rfl)
    split at hSome
    · simp [*]
    · cases hSome

theorem soleInv_seeded {w : World} (hFenced : w.store.fenced = false) (hFlag : w.store.fencedFlag = false)
    (hTrace : .fenced ∉ w.trace) (hSlots : ∀ id, w.slots id = none) (hChains : w.store.chains = fun _ => none)
    {monitors : StringMap LocalMonitor} (hVersions : w.store.versions = (seedFromListing w.server monitors).versions) :
    SoleInv ⟨w, missedBy w.server (seedFromListing w.server monitors)⟩ := by
  have hLive : w.chained = ⟨fun _ => none, fun _ => none, w.nextId⟩ := by
    simp [World.chained, hSlots, hChains]
  refine ⟨hFenced, hFlag, hTrace, by simp [hSlots], by rw [hLive]; exact Chains.wellFormed_empty _, by simp [hSlots],
    ?_, by simp [hSlots], ?_⟩
  · intro key _
    by_cases hMissed : missedBy w.server (seedFromListing w.server monitors) key = true
    · exact .inr (.inl ⟨hMissed, by simp [hLive]⟩)
    · refine .inl ?_
      rw [Store.cachedVersion, hVersions]
      apply seedFromListing_versions
      intro hSome
      simpa [missedBy, hSome, Option.isSome_iff_ne_none] using hMissed
  · intro _
    refine .inl ?_
    rw [Store.cachedVersion, hVersions]
    apply seedFromListing_versions
    intro hSome
    simpa [seedFromListing, fixedRemoteKeys] using hSome

theorem soleInv_start (server : Server) (monitors archivedMonitors : StringMap LocalMonitor) :
    SoleInv (Session.start server monitors archivedMonitors) :=
  soleInv_seeded rfl rfl (by simp [World.start]) (fun _ => rfl) rfl rfl

theorem SoleInv.restart {s : Session} (hInv : SoleInv s) :
    SoleInv ⟨s.world.stepRestart (seedFromListing s.world.server s.world.store.monitors),
      missedBy s.world.server (seedFromListing s.world.server s.world.store.monitors)⟩ := by
  refine soleInv_seeded (w := s.world.stepRestart (seedFromListing s.world.server s.world.store.monitors))
    hInv.unflagged hInv.unflagged ?_ (fun _ => rfl) rfl rfl
  intro hMem
  rcases List.mem_cons.mp hMem with hMem | hMem
  · cases hMem
  · exact hInv.untripped hMem

/-! ## Runs of tasks -/

theorem land_chained (w : World) (id nextId : Nat) (block : Block) (prev : Option Nat) :
    World.chained { w.land id block prev with nextId := nextId } =
      ⟨Function.update w.chained.live id (block.next.bind fun task => (Slot.mk task none prev).link),
        block.store.chains, nextId⟩ := by
  rw [World.chained]
  congr 1
  funext other
  rw [Function.update_apply, World.land_slots]
  split
  · cases block.next <;> rfl
  · rfl

/-- The other jobs of a key wait while a ready one is at work. -/
theorem SoleInv.queued_behind {s : Session} (hInv : SoleInv s) {id other : Nat} {slot slot' : Slot}
    {write write' : MonitorWrite} {isNew isNew' : Bool} {phase phase' : MonitorPhase}
    (hSlot : s.world.slots id = some slot) (hTask : slot.task = .monitor write isNew phase)
    (hReady : s.world.chained.Ready ⟨write.vssKey, slot.prev⟩) (hOther : s.world.slots other = some slot')
    (hTask' : slot'.task = .monitor write' isNew' phase') (hKey : write'.vssKey = write.vssKey) (hNe : other ≠ id) :
    phase' = .queued := by
  by_contra hBegun
  have hFits := hInv.slots other slot' hOther
  simp only [SlotFits, hTask'] at hFits
  have hLive : s.world.chained.live id = some ⟨write.vssKey, slot.prev⟩ := by
    simp [World.chained, hSlot, Slot.link, hTask]
  have hLive' : s.world.chained.live other = some ⟨write'.vssKey, slot'.prev⟩ := by
    simp [World.chained, hOther, Slot.link, hTask']
  have hLe := hInv.chained.oldest hLive' hLive hKey hReady
  have hGe := hInv.chained.oldest hLive hLive' hKey.symm (hFits.1 hBegun)
  omega

theorem jobFits_frame {server server' : Server} {s s' : Store} {write : MonitorWrite} {phase : MonitorPhase}
    {answer : Option Answer} (hServer : server' write.vssKey = server write.vssKey)
    (hVersions : s'.versions write.vssKey = s.versions write.vssKey) (h : JobFits server s write phase answer) :
    JobFits server' s' write phase answer := by
  have hCached : s'.cachedVersion write.vssKey = s.cachedVersion write.vssKey := by
    rw [Store.cachedVersion, hVersions, Store.cachedVersion]
  have hVersion : server'.version write.vssKey = server.version write.vssKey := by
    rw [Server.version, hServer, Server.version]
  cases phase with
  | queued => trivial
  | put version =>
    rw [JobFits, hCached]
    exact h.frame hServer
  | refetch =>
    rw [JobFits, hCached]
    exact h.frame hServer
  | sleep => simpa only [JobFits, Open, Settled, Holds, hCached, hVersion, hServer] using h
  | manifestLock | manifestPut | manifestRefetch | manifestSleep | localSleep =>
    simpa only [JobFits, Settled, hCached, hVersion] using h

theorem ready_update {c c' : Chains String} {link : Link String} (hLive : ∀ id, c.live id = none → c'.live id = none)
    (h : c.Ready link) : c'.Ready link :=
  fun id hPrev => hLive id (h id hPrev)

/-- A step of one task that touches one key: what it leaves alone, and what the task and the
key must meet after it. -/
structure Touches (s : Session) (w : World) (missed : String → Bool) (id : Nat) (key : String) : Prop where
  unfenced : w.store.fenced = false
  unflagged : w.store.fencedFlag = false
  untripped : .fenced ∉ w.trace
  nextId : s.world.nextId ≤ w.nextId
  idFresh : id < w.nextId
  chained : w.chained.WellFormed
  gone : ∀ other, other < s.world.nextId → s.world.chained.live other = none → w.chained.live other = none
  others : ∀ other, other ≠ id → w.slots other = s.world.slots other
  before : ∀ link, s.world.chained.live id = some link → link.key = key
  after : ∀ link, w.chained.live id = some link → link.key = key
  server : ∀ k, k ≠ key → k ≠ monitorManifestKey → w.server k = s.world.server k
  versions : ∀ k, k ≠ key → k ≠ monitorManifestKey → w.store.versions k = s.world.store.versions k
  missedSame : ∀ k, k ≠ key → missed k = s.missed k
  behind : ∀ other slot write isNew phase, other ≠ id → s.world.slots other = some slot →
    slot.task = .monitor write isNew phase → write.vssKey = key → phase = .queued ∨
      w.server key = s.world.server key ∧ w.store.versions key = s.world.store.versions key
  cmAside : ∀ other slot, other ≠ id → s.world.slots other = some slot → slot.task.isCm = true →
    key ≠ channelManagerVssKey ∧ w.store.cmPending = s.world.store.cmPending
  slot : ∀ slot, w.slots id = some slot → SlotFits w slot
  keyFits : isValidMonitorKey key = true → KeyFits ⟨w, missed⟩ key
  cmOne : ∀ i j first second, w.slots i = some first → w.slots j = some second →
    first.task.isCm = true → second.task.isCm = true → i = j
  cmIdle : (∀ id slot, w.slots id = some slot → slot.task.isCm = false) →
    Settled w.server (w.store.cachedVersion channelManagerVssKey) channelManagerVssKey ∨
      ∃ bytes, w.store.cmPending = some bytes ∧ Holds w.server channelManagerVssKey bytes

theorem SoleInv.ready_touch {s : Session} {w : World} {missed : String → Bool} {id : Nat} {key : String}
    (hInv : SoleInv s) (h : Touches s w missed id key) {other : Nat} {link : Link String}
    (hLive : s.world.chained.live other = some link) (hReady : s.world.chained.Ready link) :
    w.chained.Ready link :=
  fun prev hPrev => h.gone prev (hInv.chained.prevFresh other link prev hLive hPrev) (hReady prev hPrev)

theorem Touches.live_of_ne {s : Session} {w : World} {missed : String → Bool} {id : Nat} {key k : String}
    (h : Touches s w missed id key) (hKey : k ≠ key) {other : Nat} {link : Link String}
    (hLive : w.chained.live other = some link) (hLink : link.key = k) : s.world.chained.live other = some link := by
  have hNe : other ≠ id := by
    rintro rfl
    exact hKey (hLink ▸ h.after link hLive)
  rwa [chained_live, h.others other hNe] at hLive

theorem SoleInv.keyFits_touch {s : Session} {w : World} {missed : String → Bool} {id : Nat} {key k : String}
    (hInv : SoleInv s) (h : Touches s w missed id key) (hKey : k ≠ key) (hValid : isValidMonitorKey k = true) :
    KeyFits ⟨w, missed⟩ k := by
  have hManifest := isValidMonitorKey_ne_manifest hValid
  have hServer := h.server k hKey hManifest
  rcases hInv.keys k hValid with hSettled | ⟨hMissed, hNone⟩ |
    ⟨first, slot, write, isNew, phase, hSlot, hTask, hWrite, hHolds, hFirst⟩
  · refine .inl ?_
    rw [Settled, Store.cachedVersion, h.versions k hKey hManifest, Server.version, hServer]
    exact hSettled
  · refine .inr (.inl ⟨(h.missedSame k hKey).trans hMissed, ?_⟩)
    exact fun other link hLive hLink => hNone other link (h.live_of_ne hKey hLive hLink) hLink
  · have hLive : s.world.chained.live first = some ⟨write.vssKey, slot.prev⟩ := by
      simp [World.chained, hSlot, Slot.link, hTask]
    have hNe : first ≠ id := by
      rintro rfl
      exact hKey (hWrite ▸ h.before _ hLive)
    refine .inr (.inr ⟨first, slot, write, isNew, phase, (h.others first hNe).trans hSlot, hTask, hWrite, ?_, ?_⟩)
    · obtain ⟨version, hEntry⟩ := hHolds
      exact ⟨version, hServer.trans hEntry⟩
    · exact fun other link hLive' hLink => hFirst other link (h.live_of_ne hKey hLive' hLink) hLink

theorem SoleInv.slotFits_touch {s : Session} {w : World} {missed : String → Bool} {id other : Nat} {key : String}
    {slot : Slot} (hInv : SoleInv s) (h : Touches s w missed id key) (hNe : other ≠ id)
    (hSlot : s.world.slots other = some slot) : SlotFits w slot := by
  have hFits := hInv.slots other slot hSlot
  unfold SlotFits at hFits ⊢
  split at hFits
  · rename_i write isNew phase hTask
    have hLive : s.world.chained.live other = some ⟨write.vssKey, slot.prev⟩ := by
      simp [World.chained, hSlot, Slot.link, hTask]
    refine ⟨fun hBegun => hInv.ready_touch h hLive (hFits.1 hBegun), ?_⟩
    by_cases hKey : write.vssKey = key
    · rcases h.behind other slot write isNew phase hNe hSlot hTask hKey with rfl | ⟨hServer, hVersions⟩
      · trivial
      · rw [← hKey] at hServer hVersions
        exact jobFits_frame hServer hVersions hFits.2
    · have hManifest := isValidMonitorKey_ne_manifest write.keyValid
      exact jobFits_frame (h.server _ hKey hManifest) (h.versions _ hKey hManifest) hFits.2
  · rename_i bytes byTick phase hTask
    obtain ⟨hKey, hPending⟩ := h.cmAside other slot hNe hSlot (by rw [hTask]; rfl)
    refine ⟨hPending.trans hFits.1, ?_⟩
    rw [Store.cachedVersion, h.versions _ hKey.symm (by decide)]
    exact hFits.2.frame (h.server _ hKey.symm (by decide))
  · exact hFits

theorem SoleInv.touch {s : Session} {w : World} {missed : String → Bool} {id : Nat} {key : String}
    (hInv : SoleInv s) (h : Touches s w missed id key) : SoleInv ⟨w, missed⟩ := by
  refine ⟨h.unfenced, h.unflagged, h.untripped, ?_, h.chained, ?_, ?_, h.cmOne, h.cmIdle⟩
  · intro other slot hSlot
    by_cases hNe : other = id
    · exact hNe ▸ h.idFresh
    · exact (hInv.fresh other slot ((h.others other hNe).symm.trans hSlot)).trans_le h.nextId
  · intro other slot hSlot
    by_cases hNe : other = id
    · subst hNe
      exact h.slot slot hSlot
    · exact hInv.slotFits_touch h hNe ((h.others other hNe).symm.trans hSlot)
  · intro k hValid
    by_cases hKey : k = key
    · subst hKey
      exact h.keyFits hValid
    · exact hInv.keyFits_touch h hKey hValid

/-- A step of a task that is no channel-manager attempt leaves those alone. -/
theorem SoleInv.cm_frame {s : Session} {w : World} {id : Nat} (hInv : SoleInv s)
    (hOthers : ∀ other, other ≠ id → w.slots other = s.world.slots other)
    (hBefore : ∀ slot, s.world.slots id = some slot → slot.task.isCm = false)
    (hAfter : ∀ slot, w.slots id = some slot → slot.task.isCm = false)
    (hServer : w.server channelManagerVssKey = s.world.server channelManagerVssKey)
    (hVersions : w.store.versions channelManagerVssKey = s.world.store.versions channelManagerVssKey)
    (hPending : w.store.cmPending = s.world.store.cmPending) :
    (∀ i j first second, w.slots i = some first → w.slots j = some second →
      first.task.isCm = true → second.task.isCm = true → i = j) ∧
    ((∀ id slot, w.slots id = some slot → slot.task.isCm = false) →
      Settled w.server (w.store.cachedVersion channelManagerVssKey) channelManagerVssKey ∨
        ∃ bytes, w.store.cmPending = some bytes ∧ Holds w.server channelManagerVssKey bytes) := by
  have hCm : ∀ other slot, w.slots other = some slot → slot.task.isCm = true → s.world.slots other = some slot := by
    intro other slot hSlot hIsCm
    by_cases hNe : other = id
    · subst hNe
      simp [hAfter slot hSlot] at hIsCm
    · exact (hOthers other hNe).symm.trans hSlot
  refine ⟨?_, ?_⟩
  · intro i j first second hFirst hSecond hIsCm hIsCm'
    exact hInv.cmOne i j first second (hCm i first hFirst hIsCm) (hCm j second hSecond hIsCm') hIsCm hIsCm'
  · intro hNone
    rw [Settled, Store.cachedVersion, hVersions, Server.version, hServer, hPending]
    simp only [Holds, hServer]
    refine hInv.cmIdle ?_
    intro other slot hSlot
    by_cases hNe : other = id
    · subst hNe
      exact hBefore slot hSlot
    · exact hNone other slot ((hOthers other hNe).trans hSlot)

/-! ## Steps of monitor jobs -/

section Monitor

variable {s : Session} {id : Nat} {slot : Slot} {write : MonitorWrite} {isNew : Bool} {phase : MonitorPhase}

theorem chained_monitor {w : World} (hSlot : w.slots id = some slot) (hTask : slot.task = .monitor write isNew phase) :
    w.chained.live id = some ⟨write.vssKey, slot.prev⟩ := by
  simp [chained_live, hSlot, Slot.link, hTask]

/-- The job that is at work on a key carries what the server may hold of the oldest job. -/
theorem SoleInv.open_of_ready (hInv : SoleInv s) (hSlot : s.world.slots id = some slot)
    (hTask : slot.task = .monitor write isNew phase) (hReady : s.world.chained.Ready ⟨write.vssKey, slot.prev⟩) :
    Open s.world.server (s.world.store.cachedVersion write.vssKey) write.vssKey write.bytes := by
  have hLive := chained_monitor hSlot hTask
  rcases hInv.keys write.vssKey write.keyValid with hSettled | ⟨-, hNone⟩ |
    ⟨first, slot', write', isNew', phase', hSlot', hTask', hKey, hHolds, hFirst⟩
  · exact .inl hSettled
  · exact absurd rfl (hNone id _ hLive)
  · have hLe := hFirst id _ hLive rfl
    have hGe := hInv.chained.oldest (chained_monitor hSlot' hTask') hLive hKey hReady
    obtain rfl : first = id := by omega
    cases hSlot.symm.trans hSlot'
    cases hTask.symm.trans hTask'
    exact .inr hHolds

/-- What a step of the job at work on a key leaves alone, before the versions are looked at. -/
theorem SoleInv.oldest_at_work (hInv : SoleInv s) (hSlot : s.world.slots id = some slot)
    (hTask : slot.task = .monitor write isNew phase) (hReady : s.world.chained.Ready ⟨write.vssKey, slot.prev⟩)
    (other : Nat) (link : Link String) (hLive : s.world.chained.live other = some link)
    (hKey : link.key = write.vssKey) : id ≤ other :=
  hInv.chained.oldest hLive (chained_monitor hSlot hTask) hKey hReady

theorem JobBlock.chained {block : Block} {server : Server} (hJob : JobBlock server s.world.store write isNew block)
    (hInv : SoleInv s) (hSlot : s.world.slots id = some slot) (hTask : slot.task = .monitor write isNew phase)
    (hReady : s.world.chained.Ready ⟨write.vssKey, slot.prev⟩) :
    (s.world.land id block slot.prev).chained.WellFormed ∧
      ∀ other link, (s.world.land id block slot.prev).chained.live other = some link →
        s.world.chained.live other = some link := by
  have hLive := chained_monitor hSlot hTask
  have hChained := land_chained s.world id s.world.nextId block slot.prev
  rw [hJob.chains] at hChained
  cases hNext : block.next with
  | none =>
    have hDrop : (s.world.land id block slot.prev).chained = s.world.chained.drop id := by
      rw [hNext] at hChained
      exact hChained
    rw [hDrop]
    refine ⟨hInv.chained.drop hLive hReady, ?_⟩
    intro other link hOther
    simp only [Chains.drop, Function.update_apply] at hOther
    split at hOther
    · cases hOther
    · exact hOther
  | some task =>
    obtain ⟨phase', rfl, -⟩ := hJob.next task hNext
    have hSame : (s.world.land id block slot.prev).chained = s.world.chained := by
      rw [hNext] at hChained
      refine hChained.trans ?_
      simp only [Option.bind_some, Slot.link, ← hLive, Function.update_eq_self]
      rfl
    rw [hSame]
    exact ⟨hInv.chained, fun _ _ h => h⟩

theorem not_mem_land_trace {w : World} {block : Block} {prev : Option Nat} (hBlock : .fenced ∉ block.events)
    (hTrace : .fenced ∉ w.trace) : .fenced ∉ (w.land id block prev).trace := by
  intro hMem
  simp only [World.land_trace, List.mem_append, List.mem_reverse] at hMem
  rcases hMem with (hMem | hMem) | hMem
  · exact hBlock hMem
  · obtain ⟨request, hStarted⟩ := startedEvents_started hMem
    cases hStarted
  · exact hTrace hMem

theorem SoleInv.resumeMonitor (hInv : SoleInv s) {env : Env} {block : Block} (hSlot : s.world.slots id = some slot)
    (hTask : slot.task = .monitor write isNew phase) (hReady : s.world.chained.Ready ⟨write.vssKey, slot.prev⟩)
    (hBlock : s.world.store.runMonitorJob env id write isNew phase slot.answer = some block) :
    SoleInv ⟨s.world.land id block slot.prev, s.missed⟩ := by
  have hFits := hInv.slots id slot hSlot
  simp only [SlotFits, hTask] at hFits
  have hLive := chained_monitor hSlot hTask
  have hOpen := hInv.open_of_ready hSlot hTask hReady
  have hJob := Store.runMonitorJob_jobBlock hInv.unfenced hFits.2 (fun _ => hOpen) hBlock
  obtain ⟨hWell, hKept⟩ := hJob.chained hInv hSlot hTask hReady
  have hGone : ∀ other, s.world.chained.live other = none →
      (s.world.land id block slot.prev).chained.live other = none := by
    intro other hNone
    cases hOther : (s.world.land id block slot.prev).chained.live other with
    | none => rfl
    | some link => simp [hKept other link hOther] at hNone
  have hOthers : ∀ other, other ≠ id → (s.world.land id block slot.prev).slots other = s.world.slots other := by
    intro other hNe
    rw [World.land_slots, if_neg hNe]
  have hNext : ∀ slot', (s.world.land id block slot.prev).slots id = some slot' → ∃ phase',
      slot' = ⟨.monitor write isNew phase', none, slot.prev⟩ ∧ JobFits s.world.server block.store write phase' none := by
    intro slot' hSlot'
    rw [World.land_slots, if_pos rfl] at hSlot'
    obtain ⟨task, hNext, rfl⟩ := Option.map_eq_some_iff.mp hSlot'
    obtain ⟨phase', rfl, -, hNextFits⟩ := hJob.next task hNext
    exact ⟨phase', rfl, hNextFits⟩
  have hCmNe := (isValidMonitorKey_ne_channelManager write.keyValid).symm
  have hCm := hInv.cm_frame (w := s.world.land id block slot.prev) hOthers
    (fun slot' h => by cases hSlot.symm.trans h; rw [hTask]; rfl)
    (fun slot' h => by obtain ⟨phase', rfl, -⟩ := hNext slot' h; rfl)
    rfl (hJob.versions _ hCmNe (by decide)) hJob.pending
  suffices hTouches : Touches s (s.world.land id block slot.prev) s.missed id write.vssKey from hInv.touch hTouches
  refine ⟨hJob.fenced.trans hInv.unfenced, hJob.flag.trans hInv.unflagged,
    not_mem_land_trace hJob.quiet hInv.untripped, le_rfl, hInv.fresh id slot hSlot, hWell, fun other _ => hGone other,
    hOthers, ?_, ?_, fun _ _ _ => rfl, hJob.versions, fun _ _ => rfl, ?_, ?_, ?_, ?_, hCm.1, hCm.2⟩
  · intro link h
    cases hLive.symm.trans h
    rfl
  · intro link h
    cases hLive.symm.trans (hKept id link h)
    rfl
  · intro other slot' write' isNew' phase' hNe hOther hTask' hKey
    exact .inl (hInv.queued_behind hSlot hTask hReady hOther hTask' hKey hNe)
  · exact fun _ _ _ _ _ => ⟨hCmNe.symm, hJob.pending⟩
  · intro slot' hSlot'
    obtain ⟨phase', rfl, hNextFits⟩ := hNext slot' hSlot'
    exact ⟨fun _ => ready_update hGone hReady, hNextFits⟩
  · intro _
    cases hEnd : block.next with
    | none => exact .inl (hJob.done hEnd)
    | some task =>
      obtain ⟨phase', rfl, -⟩ := hJob.next task hEnd
      rcases hOpen with hSettled | hHolds
      · exact .inl (hJob.settled hSettled)
      · refine .inr (.inr ⟨id, ⟨_, none, slot.prev⟩, write, isNew, phase', ?_, rfl, rfl, hHolds, ?_⟩)
        · rw [World.land_slots, if_pos rfl, hEnd]
          rfl
        · exact fun other link h => hInv.oldest_at_work hSlot hTask hReady other link (hKept other link h)

theorem deliver_chained {w : World} (hSlot : w.slots id = some slot) (request : Request) (delivery : Delivery) :
    (w.stepDeliver id slot request delivery).chained = w.chained := by
  have hLive : (w.stepDeliver id slot request delivery).chained.live = w.chained.live := by
    funext other
    rw [chained_live, chained_live, World.stepDeliver_slots]
    split
    · rename_i hSame
      rw [hSame, hSlot]
      rfl
    · rfl
  rw [World.chained, World.chained, Chains.mk.injEq]
  exact ⟨hLive, rfl, rfl⟩

theorem not_mem_deliver_trace {w : World} (slot : Slot) (request : Request) (delivery : Delivery)
    (hTrace : .fenced ∉ w.trace) : .fenced ∉ (w.stepDeliver id slot request delivery).trace := by
  intro hMem
  rcases List.mem_append.mp hMem with hMem | hMem
  · obtain ⟨key, bytes, hShown | hShown⟩ := deliveryEvents_shown (List.mem_reverse.mp hMem) <;> cases hShown
  · exact hTrace hMem

theorem JobFits.deliver {server : Server} {st : Store} {request : Request} (delivery : Delivery)
    (hRequest : (Task.monitor write isNew phase).request = some request)
    (h : JobFits server st write phase none) :
    JobFits (server.deliver request delivery).1 st write phase (some (server.deliver request delivery).2) ∧
      (Open server (st.cachedVersion write.vssKey) write.vssKey write.bytes →
        Open (server.deliver request delivery).1 (st.cachedVersion write.vssKey) write.vssKey write.bytes) ∧
      (request.key = write.vssKey ∨ request.key = monitorManifestKey) := by
  have hLate : ∀ request : Request, request.key = monitorManifestKey → phase.afterBlob = true →
      JobFits (server.deliver request delivery).1 st write phase (some (server.deliver request delivery).2) := by
    intro request hKey hPhase
    rw [jobFits_afterBlob hPhase] at h ⊢
    rw [Settled, Server.version, server.deliver_other]
    · exact h
    · rw [hKey]
      exact isValidMonitorKey_ne_manifest write.keyValid
  cases phase with
  | put version =>
    cases hRequest
    have hAfter := AttemptFits.deliver_put delivery h
    exact ⟨hAfter, fun _ => hAfter.isOpen, .inl rfl⟩
  | refetch =>
    cases hRequest
    have hAfter := AttemptFits.deliver_get delivery (show AttemptFits server (st.cachedVersion write.vssKey)
      write.vssKey write.bytes (.get write.vssKey) none from h)
    exact ⟨hAfter, fun _ => hAfter.isOpen, .inl rfl⟩
  | manifestPut payload version =>
    cases hRequest
    have hAfter := hLate (.put monitorManifestKey payload version) rfl rfl
    exact ⟨hAfter, fun _ => .inl hAfter, .inr rfl⟩
  | manifestRefetch =>
    cases hRequest
    have hAfter := hLate (.get monitorManifestKey) rfl rfl
    exact ⟨hAfter, fun _ => .inl hAfter, .inr rfl⟩
  | queued | sleep | manifestLock | manifestSleep | localSleep => cases hRequest

theorem SoleInv.deliverMonitor (hInv : SoleInv s) {request : Request} (delivery : Delivery)
    (hSlot : s.world.slots id = some slot) (hTask : slot.task = .monitor write isNew phase)
    (hRequest : slot.task.request = some request) (hAnswer : slot.answer = none) :
    SoleInv ⟨s.world.stepDeliver id slot request delivery, s.missed⟩ := by
  have hFits := hInv.slots id slot hSlot
  simp only [SlotFits, hTask, hAnswer] at hFits
  rw [hTask] at hRequest
  have hReady : s.world.chained.Ready ⟨write.vssKey, slot.prev⟩ := by
    refine hFits.1 ?_
    rintro rfl
    cases hRequest
  have hLive := chained_monitor hSlot hTask
  have hChained := deliver_chained hSlot request delivery
  obtain ⟨hAfter, hOpen, hKeys⟩ := hFits.2.deliver delivery hRequest
  have hServer : ∀ k, k ≠ write.vssKey → k ≠ monitorManifestKey →
      (s.world.server.deliver request delivery).1 k = s.world.server k := by
    intro k hKey hManifest
    apply Server.deliver_other
    rcases hKeys with h | h <;> rw [h] <;> assumption
  have hOthers : ∀ other, other ≠ id →
      (s.world.stepDeliver id slot request delivery).slots other = s.world.slots other := by
    intro other hNe
    rw [World.stepDeliver_slots, if_neg hNe]
  have hNext : (s.world.stepDeliver id slot request delivery).slots id =
      some { slot with answer := some (s.world.server.deliver request delivery).2 } := by
    rw [World.stepDeliver_slots, if_pos rfl]
  have hCmNe := (isValidMonitorKey_ne_channelManager write.keyValid).symm
  have hCm := hInv.cm_frame (w := s.world.stepDeliver id slot request delivery) hOthers
    (fun slot' h => by cases hSlot.symm.trans h; rw [hTask]; rfl)
    (fun slot' h => by cases hNext.symm.trans h; exact hTask ▸ rfl)
    (hServer _ hCmNe (by decide)) rfl rfl
  suffices hTouches : Touches s (s.world.stepDeliver id slot request delivery) s.missed id write.vssKey from
    hInv.touch hTouches
  refine ⟨hInv.unfenced, hInv.unflagged, not_mem_deliver_trace slot request delivery hInv.untripped, le_rfl,
    hInv.fresh id slot hSlot, by rw [hChained]; exact hInv.chained, fun _ _ h => by rw [hChained]; exact h,
    hOthers, ?_, ?_, hServer, fun _ _ _ => rfl, fun _ _ => rfl, ?_, ?_, ?_, ?_, hCm.1, hCm.2⟩
  · intro link h
    cases hLive.symm.trans h
    rfl
  · intro link h
    rw [hChained] at h
    cases hLive.symm.trans h
    rfl
  · intro other slot' write' isNew' phase' hNe hOther hTask' hKey
    exact .inl (hInv.queued_behind hSlot hTask hReady hOther hTask' hKey hNe)
  · exact fun _ _ _ _ _ => ⟨hCmNe.symm, rfl⟩
  · intro slot' hSlot'
    cases hNext.symm.trans hSlot'
    simp only [SlotFits, hTask, hChained]
    exact ⟨fun _ => hReady, hAfter⟩
  · intro _
    rcases hOpen (hInv.open_of_ready hSlot hTask hReady) with hSettled | hHolds
    · exact .inl hSettled
    · refine .inr (.inr ⟨id, _, write, isNew, phase, hNext, hTask, rfl, hHolds, ?_⟩)
      intro other link h
      rw [hChained] at h
      exact hInv.oldest_at_work hSlot hTask hReady other link h

theorem enqueue_chained {w : World} (write : MonitorWrite) (isNew : Bool) (hFenced : w.store.fenced = false) :
    (w.stepCall (.queueMonitorWrite write isNew)).chained = w.chained.push write.vssKey := by
  refine (land_chained w w.nextId (w.nextId + 1) _ _).trans ?_
  simp only [Store.call, Store.queueMonitorWrite, hFenced]
  rfl

theorem SoleInv.queueMonitorWrite (hInv : SoleInv s) (write : MonitorWrite) (isNew : Bool)
    (hGuard : s.resendsMissed (.queueMonitorWrite write isNew) = true) :
    SoleInv ⟨s.world.stepCall (.queueMonitorWrite write isNew), Function.update s.missed write.vssKey false⟩ := by
  have hChained := enqueue_chained write isNew hInv.unfenced
  have hUnused : s.world.slots s.world.nextId = none := by
    cases hSlot : s.world.slots s.world.nextId with
    | none => rfl
    | some slot => exact absurd (hInv.fresh _ slot hSlot) (lt_irrefl _)
  have hNext : (s.world.stepCall (.queueMonitorWrite write isNew)).slots s.world.nextId =
      some ⟨.monitor write isNew .queued, none, s.world.store.chains write.vssKey⟩ := by
    refine (World.land_slots ..).trans ?_
    simp only [Store.call, Store.queueMonitorWrite, hInv.unfenced]
    rfl
  have hOthers : ∀ other, other ≠ s.world.nextId →
      (s.world.stepCall (.queueMonitorWrite write isNew)).slots other = s.world.slots other := by
    intro other hNe
    exact (World.land_slots ..).trans (if_neg hNe)
  have hStore : (s.world.stepCall (.queueMonitorWrite write isNew)).store =
      { s.world.store.noteMonitor write isNew with
        chains := Function.update s.world.store.chains write.vssKey (some s.world.nextId) } := by
    simp only [World.stepCall, World.land_store, Store.call, Store.queueMonitorWrite, hInv.unfenced]
    rfl
  have hTrace : (s.world.stepCall (.queueMonitorWrite write isNew)).trace =
      .queued s.world.nextId write isNew :: s.world.trace := by
    simp only [World.stepCall, World.land_trace, Store.call, Store.queueMonitorWrite, hInv.unfenced]
    rfl
  have hOld : ∀ {other link}, (s.world.chained.push write.vssKey).live other = some link →
      other = s.world.nextId ∨ s.world.chained.live other = some link := by
    intro other link h
    simp only [Chains.push, Function.update_apply] at h
    split at h
    · exact .inl (by assumption)
    · exact .inr h
  have hCmNe := (isValidMonitorKey_ne_channelManager write.keyValid).symm
  have hCm := hInv.cm_frame (w := s.world.stepCall (.queueMonitorWrite write isNew)) hOthers
    (fun slot' h => by simp [hUnused] at h) (fun slot' h => by cases hNext.symm.trans h; rfl)
    rfl (by rw [hStore]; rfl) (by rw [hStore]; rfl)
  suffices hTouches : Touches s (s.world.stepCall (.queueMonitorWrite write isNew))
    (Function.update s.missed write.vssKey false) s.world.nextId write.vssKey from hInv.touch hTouches
  refine ⟨by rw [hStore]; exact hInv.unfenced, by rw [hStore]; exact hInv.unflagged, ?_, Nat.le_succ _,
    Nat.lt_succ_self _, by rw [hChained]; exact hInv.chained.push _, ?_, hOthers, ?_, ?_, fun _ _ _ => rfl,
    fun _ _ _ => by rw [hStore]; rfl, fun _ hKey => Function.update_of_ne hKey .., ?_, ?_, ?_, ?_, hCm.1, hCm.2⟩
  · rw [hTrace]
    simpa using hInv.untripped
  · intro other hLt hNone
    rw [hChained, Chains.push]
    exact (Function.update_of_ne hLt.ne ..).trans hNone
  · intro link h
    simp [chained_live, hUnused] at h
  · intro link h
    rw [chained_live, hNext] at h
    cases h
    rfl
  · exact fun _ _ _ _ _ _ _ _ _ => .inr ⟨rfl, by rw [hStore]; rfl⟩
  · exact fun _ _ _ _ _ => ⟨hCmNe.symm, by rw [hStore]; rfl⟩
  · intro slot' hSlot'
    cases hNext.symm.trans hSlot'
    exact ⟨fun h => absurd rfl h, trivial⟩
  · intro hValid
    rcases hInv.keys _ hValid with hSettled | ⟨hMissed, hNone⟩ |
      ⟨first, slot', write', isNew', phase', hSlot', hTask', hKey', hHolds, hFirst⟩
    · refine .inl ?_
      rw [hStore]
      exact hSettled
    · refine .inr (.inr ⟨_, _, write, isNew, .queued, hNext, rfl, rfl, ?_, ?_⟩)
      · simp only [Session.resendsMissed, hMissed, Bool.not_true, Bool.false_or, Option.any_eq_true,
          decide_eq_true_eq] at hGuard
        obtain ⟨⟨bytes, version⟩, hEntry, rfl⟩ := hGuard
        exact ⟨version, hEntry⟩
      · intro other link h hLink
        rw [hChained] at h
        rcases hOld h with rfl | h
        · exact le_rfl
        · exact absurd hLink (hNone other link h)
    · have hLt := hInv.fresh first slot' hSlot'
      refine .inr (.inr ⟨first, slot', write', isNew', phase', (hOthers first hLt.ne).trans hSlot', hTask', hKey',
        hHolds, ?_⟩)
      intro other link h hLink
      rw [hChained] at h
      rcases hOld h with rfl | h
      · exact hLt.le
      · exact hFirst other link h hLink

end Monitor

/-! ## Channel-manager attempts -/

/-- A run of an attempt never fences; it goes on with the same bytes, or leaves them pending
unless the version is known. -/
structure CmBlock (server : Server) (s : Store) (bytes : Bytes) (byTick : Bool) (block : Block) : Prop where
  fenced : block.store.fenced = s.fenced
  flag : block.store.fencedFlag = s.fencedFlag
  chains : block.store.chains = s.chains
  versions : ∀ key, key ≠ channelManagerVssKey → block.store.versions key = s.versions key
  quiet : .fenced ∉ block.events
  next : ∀ task, block.next = some task → block.store.cmPending = s.cmPending ∧ ∃ phase, task = .cm bytes byTick phase ∧
    AttemptFits server (block.store.cachedVersion channelManagerVssKey) channelManagerVssKey bytes
      (phase.request bytes) none
  done : block.next = none →
    Settled server (block.store.cachedVersion channelManagerVssKey) channelManagerVssKey ∨
      ∃ bytes, block.store.cmPending = some bytes ∧ Holds server channelManagerVssKey bytes

theorem Store.cmRemoteAttempt_cmBlock {server : Server} {s : Store} {env : Env} {bytes : Bytes} {byTick : Bool}
    {phase : CmPhase} {answer : Option Answer} {block : Block}
    (hFits : AttemptFits server (s.cachedVersion channelManagerVssKey) channelManagerVssKey bytes
      (phase.request bytes) answer)
    (h : s.cmRemoteAttempt env bytes byTick phase answer = some block) : CmBlock server s bytes byTick block := by
  have hKnown : ∀ version, server channelManagerVssKey = some (bytes, version) →
      CmBlock server s bytes byTick
        ⟨(s.recordVersion channelManagerVssKey version).setCmPending none, none, []⟩ := by
    intro version hEntry
    refine ⟨rfl, rfl, rfl, fun key hKey => Function.update_of_ne hKey .., by simp, by simp, fun _ => .inl ?_⟩
    simp [Settled, cachedVersion, Server.version_of_some hEntry]
  have hStash : Open server (s.cachedVersion channelManagerVssKey) channelManagerVssKey bytes →
      CmBlock server s bytes byTick ⟨s.setCmPending (some bytes), none, []⟩ := by
    intro hOpen
    refine ⟨rfl, rfl, rfl, fun _ _ => rfl, by simp, by simp, fun _ => ?_⟩
    exact hOpen.imp_right fun hHolds => ⟨bytes, rfl, hHolds⟩
  rw [cmRemoteAttempt.eq_def] at h
  split at h
  · cases h
    exact hKnown _ hFits
  · cases h
    refine ⟨rfl, rfl, rfl, fun _ _ => rfl, by simp, ?_, by simp⟩
    rintro task hTask
    exact ⟨rfl, .refetch, (Option.some.inj hTask).symm, hFits⟩
  · cases h
    exact hStash hFits.isOpen
  · rename_i value version
    obtain ⟨hEntry, rfl⟩ := hFits
    rw [if_pos rfl] at h
    cases h
    exact hKnown version hEntry
  · exact hFits.elim
  · cases h
    exact hStash hFits.isOpen
  · cases h

section ChannelManager

variable {s : Session} {id : Nat} {slot : Slot} {bytes : Bytes} {byTick : Bool} {phase : CmPhase}

theorem chained_cm {w : World} (hSlot : w.slots id = some slot) (hTask : slot.task = .cm bytes byTick phase) :
    w.chained.live id = none := by
  simp [chained_live, hSlot, Slot.link, hTask]

theorem SoleInv.cm_alone (hInv : SoleInv s) (hSlot : s.world.slots id = some slot)
    (hTask : slot.task = .cm bytes byTick phase) {other : Nat} {slot' : Slot} (hNe : other ≠ id)
    (hOther : s.world.slots other = some slot') : slot'.task.isCm = false := by
  cases hIsCm : slot'.task.isCm with
  | false => rfl
  | true => exact absurd (hInv.cmOne other id slot' slot hOther hSlot hIsCm (by rw [hTask]; rfl)) hNe

theorem SoleInv.resumeCm (hInv : SoleInv s) {env : Env} {block : Block} (hSlot : s.world.slots id = some slot)
    (hTask : slot.task = .cm bytes byTick phase)
    (hBlock : s.world.store.cmRemoteAttempt env bytes byTick phase slot.answer = some block) :
    SoleInv ⟨s.world.land id block slot.prev, s.missed⟩ := by
  have hFits := hInv.slots id slot hSlot
  simp only [SlotFits, hTask] at hFits
  have hCm := Store.cmRemoteAttempt_cmBlock hFits.2 hBlock
  have hDead := chained_cm hSlot hTask
  have hNext : ∀ slot', (s.world.land id block slot.prev).slots id = some slot' → ∃ phase',
      slot' = ⟨.cm bytes byTick phase', none, slot.prev⟩ ∧ SlotFits (s.world.land id block slot.prev) slot' := by
    intro slot' hSlot'
    rw [World.land_slots, if_pos rfl] at hSlot'
    obtain ⟨task, hNext, rfl⟩ := Option.map_eq_some_iff.mp hSlot'
    obtain ⟨hPending, phase', rfl, hNextFits⟩ := hCm.next task hNext
    exact ⟨phase', rfl, hPending.trans hFits.1, hNextFits⟩
  have hOthers : ∀ other, other ≠ id → (s.world.land id block slot.prev).slots other = s.world.slots other := by
    intro other hNe
    rw [World.land_slots, if_neg hNe]
  have hChained : (s.world.land id block slot.prev).chained = s.world.chained := by
    have hLive : (s.world.land id block slot.prev).chained.live = s.world.chained.live := by
      funext other
      by_cases hNe : other = id
      · subst hNe
        rw [hDead, chained_live]
        cases hSlot' : (s.world.land other block slot.prev).slots other with
        | none => rfl
        | some slot' =>
          obtain ⟨phase', rfl, -⟩ := hNext slot' hSlot'
          rfl
      · rw [chained_live, hOthers other hNe, chained_live]
    rw [World.chained, World.chained, Chains.mk.injEq]
    exact ⟨hLive, hCm.chains, rfl⟩
  suffices hTouches : Touches s (s.world.land id block slot.prev) s.missed id channelManagerVssKey from
    hInv.touch hTouches
  refine ⟨hCm.fenced.trans hInv.unfenced, hCm.flag.trans hInv.unflagged,
    not_mem_land_trace hCm.quiet hInv.untripped, le_rfl, hInv.fresh id slot hSlot, by rw [hChained]; exact hInv.chained,
    fun _ _ h => by rw [hChained]; exact h, hOthers, fun link h => by simp [hDead] at h,
    fun link h => by simp [hChained, hDead] at h, fun _ _ _ => rfl, fun k hKey _ => hCm.versions k hKey, fun _ _ => rfl,
    ?_, ?_, ?_, ?_, ?_, ?_⟩
  · intro other slot' write isNew phase' hNe hOther hMonitor hKey
    exact absurd hKey (isValidMonitorKey_ne_channelManager write.keyValid)
  · intro other slot' hNe hOther hIsCm
    simp [hInv.cm_alone hSlot hTask hNe hOther] at hIsCm
  · intro slot' hSlot'
    exact (hNext slot' hSlot').choose_spec.2
  · intro hValid
    exact absurd hValid (by decide)
  · intro i j first second hFirst hSecond hIsCm hIsCm'
    have hOnly : ∀ other slot', (s.world.land id block slot.prev).slots other = some slot' →
        slot'.task.isCm = true → other = id := by
      intro other slot' hOther hIsCm
      by_contra hNe
      rw [hOthers other hNe] at hOther
      simp [hInv.cm_alone hSlot hTask hNe hOther] at hIsCm
    rw [hOnly i first hFirst hIsCm, hOnly j second hSecond hIsCm']
  · intro hNone
    cases hEnd : block.next with
    | none => exact hCm.done hEnd
    | some task =>
      obtain ⟨-, phase', rfl, -⟩ := hCm.next task hEnd
      have hSlot' : (s.world.land id block slot.prev).slots id = some ⟨.cm bytes byTick phase', none, slot.prev⟩ := by
        rw [World.land_slots, if_pos rfl, hEnd]
        rfl
      cases hNone id _ hSlot'

theorem SoleInv.deliverCm (hInv : SoleInv s) {request : Request} (delivery : Delivery)
    (hSlot : s.world.slots id = some slot) (hTask : slot.task = .cm bytes byTick phase)
    (hRequest : slot.task.request = some request) (hAnswer : slot.answer = none) :
    SoleInv ⟨s.world.stepDeliver id slot request delivery, s.missed⟩ := by
  have hFits := hInv.slots id slot hSlot
  simp only [SlotFits, hTask, hAnswer] at hFits
  have hDead := chained_cm hSlot hTask
  have hChained := deliver_chained hSlot request delivery
  obtain ⟨rfl, hAfter⟩ : request = phase.request bytes ∧
      AttemptFits (s.world.server.deliver request delivery).1 (s.world.store.cachedVersion channelManagerVssKey)
        channelManagerVssKey bytes (phase.request bytes) (some (s.world.server.deliver request delivery).2) := by
    rw [hTask] at hRequest
    cases phase with
    | put version =>
      cases hRequest
      exact ⟨rfl, AttemptFits.deliver_put delivery hFits.2⟩
    | refetch =>
      cases hRequest
      exact ⟨rfl, AttemptFits.deliver_get delivery hFits.2⟩
  have hKey : (phase.request bytes).key = channelManagerVssKey := by cases phase <;> rfl
  have hOthers : ∀ other, other ≠ id →
      (s.world.stepDeliver id slot (phase.request bytes) delivery).slots other = s.world.slots other := by
    intro other hNe
    rw [World.stepDeliver_slots, if_neg hNe]
  have hNext : (s.world.stepDeliver id slot (phase.request bytes) delivery).slots id =
      some { slot with answer := some (s.world.server.deliver (phase.request bytes) delivery).2 } := by
    rw [World.stepDeliver_slots, if_pos rfl]
  have hOnly : ∀ other slot', (s.world.stepDeliver id slot (phase.request bytes) delivery).slots other = some slot' →
      slot'.task.isCm = true → other = id := by
    intro other slot' hOther hIsCm
    by_contra hNe
    rw [hOthers other hNe] at hOther
    simp [hInv.cm_alone hSlot hTask hNe hOther] at hIsCm
  suffices hTouches : Touches s (s.world.stepDeliver id slot (phase.request bytes) delivery) s.missed id
    channelManagerVssKey from hInv.touch hTouches
  refine ⟨hInv.unfenced, hInv.unflagged, not_mem_deliver_trace slot _ delivery hInv.untripped, le_rfl,
    hInv.fresh id slot hSlot, by rw [hChained]; exact hInv.chained, fun _ _ h => by rw [hChained]; exact h, hOthers,
    fun link h => by simp [hDead] at h, fun link h => by simp [hChained, hDead] at h, ?_, fun _ _ _ => rfl,
    fun _ _ => rfl, ?_, ?_, ?_, ?_, ?_, ?_⟩
  · intro k hNe _
    exact Server.deliver_other _ (by rwa [hKey]) delivery
  · intro other slot' write isNew phase' hNe hOther hMonitor hWrite
    exact absurd hWrite (isValidMonitorKey_ne_channelManager write.keyValid)
  · intro other slot' hNe hOther hIsCm
    simp [hInv.cm_alone hSlot hTask hNe hOther] at hIsCm
  · intro slot' hSlot'
    cases hNext.symm.trans hSlot'
    simp only [SlotFits, hTask]
    exact ⟨hFits.1, hAfter⟩
  · intro hValid
    exact absurd hValid (by decide)
  · intro i j first second hFirst hSecond hIsCm hIsCm'
    rw [hOnly i first hFirst hIsCm, hOnly j second hSecond hIsCm']
  · intro hNone
    have := hNone id _ hNext
    simp [hTask, Task.isCm] at this

theorem SoleInv.unused (hInv : SoleInv s) : s.world.slots s.world.nextId = none := by
  cases hSlot : s.world.slots s.world.nextId with
  | none => rfl
  | some slot => exact absurd (hInv.fresh _ slot hSlot) (lt_irrefl _)

/-- The world after a call that changes nothing but may spawn a task. -/
def World.spawned (w : World) (next : Option Task) : World :=
  { w.land w.nextId ⟨w.store, next, []⟩ none with nextId := w.nextId + 1 }

theorem spawned_slots (w : World) (next : Option Task) (other : Nat) :
    (w.spawned next).slots other = if other = w.nextId then next.map fun task => ⟨task, none, none⟩ else w.slots other :=
  World.land_slots ..

theorem SoleInv.spawned_chained (hInv : SoleInv s) (next : Option Task)
    (hNext : ∀ task, next = some task → task.isCm = true) :
    (s.world.spawned next).chained = s.world.chained.skip := by
  refine (land_chained ..).trans ?_
  have hLink : (next.bind fun task => (Slot.mk task none none).link) = s.world.chained.live s.world.nextId := by
    rw [chained_live, hInv.unused]
    cases next with
    | none => rfl
    | some task => cases task <;> first | rfl | cases hNext _ rfl
  rw [hLink, Function.update_eq_self]
  rfl

theorem SoleInv.returned (hInv : SoleInv s) : SoleInv ⟨s.world.spawned none, s.missed⟩ := by
  have hChained := hInv.spawned_chained none (by simp)
  have hSlots : ∀ other, (s.world.spawned none).slots other = s.world.slots other := by
    intro other
    rw [spawned_slots]
    split
    · rename_i hSame
      rw [hSame, hInv.unused]
      rfl
    · rfl
  refine ⟨hInv.unfenced, hInv.unflagged, not_mem_land_trace (by simp) hInv.untripped, ?_,
    by rw [hChained]; exact hInv.chained.skip, ?_, ?_, ?_, ?_⟩
  · intro other slot' hOther
    exact (hInv.fresh other slot' ((hSlots other).symm.trans hOther)).trans (Nat.lt_succ_self _)
  · intro other slot' hOther
    have hFits := hInv.slots other slot' ((hSlots other).symm.trans hOther)
    unfold SlotFits at hFits ⊢
    rw [hChained]
    exact hFits
  · intro key hValid
    rcases hInv.keys key hValid with hSettled | ⟨hMissed, hNone⟩ |
      ⟨first, slot', write, isNew, phase', hSlot', hRest⟩
    · exact .inl hSettled
    · exact .inr (.inl ⟨hMissed, by rw [hChained]; exact hNone⟩)
    · refine .inr (.inr ⟨first, slot', write, isNew, phase', (hSlots first).trans hSlot', ?_⟩)
      rw [hChained]
      exact hRest
  · intro i j first second hFirst hSecond
    exact hInv.cmOne i j first second ((hSlots i).symm.trans hFirst) ((hSlots j).symm.trans hSecond)
  · intro hNone
    exact hInv.cmIdle fun other slot' hOther => hNone other slot' ((hSlots other).trans hOther)

/-- An attempt that starts while no other is at work, with bytes that cannot be misread. -/
theorem SoleInv.startCmAttempt (hInv : SoleInv s)
    (hAlone : ∀ id slot, s.world.slots id = some slot → slot.task.isCm = false)
    (hPending : s.world.store.cmPending = if byTick then some bytes else none)
    (hOpen : Open s.world.server (s.world.store.cachedVersion channelManagerVssKey) channelManagerVssKey bytes) :
    SoleInv ⟨s.world.spawned
      (some (.cm bytes byTick (.put (s.world.store.cachedVersion channelManagerVssKey)))), s.missed⟩ := by
  have hChained := hInv.spawned_chained
    (some (.cm bytes byTick (.put (s.world.store.cachedVersion channelManagerVssKey)))) (by simp [Task.isCm])
  generalize hTask : Task.cm bytes byTick (.put (s.world.store.cachedVersion channelManagerVssKey)) = task at hChained ⊢
  have hDead : s.world.chained.live s.world.nextId = none := by rw [chained_live, hInv.unused]; rfl
  have hOthers : ∀ other, other ≠ s.world.nextId → (s.world.spawned (some task)).slots other = s.world.slots other := by
    intro other hNe
    rw [spawned_slots, if_neg hNe]
  have hNext : (s.world.spawned (some task)).slots s.world.nextId = some ⟨task, none, none⟩ := by
    rw [spawned_slots, if_pos rfl]
    rfl
  have hOnly : ∀ other slot', (s.world.spawned (some task)).slots other = some slot' → slot'.task.isCm = true →
      other = s.world.nextId := by
    intro other slot' hOther hIsCm
    by_contra hNe
    rw [hOthers other hNe] at hOther
    simp [hAlone other slot' hOther] at hIsCm
  suffices hTouches : Touches s (s.world.spawned (some task)) s.missed s.world.nextId channelManagerVssKey from
    hInv.touch hTouches
  refine ⟨hInv.unfenced, hInv.unflagged, not_mem_land_trace (by simp) hInv.untripped, Nat.le_succ _,
    Nat.lt_succ_self _, by rw [hChained]; exact hInv.chained.skip, fun _ _ h => by rw [hChained]; exact h, hOthers,
    fun link h => by simp [hDead] at h, fun link h => by rw [hChained] at h; exact absurd h (by simp [Chains.skip, hDead]),
    fun _ _ _ => rfl, fun _ _ _ => rfl, fun _ _ => rfl, fun _ _ _ _ _ _ _ _ _ => .inr ⟨rfl, rfl⟩, ?_, ?_, ?_, ?_, ?_⟩
  · intro other slot' hNe hOther hIsCm
    simp [hAlone other slot' hOther] at hIsCm
  · intro slot' hSlot'
    cases hNext.symm.trans hSlot'
    subst hTask
    exact ⟨hPending, rfl, hOpen⟩
  · intro hValid
    exact absurd hValid (by decide)
  · intro i j first second hFirst hSecond hIsCm hIsCm'
    rw [hOnly i first hFirst hIsCm, hOnly j second hSecond hIsCm']
  · intro hNone
    have hIsCm := hNone _ _ hNext
    subst hTask
    cases hIsCm

theorem SoleInv.cmBusy (hInv : SoleInv s) (hSlot : s.world.slots id = some slot)
    (hTask : slot.task = .cm bytes byTick phase) : s.world.cmBusy byTick = true := by
  refine List.any_eq_true.mpr ⟨id, List.mem_range.mpr (hInv.fresh id slot hSlot), ?_⟩
  obtain ⟨task, answer, prev⟩ := slot
  cases hTask
  simp [hSlot]

/-- A caller that finds neither itself at work nor the other side's bytes pending is alone. -/
theorem SoleInv.cm_none (hInv : SoleInv s) (hBusy : s.world.cmBusy byTick = false)
    (hPending : ∀ bytes, s.world.store.cmPending ≠ if !byTick then some bytes else none) {other : Nat} {slot' : Slot}
    (hOther : s.world.slots other = some slot') : slot'.task.isCm = false := by
  cases hTask : slot'.task with
  | cm bytes tick phase =>
    exfalso
    by_cases hTick : tick = byTick
    · subst hTick
      simp [hInv.cmBusy hOther hTask] at hBusy
    · have hFits := hInv.slots other slot' hOther
      simp only [SlotFits, hTask] at hFits
      refine hPending bytes (hFits.1.trans ?_)
      cases tick <;> cases byTick <;> simp_all
  | monitor | write | delete | archive | archiveDelete | backfill | fetch => rfl

theorem SoleInv.cmRemoteWriteBounded (hInv : SoleInv s) (bytes : Bytes)
    (hCallable : s.world.callable (.cmRemoteWriteBounded bytes) = true) :
    SoleInv ⟨s.world.stepCall (.cmRemoteWriteBounded bytes), s.missed⟩ := by
  have hBusy : s.world.cmBusy false = false := by simpa [World.callable] using hCallable
  cases hPending : s.world.store.cmPending with
  | some stashed =>
    have hSame : s.world.stepCall (.cmRemoteWriteBounded bytes) = s.world.spawned none := by
      simp [World.stepCall, World.spawned, Store.call, Store.cmRemoteWriteBounded, hPending, Store.returned]
    rw [hSame]
    exact hInv.returned
  | none =>
    have hSame : s.world.stepCall (.cmRemoteWriteBounded bytes) = s.world.spawned
        (some (.cm bytes false (.put (s.world.store.cachedVersion channelManagerVssKey)))) := by
      simp [World.stepCall, World.spawned, Store.call, Store.cmRemoteWriteBounded, hPending, hInv.unfenced,
        Store.startCmAttempt, Store.spawn]
    rw [hSame]
    have hAlone : ∀ id slot, s.world.slots id = some slot → slot.task.isCm = false :=
      fun id slot hSlot => hInv.cm_none hBusy (by simp [hPending]) hSlot
    refine hInv.startCmAttempt hAlone hPending ?_
    rcases hInv.cmIdle hAlone with hSettled | ⟨stashed, hStashed, -⟩
    · exact .inl hSettled
    · simp [hPending] at hStashed

theorem SoleInv.cmRetryPending (hInv : SoleInv s) (hCallable : s.world.callable .cmRetryPending = true) :
    SoleInv ⟨s.world.stepCall .cmRetryPending, s.missed⟩ := by
  have hBusy : s.world.cmBusy true = false := by simpa [World.callable] using hCallable
  cases hPending : s.world.store.cmPending with
  | none =>
    have hSame : s.world.stepCall .cmRetryPending = s.world.spawned none := by
      simp [World.stepCall, World.spawned, Store.call, Store.cmRetryPending, hPending, Store.returned]
    rw [hSame]
    exact hInv.returned
  | some bytes =>
    have hSame : s.world.stepCall .cmRetryPending = s.world.spawned
        (some (.cm bytes true (.put (s.world.store.cachedVersion channelManagerVssKey)))) := by
      simp [World.stepCall, World.spawned, Store.call, Store.cmRetryPending, hPending, hInv.unfenced,
        Store.startCmAttempt, Store.spawn]
    rw [hSame]
    have hAlone : ∀ id slot, s.world.slots id = some slot → slot.task.isCm = false :=
      fun id slot hSlot => hInv.cm_none hBusy (by simp [hPending]) hSlot
    refine hInv.startCmAttempt hAlone hPending ?_
    rcases hInv.cmIdle hAlone with hSettled | ⟨stashed, hStashed, hHolds⟩
    · exact .inl hSettled
    · cases hPending.symm.trans hStashed
      exact .inr hHolds

end ChannelManager

/-! ## Whole runs -/

theorem SoleInv.step {s s' : Session} {act : SessionAct} (hInv : SoleInv s) (hGuard : s.resendsMissed act = true)
    (h : s.step act = some s') : SoleInv s' := by
  cases act with
  | queueMonitorWrite write isNew =>
    rw [Session.step] at h
    obtain ⟨w, hStep, rfl⟩ := Option.map_eq_some_iff.mp h
    obtain ⟨-, rfl⟩ := World.step_call_iff.mp hStep
    exact hInv.queueMonitorWrite write isNew hGuard
  | cmRemoteWriteBounded bytes =>
    obtain ⟨w, hStep, rfl⟩ := Option.map_eq_some_iff.mp h
    obtain ⟨hCallable, rfl⟩ := World.step_call_iff.mp hStep
    exact hInv.cmRemoteWriteBounded bytes hCallable
  | cmRetryPending =>
    obtain ⟨w, hStep, rfl⟩ := Option.map_eq_some_iff.mp h
    obtain ⟨hCallable, rfl⟩ := World.step_call_iff.mp hStep
    exact hInv.cmRetryPending hCallable
  | deliver id delivery =>
    obtain ⟨w, hStep, rfl⟩ := Option.map_eq_some_iff.mp h
    obtain ⟨slot, request, hSlot, hRequest, hAnswer, rfl⟩ := World.step_deliver_iff.mp hStep
    have hFits := hInv.slots id slot hSlot
    cases hTask : slot.task with
    | monitor write isNew phase => exact hInv.deliverMonitor delivery hSlot hTask hRequest hAnswer
    | cm bytes byTick phase => exact hInv.deliverCm delivery hSlot hTask hRequest hAnswer
    | write | delete | archive | archiveDelete | backfill | fetch => simp [SlotFits, hTask] at hFits
  | resume id env =>
    obtain ⟨w, hStep, rfl⟩ := Option.map_eq_some_iff.mp h
    obtain ⟨slot, block, hSlot, hReady, hBlock, rfl⟩ := World.step_resume_iff.mp hStep
    have hFits := hInv.slots id slot hSlot
    cases hTask : slot.task with
    | monitor write isNew phase =>
      rw [hTask] at hBlock
      refine hInv.resumeMonitor hSlot hTask ?_ hBlock
      intro prev hPrev
      simp only [World.ready, show slot.prev = some prev from hPrev, Option.isNone_iff_eq_none] at hReady
      rw [chained_live, hReady]
      rfl
    | cm bytes byTick phase =>
      rw [hTask] at hBlock
      exact hInv.resumeCm hSlot hTask hBlock
    | write | delete | archive | archiveDelete | backfill | fetch => simp [SlotFits, hTask] at hFits
  | restart =>
    cases h
    exact hInv.restart

/-- One writer, any failures, any order of its writes and any restarts: the fence never trips,
provided that the first write of a session to a key that it missed resends what the server holds. -/
theorem singleWriter_unfenced (server : Server) (monitors archivedMonitors : StringMap LocalMonitor)
    (acts : List SessionAct) (s : Session)
    (hGuard : Along Session.step (fun s act => s.resendsMissed act = true)
      (.start server monitors archivedMonitors) acts)
    (hRun : exec Session.step (.start server monitors archivedMonitors) acts = some s) :
    .fenced ∉ s.world.trace ∧ s.world.store.fenced = false := by
  have hInv : SoleInv s := exec_inv (fun _ _ _ hInv hGuard hStep => hInv.step hGuard hStep)
    (soleInv_start server monitors archivedMonitors) hGuard hRun
  exact ⟨hInv.untripped, hInv.unfenced⟩

/-- A wallet whose channel manager is backed up. -/
def ownWallet : Session :=
  .start (Function.update (fun _ => none) channelManagerVssKey (some (.raw [0], 1))) ∅ ∅

/-- The acknowledgements of a monitor put and of a manager put are lost, and both are resent. -/
def lostAcks : List SessionAct :=
  [.queueMonitorWrite (sampleWrite [1]) false, .resume 0 calm, .deliver 0 .lost, .resume 0 calm, .resume 0 calm,
   .deliver 0 .ok, .resume 0 calm, .deliver 0 .ok, .resume 0 calm,
   .cmRemoteWriteBounded (.raw [1]), .deliver 1 .lost, .resume 1 calm, .cmRetryPending, .deliver 2 .ok,
   .resume 2 calm, .deliver 2 .ok, .resume 2 calm]

theorem singleWriter_unfenced_lostAcks :
    ∃ s, exec Session.step ownWallet lostAcks = some s ∧ .fenced ∉ s.world.trace ∧ s.world.store.fenced = false := by
  obtain ⟨s, hRun⟩ : ∃ s, exec Session.step ownWallet lostAcks = some s := Option.isSome_iff_exists.mp (by decide)
  exact ⟨s, hRun, singleWriter_unfenced _ _ _ lostAcks s (by decide) hRun⟩

/-- A new channel's blob reaches the server, the process dies before the local write, and the
next session writes the channel's monitor again. -/
def strandedBlob : List SessionAct :=
  [.queueMonitorWrite (sampleWrite [1]) true, .resume 0 calm, .deliver 0 .ok, .restart,
   .queueMonitorWrite (sampleWrite [2]) true, .resume 1 calm, .deliver 1 .ok, .resume 1 calm, .deliver 1 .ok,
   .resume 1 calm]

theorem strandedBlob_fences : ∃ s, exec Session.step ownWallet strandedBlob = some s ∧ .fenced ∈ s.world.trace := by
  have h : (exec Session.step ownWallet strandedBlob).map (fun s => decide (.fenced ∈ s.world.trace)) = some true := by
    decide
  obtain ⟨s, hRun, hFenced⟩ := Option.map_eq_some_iff.mp h
  exact ⟨s, hRun, of_decide_eq_true hFenced⟩

end WalletCore.Vss
