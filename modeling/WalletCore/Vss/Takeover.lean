import WalletCore.Vss.Durability
import WalletCore.Vss.SingleWriter

/-! # A key that another device has written

A channel's monitor and the channel manager belong to one device at a time. Once another device has
written such a key, every version that this store knows of it is out of date: none of its puts takes
effect any more, and the first one to be refused finds bytes that are not its own and fences.
-/

namespace WalletCore.Vss

open Lib

/-- The keys that are put until the server has them, and never over bytes that are not their own. -/
def fundCritical (key : String) : Bool := isValidMonitorKey key || key == channelManagerVssKey

theorem fundCritical_ne_manifest {key : String} (h : fundCritical key = true) : key ≠ monitorManifestKey := by
  rintro rfl
  exact absurd h (by decide)

/-- The bytes that a task writes under the key. -/
def Task.offer (key : String) : Task → Option Bytes
  | .monitor job _ _ => if job.vssKey = key then some job.bytes else none
  | .cm bytes _ _ => if channelManagerVssKey = key then some bytes else none
  | _ => none

/-- The task is no best-effort write, delete or fetch of the key. -/
def Task.spares (key : String) : Task → Bool
  | .write other _ _ _ | .delete other _ | .archive other _ | .archiveDelete other _ | .fetch other => other != key
  | _ => true

/-- The bytes that a call submits for the key. -/
def Act.offer (key : String) : Act → Option Bytes
  | .call (.queueMonitorWrite write _) => if write.vssKey = key then some write.bytes else none
  | .call (.cmRemoteWriteBounded bytes) => if channelManagerVssKey = key then some bytes else none
  | _ => none

/-- One session beside other devices, in which nobody deletes the key: the program names no such key
in a best-effort call, and the channel is not archived. -/
def sharesKey (key : String) (w : World) : Act → Bool
  | .call (.putLww other _) | .call (.putWithMerge other _) | .call (.deleteBestEffort other)
  | .call (.fetchVersioned other) => other != key
  | .call (.archiveMonitor name _) => w.store.nameToVssKey.lookup name != some key
  | .foreign other value => other != key || value.isSome
  | .restart _ => false
  | _ => true

/-! ## What a run learns of the key -/

/-- Where the version that the store knows of the key comes from. -/
inductive Learnt (key : String) (s : Store) (task : Task) (answer : Option Answer) (s' : Store) : Prop
  | same (hSame : s'.cachedVersion key = s.cachedVersion key)
  | acked (value : Bytes) (version new : Nat) (hRequest : task.request = some (.put key value version))
    (hAnswer : answer = some (.putOk new)) (hNew : s'.cachedVersion key = new)
  | absent (hRequest : task.request = some (.get key)) (hAnswer : answer = some .missing)
    (hNew : s'.cachedVersion key = 0)
  | found (value : Bytes) (version : Nat) (hRequest : task.request = some (.get key))
    (hAnswer : answer = some (.found value version)) (hNew : s'.cachedVersion key = version)
    (hOwn : task.offer key = some value ∨ s'.fenced = true)

/-- A put that starts names the version just known, and the store is not fenced. -/
def PutsCurrent (key : String) (block : Block) : Prop :=
  ∀ task value version, block.next = some task → task.request = some (.put key value version) →
    version = block.store.cachedVersion key ∧ block.store.fenced = false

structure Contact (key : String) (s : Store) (task : Task) (answer : Option Answer) (block : Block) : Prop where
  learnt : Learnt key s task answer block.store
  puts : PutsCurrent key block

theorem cachedVersion_recordVersion (s : Store) (key : String) (version : Nat) :
    (s.recordVersion key version).cachedVersion key = version := by
  simp [Store.cachedVersion]

theorem cachedVersion_eq {s s' : Store} {key : String} (h : s'.versions key = s.versions key) :
    s'.cachedVersion key = s.cachedVersion key := congrArg (Option.getD · 0) h

theorem cachedVersion_recordVersion_of_ne (s : Store) {key other : String} (h : key ≠ other) (version : Nat) :
    (s.recordVersion other version).cachedVersion key = s.cachedVersion key :=
  cachedVersion_eq (Function.update_of_ne h ..)

theorem putsCurrent_of_none {key : String} {block : Block} (h : block.next = none) : PutsCurrent key block := by
  intro task value version hNext
  rw [h] at hNext
  cases hNext

theorem putsCurrent_of_request {key : String} {block : Block}
    (h : ∀ task value version, block.next = some task → task.request ≠ some (.put key value version)) :
    PutsCurrent key block := fun task value version hNext hPut => absurd hPut (h task value version hNext)

namespace Store

variable {s s' : Store} {env : Env} {id : Nat} {write : MonitorWrite} {isNew : Bool} {key : String}

theorem tripFence_fenced (s : Store) (flagOk : Bool) : (s.tripFence flagOk).fenced = true := by
  rw [tripFence]
  split
  · assumption
  · rfl

theorem tripFence_versions (s : Store) (flagOk : Bool) (key : String) :
    (s.tripFence flagOk).versions key = s.versions key := by
  rw [tripFence]
  split <;> rfl

theorem tripFence_cmPending (s : Store) (flagOk : Bool) : (s.tripFence flagOk).cmPending = s.cmPending := by
  rw [tripFence]
  split <;> rfl

/-- Recording a version of another key teaches nothing of this one. -/
theorem learnt_recordVersion {task : Task} {answer : Option Answer} {other : String} {version : Nat}
    (hVersions : s'.versions key = (s.recordVersion other version).versions key)
    (hOwn : other = key → s'.cachedVersion key = version → Learnt key s task answer s') :
    Learnt key s task answer s' := by
  by_cases hOther : other = key
  · subst hOther
    exact hOwn rfl ((cachedVersion_eq hVersions).trans (cachedVersion_recordVersion ..))
  · exact .same ((cachedVersion_eq hVersions).trans (cachedVersion_recordVersion_of_ne s (Ne.symm hOther) _))

/-- Past the blob, a job's requests are for the manifest. -/
theorem putsCurrent_late {block : Block} (hKey : key ≠ monitorManifestKey) (h : LateBlock s write isNew block) :
    PutsCurrent key block := by
  refine putsCurrent_of_request fun task value version hNext hPut => ?_
  obtain ⟨phase, rfl, hLate⟩ := h.next task hNext
  cases phase with
  | manifestPut payload version =>
    cases hPut
    exact hKey rfl
  | queued | put | refetch | sleep => cases hLate
  | manifestLock | manifestRefetch | manifestSleep | localSleep => cases hPut

theorem putsCurrent_putFundCritical (s : Store) (write : MonitorWrite) (isNew : Bool) (key : String) :
    PutsCurrent key (s.putFundCritical write isNew) := by
  intro task value version hNext hPut
  rw [putFundCritical] at hNext ⊢
  split at hNext
  · cases hNext
  · next hFenced =>
    cases hNext
    cases hPut
    exact ⟨by rw [if_neg hFenced], by rw [if_neg hFenced]; simpa using hFenced⟩

/-- A run whose next task puts nothing under the key, and that knows the version it knew. -/
theorem contact_same {task : Task} {answer : Option Answer} {block : Block}
    (hSame : block.store.versions key = s.versions key) (hPuts : PutsCurrent key block) :
    Contact key s task answer block := ⟨.same (cachedVersion_eq hSame), hPuts⟩

theorem contact_late {s' : Store} {task : Task} {answer : Option Answer} {block : Block}
    (hKey : key ≠ monitorManifestKey) (hLate : LateBlock s' write isNew block)
    (hSame : s'.versions key = s.versions key) : Contact key s task answer block :=
  contact_same ((hLate.same.versions key hKey).trans hSame) (putsCurrent_late hKey hLate)

theorem runMonitorJob_contact {phase : MonitorPhase} {answer : Option Answer} {block : Block}
    (hKey : key ≠ monitorManifestKey) (h : s.runMonitorJob env id write isNew phase answer = some block) :
    Contact key s (.monitor write isNew phase) answer block := by
  have hStay : ∀ (next : MonitorPhase) (s' : Store),
      (∀ value version, (Task.monitor write isNew next).request ≠ some (.put key value version)) →
      PutsCurrent key ⟨s', some (.monitor write isNew next), []⟩ := by
    intro next s' hRequest
    refine putsCurrent_of_request fun task value version hNext => ?_
    cases hNext
    exact hRequest value version
  have hBlob : ∀ version, PutsCurrent key ((s.recordVersion write.vssKey version).blobStored env id write isNew) :=
    fun version => putsCurrent_late hKey blobStored_late
  have hManifest : ∀ version, (s.recordVersion monitorManifestKey version).versions key = s.versions key :=
    fun version => Function.update_of_ne hKey ..
  rw [runMonitorJob.eq_def] at h
  split at h
  · cases h
    exact contact_same (by rw [putFundCritical_store]) (putsCurrent_putFundCritical s write isNew key)
  · next version version' =>
    cases h
    refine ⟨learnt_recordVersion (blobStored_late.same.versions key hKey) fun hOwn hNew => ?_, hBlob _⟩
    exact .acked write.bytes version version' (hOwn ▸ rfl) rfl hNew
  · cases h
    exact contact_same rfl (hStay _ _ (by simp [Task.request]))
  · cases h
    exact contact_same rfl (hStay _ _ (by simp [Task.request]))
  · next bytes version =>
    split at h
    · next hBytes =>
      cases h
      refine ⟨learnt_recordVersion (blobStored_late.same.versions key hKey) fun hOwn hNew => ?_, hBlob _⟩
      exact .found bytes version (hOwn ▸ rfl) rfl hNew (.inl ((if_pos hOwn).trans (congrArg some hBytes.symm)))
    · cases h
      refine ⟨learnt_recordVersion (tripFence_versions ..) fun hOwn hNew => ?_, putsCurrent_of_none rfl⟩
      exact .found bytes version (hOwn ▸ rfl) rfl hNew (.inr (tripFence_fenced ..))
  · cases h
    refine ⟨learnt_recordVersion rfl fun hOwn hNew => ?_, hStay _ _ (by simp [Task.request])⟩
    exact .absent (hOwn ▸ rfl) rfl hNew
  · cases h
    exact contact_same rfl (hStay _ _ (by simp [Task.request]))
  · cases h
    exact contact_same (by rw [putFundCritical_store]) (putsCurrent_putFundCritical s write isNew key)
  · split at h
    · cases h
    · cases h
      exact contact_late hKey (writeManifestWithRetryLocked_late (.refl _)) rfl
  · cases h
    exact contact_late hKey (localWriteWithRetry_late (.refl _)) (hManifest _)
  · cases h
    exact contact_same rfl (hStay _ _ (by simp [Task.request]))
  · cases h
    exact contact_same rfl (hStay _ _ (by simp [Task.request]))
  · cases h
    exact contact_late hKey (writeManifestWithRetryLocked_late ((SameButManifest.recordManifest s _).mergeManifest _)) rfl
  · cases h
    exact contact_late hKey (writeManifestWithRetryLocked_late (.refl _)) (hManifest _)
  · cases h
    exact contact_same rfl (hStay _ _ (by simp [Task.request]))
  · cases h
    exact contact_late hKey (writeManifestWithRetryLocked_late (.refl _)) rfl
  · cases h
    exact contact_late hKey (localWriteWithRetry_late (.refl _)) rfl
  · cases h

theorem manifestRound_same (h : SameButManifest s s') (round : Nat) : SameButManifest s (s'.manifestRound round).1 := by
  rw [manifestRound]
  split
  · exact ⟨h.fenced, h.flag, h.chains, h.pending, h.versions⟩
  · split
    · split <;> exact ⟨h.fenced, h.flag, h.chains, h.pending, h.versions⟩
    · exact h

/-- The best-effort manifest write touches nothing but the manifest's version and its lock. -/
theorem writeManifestOnceBestEffort_same {phase : OncePhase} {answer : Option Answer}
    {result : Store × Option OncePhase} (h : s.writeManifestOnceBestEffort phase answer = some result) :
    SameButManifest s result.1 := by
  have hSame : SameButManifest s s := .refl s
  have hUnlocked : ∀ {s' : Store}, SameButManifest s s' → SameButManifest s s'.unlockManifest :=
    fun h => ⟨h.fenced, h.flag, h.chains, h.pending, h.versions⟩
  have hLocked : SameButManifest s s.lockManifest := ⟨rfl, rfl, rfl, rfl, fun _ _ => rfl⟩
  have hRemoved : SameButManifest s (s.removeVersion monitorManifestKey) :=
    ⟨rfl, rfl, rfl, rfl, fun _ hKey => Function.update_of_ne hKey ..⟩
  have hRecord := SameButManifest.recordManifest s
  rw [writeManifestOnceBestEffort.eq_def] at h
  split at h
  · cases h
    exact hSame
  · split at h
    · cases h
    · cases h
      exact manifestRound_same hLocked 0
  · cases h
    exact hUnlocked (hRecord _)
  · cases h
    exact hSame
  · cases h
    exact hUnlocked hSame
  · cases h
    exact manifestRound_same ((hRecord _).mergeManifest _) _
  · cases h
    exact manifestRound_same (hRecord _) _
  · cases h
    exact hUnlocked hSame
  · cases h
    exact hUnlocked hRemoved
  · cases h
    exact hUnlocked hSame
  · cases h

theorem OncePhase.request_ne (hKey : key ≠ monitorManifestKey) (phase : OncePhase) (value : Bytes) (version : Nat) :
    phase.request ≠ some (.put key value version) := by
  intro hPut
  cases phase <;> cases hPut
  exact hKey rfl

theorem recordSome_versions (s : Store) {other : String} (hOther : key ≠ other) (version : Option Nat) :
    (s.recordSome other version).versions key = s.versions key := by
  cases version with
  | none => rfl
  | some version => exact Function.update_of_ne hOther ..

/-- A run learns of the key only by a put or a fetch of it, and puts only what it knows to be current. -/
theorem resume_contact (hCritical : fundCritical key = true) {task : Task} {answer : Option Answer} {block : Block}
    (hSpares : task.spares key = true) (h : s.resume env id task answer = some block) :
    Contact key s task answer block := by
  have hKey := fundCritical_ne_manifest hCritical
  cases task with
  | monitor write isNew phase => exact runMonitorJob_contact hKey h
  | cm bytes byTick phase =>
    rw [resume, cmRemoteAttempt.eq_def] at h
    split at h
    · next version version' =>
      cases h
      refine ⟨learnt_recordVersion rfl fun hOwn hNew => ?_, putsCurrent_of_none rfl⟩
      exact .acked bytes version version' (hOwn ▸ rfl) rfl hNew
    · cases h
      refine contact_same rfl (putsCurrent_of_request fun task value version hNext => ?_)
      cases hNext
      simp [Task.request]
    · cases h
      exact contact_same rfl (putsCurrent_of_none rfl)
    · next remote version =>
      split at h
      · next hBytes =>
        cases h
        refine ⟨learnt_recordVersion rfl fun hOwn hNew => ?_, putsCurrent_of_none rfl⟩
        exact .found remote version (hOwn ▸ rfl) rfl hNew (.inl ((if_pos hOwn).trans (congrArg some hBytes.symm)))
      · cases h
        refine ⟨learnt_recordVersion (tripFence_versions ..) fun hOwn hNew => ?_, putsCurrent_of_none rfl⟩
        exact .found remote version (hOwn ▸ rfl) rfl hNew (.inr (tripFence_fenced ..))
    · cases h
      refine ⟨learnt_recordVersion rfl fun hOwn hNew => ?_, putsCurrent_of_none rfl⟩
      exact .absent (hOwn ▸ rfl) rfl hNew
    · cases h
      exact contact_same rfl (putsCurrent_of_none rfl)
    · cases h
  | write other bytes policy phase =>
    have hOther : key ≠ other := Ne.symm (by simpa [Task.spares] using hSpares)
    obtain ⟨⟨recorded, next⟩, -, rfl⟩ := Option.map_eq_some_iff.mp h
    refine contact_same (recordSome_versions s hOther recorded) (putsCurrent_of_request fun task value version hNext => ?_)
    obtain ⟨phase, -, rfl⟩ := Option.map_eq_some_iff.mp hNext
    rintro hPut
    cases phase <;> cases hPut <;> exact hOther rfl
  | delete other started =>
    have hOther : key ≠ other := Ne.symm (by simpa [Task.spares] using hSpares)
    rw [resume, runDelete.eq_def] at h
    split at h <;> cases h
    · refine contact_same rfl (putsCurrent_of_request fun task value version hNext => ?_)
      split at hNext <;> cases hNext
      simp [Task.request]
    · exact contact_same (Function.update_of_ne hOther ..) (putsCurrent_of_none rfl)
  | archive other phase =>
    obtain ⟨result, hResult, rfl⟩ := Option.map_eq_some_iff.mp h
    have hSame := (writeManifestOnceBestEffort_same hResult).versions key hKey
    split
    · refine contact_same hSame (putsCurrent_of_request fun task value version hNext => ?_)
      cases hNext
      exact OncePhase.request_ne hKey _ value version
    · split
      · exact contact_same hSame (putsCurrent_of_none rfl)
      · refine contact_same hSame (putsCurrent_of_request fun task value version hNext => ?_)
        cases hNext
        simp [Task.request]
  | archiveDelete other version =>
    have hOther : key ≠ other := Ne.symm (by simpa [Task.spares] using hSpares)
    rw [resume, finishArchive.eq_def] at h
    split at h <;> cases h
    · exact contact_same (Function.update_of_ne hOther ..) (putsCurrent_of_none rfl)
    · exact contact_same rfl (putsCurrent_of_none rfl)
  | backfill phase =>
    obtain ⟨⟨after, next⟩, hResult, rfl⟩ := Option.map_eq_some_iff.mp h
    refine contact_same ((writeManifestOnceBestEffort_same hResult).versions key hKey)
      (putsCurrent_of_request fun task value version hNext => ?_)
    obtain ⟨phase, -, rfl⟩ := Option.map_eq_some_iff.mp hNext
    exact OncePhase.request_ne hKey _ value version
  | fetch other =>
    have hOther : key ≠ other := Ne.symm (by simpa [Task.spares] using hSpares)
    rw [resume, fetchVersioned.eq_def] at h
    split at h <;> cases h
    · exact contact_same (Function.update_of_ne hOther ..) (putsCurrent_of_none rfl)
    · exact contact_same rfl (putsCurrent_of_none rfl)

theorem call_contact (s : Store) (id : Nat) (call : Call) (key : String) :
    (s.call id call).store.versions = s.versions ∧ PutsCurrent key (s.call id call).toBlock := by
  have hQuiet : ∀ block : Block, (∀ task, block.next = some task → task.request = none) → PutsCurrent key block := by
    refine fun block hNone => putsCurrent_of_request fun task value version hNext => ?_
    rw [hNone task hNext]
    exact nofun
  have hStart : ∀ bytes byTick, (s.startCmAttempt bytes byTick).store.versions = s.versions ∧
      PutsCurrent key (s.startCmAttempt bytes byTick).toBlock := by
    intro bytes byTick
    rw [startCmAttempt]
    split
    · exact ⟨rfl, hQuiet _ (by simp [returned])⟩
    · next hFenced =>
      refine ⟨rfl, fun task value version hNext hPut => ?_⟩
      cases hNext
      cases hPut
      exact ⟨rfl, Bool.eq_false_iff.mpr hFenced⟩
  cases call with
  | queueMonitorWrite write isNew =>
    rw [call, queueMonitorWrite]
    split
    · exact ⟨rfl, hQuiet _ (by simp [returned])⟩
    · exact ⟨rfl, hQuiet _ (by simp [enqueue, Task.request])⟩
  | cmRemoteWriteBounded bytes =>
    rw [call, cmRemoteWriteBounded]
    split
    · exact ⟨rfl, hQuiet _ (by simp [returned])⟩
    · exact hStart bytes false
  | cmRetryPending =>
    rw [call, cmRetryPending]
    split
    · exact ⟨rfl, hQuiet _ (by simp [returned])⟩
    · exact hStart _ true
  | archiveMonitor name localOk =>
    obtain ⟨files, archived, hLocal⟩ := s.archiveLocal_eq name localOk
    rw [call, archiveMonitor, hLocal]
    split
    · exact ⟨rfl, hQuiet _ (by simp [returned])⟩
    · simp only
      split
      · exact ⟨rfl, hQuiet _ (by simp [returned])⟩
      · exact ⟨rfl, hQuiet _ (by simp [spawn, Task.request, OncePhase.request])⟩
  | backfillManifestIfNeeded =>
    rw [call, backfillManifestIfNeeded]
    split
    · exact ⟨rfl, hQuiet _ (by simp [spawn, Task.request, OncePhase.request])⟩
    · exact ⟨rfl, hQuiet _ (by simp [returned])⟩
  | putLww other bytes => exact ⟨rfl, hQuiet _ (by simp [call, enqueue, Task.request, WritePhase.request])⟩
  | putWithMerge other bytes => exact ⟨rfl, hQuiet _ (by simp [call, enqueue, Task.request, WritePhase.request])⟩
  | deleteBestEffort other => exact ⟨rfl, hQuiet _ (by simp [call, enqueue, Task.request])⟩
  | fetchVersioned other =>
    refine ⟨rfl, putsCurrent_of_request fun task value version hNext => ?_⟩
    cases hNext
    simp [Task.request]

end Store

/-! ## What the tasks have for the key -/

theorem Task.GoesOn.offer {task next : Task} (h : task.GoesOn next) (key : String) : next.offer key = task.offer key := by
  cases h <;> rfl

theorem Task.GoesOn.spares {task next : Task} (h : task.GoesOn next) {key : String} (hTask : task.spares key = true) :
    next.spares key = true := by
  cases h <;> exact hTask

/-- The bytes that a call's task has for the key were submitted by it, or are those of the refused manager. -/
theorem call_offer (s : Store) (id : Nat) (call : Call) (key : String) {task : Task} {bytes : Bytes}
    (hNext : (s.call id call).next = some task) (hOffer : task.offer key = some bytes) :
    (Act.call call).offer key = some bytes ∨ channelManagerVssKey = key ∧ s.cmPending = some bytes := by
  have hStart : ∀ bytes' byTick, (s.startCmAttempt bytes' byTick).next = some task →
      channelManagerVssKey = key ∧ bytes' = bytes := by
    intro bytes' byTick hNext
    rw [Store.startCmAttempt] at hNext
    split at hNext
    · cases hNext
    · cases hNext
      simpa [Task.offer] using hOffer
  cases call with
  | queueMonitorWrite write isNew =>
    rw [Store.call, Store.queueMonitorWrite] at hNext
    split at hNext <;> cases hNext
    exact .inl hOffer
  | cmRemoteWriteBounded bytes' =>
    rw [Store.call, Store.cmRemoteWriteBounded] at hNext
    split at hNext
    · cases hNext
    · obtain ⟨hKey, rfl⟩ := hStart _ _ hNext
      exact .inl (if_pos hKey)
  | cmRetryPending =>
    rw [Store.call, Store.cmRetryPending] at hNext
    split at hNext
    · cases hNext
    · next pending hPending =>
      obtain ⟨hKey, rfl⟩ := hStart _ _ hNext
      exact .inr ⟨hKey, hPending⟩
  | archiveMonitor name localOk =>
    rw [Store.call, Store.archiveMonitor] at hNext
    simp only at hNext
    split at hNext
    · cases hNext
    · split at hNext <;> cases hNext
      cases hOffer
  | backfillManifestIfNeeded =>
    rw [Store.call, Store.backfillManifestIfNeeded] at hNext
    split at hNext <;> cases hNext
    cases hOffer
  | putLww | putWithMerge | deleteBestEffort | fetchVersioned =>
    cases hNext
    cases hOffer

theorem call_spares {w : World} {call : Call} {key : String} (hShared : sharesKey key w (.call call) = true)
    {task : Task} (hNext : (w.store.call w.nextId call).next = some task) : task.spares key = true := by
  have hStart : ∀ bytes byTick, (w.store.startCmAttempt bytes byTick).next = some task → task.spares key = true := by
    intro bytes byTick hNext
    rw [Store.startCmAttempt] at hNext
    split at hNext <;> cases hNext
    rfl
  cases call with
  | queueMonitorWrite write isNew =>
    rw [Store.call, Store.queueMonitorWrite] at hNext
    split at hNext <;> cases hNext
    rfl
  | cmRemoteWriteBounded bytes =>
    rw [Store.call, Store.cmRemoteWriteBounded] at hNext
    split at hNext
    · cases hNext
    · exact hStart _ _ hNext
  | cmRetryPending =>
    rw [Store.call, Store.cmRetryPending] at hNext
    split at hNext
    · cases hNext
    · exact hStart _ _ hNext
  | archiveMonitor name localOk =>
    rw [Store.call, Store.archiveMonitor, Store.archiveLocal_nameToVssKey] at hNext
    simp only at hNext
    split at hNext
    · cases hNext
    · next other hName =>
      split at hNext <;> cases hNext
      simpa [sharesKey, hName, Task.spares] using hShared
  | backfillManifestIfNeeded =>
    rw [Store.call, Store.backfillManifestIfNeeded] at hNext
    split at hNext <;> cases hNext
    rfl
  | putLww | putWithMerge | deleteBestEffort | fetchVersioned =>
    cases hNext
    exact hShared

theorem call_cmPending (s : Store) (id : Nat) (call : Call) : (s.call id call).store.cmPending = s.cmPending := by
  have hStart : ∀ bytes byTick, (s.startCmAttempt bytes byTick).store.cmPending = s.cmPending := by
    intro bytes byTick
    rw [Store.startCmAttempt]
    split <;> rfl
  cases call with
  | queueMonitorWrite write isNew =>
    rw [Store.call, Store.queueMonitorWrite]
    split <;> rfl
  | cmRemoteWriteBounded bytes =>
    rw [Store.call, Store.cmRemoteWriteBounded]
    split
    · rfl
    · exact hStart _ _
  | cmRetryPending =>
    rw [Store.call, Store.cmRetryPending]
    split
    · rfl
    · exact hStart _ _
  | archiveMonitor name localOk =>
    obtain ⟨files, archived, hLocal⟩ := s.archiveLocal_eq name localOk
    rw [Store.call, Store.archiveMonitor, hLocal]
    split
    · rfl
    · simp only
      split <;> rfl
  | backfillManifestIfNeeded =>
    rw [Store.call, Store.backfillManifestIfNeeded]
    split <;> rfl
  | putLww | putWithMerge | deleteBestEffort | fetchVersioned => rfl

/-- A run leaves the refused manager alone, forgets it, or refuses its own. -/
theorem resume_cmPending {s : Store} {env : Env} {id : Nat} {task : Task} {answer : Option Answer} {block : Block}
    (h : s.resume env id task answer = some block) {bytes : Bytes} (hPending : block.store.cmPending = some bytes) :
    s.cmPending = some bytes ∨ task.offer channelManagerVssKey = some bytes := by
  have hKept : block.store.cmPending = s.cmPending →
      s.cmPending = some bytes ∨ task.offer channelManagerVssKey = some bytes := fun hSame => .inl (hSame ▸ hPending)
  cases task with
  | monitor write isNew phase =>
    refine hKept ?_
    rw [Store.resume, Store.runMonitorJob.eq_def] at h
    split at h <;> (try split at h) <;> cases h
    all_goals first
      | rfl
      | rw [Store.putFundCritical_store]
      | exact Store.blobStored_late.same.pending
      | exact Store.tripFence_cmPending ..
      | exact (Store.localWriteWithRetry_late (.refl _)).same.pending
      | exact (Store.writeManifestWithRetryLocked_late (.refl _)).same.pending
      | exact (Store.writeManifestWithRetryLocked_late ((SameButManifest.recordManifest s _).mergeManifest _)).same.pending
  | cm bytes' byTick phase =>
    rw [Store.resume, Store.cmRemoteAttempt.eq_def] at h
    split at h <;> (try split at h) <;> cases h
    all_goals first
      | exact .inl hPending
      | exact .inl ((Store.tripFence_cmPending (s.recordVersion channelManagerVssKey _) env.flagOk).symm.trans hPending)
      | cases hPending; done
      | cases hPending; exact .inr (by simp [Task.offer])
  | write key bytes' policy phase =>
    obtain ⟨⟨recorded, next⟩, -, rfl⟩ := Option.map_eq_some_iff.mp h
    refine hKept ?_
    cases recorded <;> rfl
  | delete key started =>
    rw [Store.resume, Store.runDelete.eq_def] at h
    split at h <;> cases h <;> exact .inl hPending
  | archive key phase =>
    obtain ⟨result, hResult, rfl⟩ := Option.map_eq_some_iff.mp h
    have hSame := (Store.writeManifestOnceBestEffort_same hResult).pending
    refine hKept ?_
    split
    · exact hSame
    · split <;> exact hSame
  | archiveDelete key version =>
    rw [Store.resume, Store.finishArchive.eq_def] at h
    split at h <;> cases h <;> exact .inl hPending
  | backfill phase =>
    obtain ⟨result, hResult, rfl⟩ := Option.map_eq_some_iff.mp h
    exact hKept (Store.writeManifestOnceBestEffort_same hResult).pending
  | fetch key =>
    rw [Store.resume, Store.fetchVersioned.eq_def] at h
    split at h <;> cases h <;> exact .inl hPending

/-! ## Versions that are out of date -/

/-- The slot's put names a version below the limit, and its answer knows none above; one at the limit
came with the other device's bytes. -/
structure Slot.Behind (key : String) (bytes : Bytes) (limit : Nat) (slot : Slot) : Prop where
  puts : ∀ value version, slot.task.request = some (.put key value version) →
    version < limit ∧ ∀ new, slot.answer = some (.putOk new) → new < limit
  gets : slot.task.request = some (.get key) → ∀ value version, slot.answer = some (.found value version) →
    version < limit ∨ version = limit ∧ value = bytes

/-- Whatever the store knows of the key is below the limit, or it is fenced; and nothing it has for the
key is the other device's bytes. -/
structure Behind (key : String) (bytes : Bytes) (limit : Nat) (w : World) : Prop where
  spares : ∀ id slot, w.slots id = some slot → slot.task.spares key = true
  alien : ∀ id slot, w.slots id = some slot → slot.task.offer key ≠ some bytes
  pending : channelManagerVssKey = key → w.store.cmPending ≠ some bytes
  slots : ∀ id slot, w.slots id = some slot → slot.Behind key bytes limit
  cached : w.store.cachedVersion key < limit ∨ w.store.cachedVersion key = limit ∧ w.store.fenced = true

section Behind

variable {key : String} {bytes : Bytes} {limit : Nat} {w w' : World}

theorem Slot.Behind.mono {slot : Slot} (h : slot.Behind key bytes limit) {limit' : Nat} (hLt : limit < limit') :
    slot.Behind key bytes limit' where
  puts value version hRequest := by
    obtain ⟨hVersion, hNew⟩ := h.puts value version hRequest
    exact ⟨hVersion.trans hLt, fun new hAnswer => (hNew new hAnswer).trans hLt⟩
  gets hRequest value version hAnswer := by
    rcases h.gets hRequest value version hAnswer with hVersion | ⟨rfl, -⟩
    · exact .inl (hVersion.trans hLt)
    · exact .inl hLt

theorem Behind.mono (h : Behind key bytes limit w) {limit' : Nat} (hLt : limit < limit') : Behind key bytes limit' w where
  spares := h.spares
  alien := h.alien
  pending := h.pending
  slots id slot hSlot := (h.slots id slot hSlot).mono hLt
  cached := by
    rcases h.cached with hCached | ⟨hCached, -⟩
    · exact .inl (hCached.trans hLt)
    · exact .inl (hCached ▸ hLt)

theorem Behind.land (h : Behind key bytes limit w) {id : Nat} (nextId : Nat) {block : Block} {prev : Option Nat}
    (hSpares : ∀ task, block.next = some task → task.spares key = true)
    (hAlien : ∀ task, block.next = some task → task.offer key ≠ some bytes)
    (hPending : channelManagerVssKey = key → block.store.cmPending ≠ some bytes) (hPuts : PutsCurrent key block)
    (hCached : block.store.cachedVersion key < limit ∨
      block.store.cachedVersion key = limit ∧ block.store.fenced = true) :
    Behind key bytes limit { w.land id block prev with nextId := nextId } := by
  have hSlots : ∀ other slot, (w.land id block prev).slots other = some slot →
      (∃ task, block.next = some task ∧ slot = ⟨task, none, prev⟩) ∨ w.slots other = some slot := by
    intro other slot hSlot
    rw [World.land_slots] at hSlot
    split at hSlot
    · obtain ⟨task, hTask, rfl⟩ := Option.map_eq_some_iff.mp hSlot
      exact .inl ⟨task, hTask, rfl⟩
    · exact .inr hSlot
  refine ⟨?_, ?_, hPending, ?_, hCached⟩
  · intro other slot hSlot
    obtain ⟨task, hTask, rfl⟩ | hSlot := hSlots other slot hSlot
    · exact hSpares task hTask
    · exact h.spares other slot hSlot
  · intro other slot hSlot
    obtain ⟨task, hTask, rfl⟩ | hSlot := hSlots other slot hSlot
    · exact hAlien task hTask
    · exact h.alien other slot hSlot
  · intro other slot hSlot
    obtain ⟨task, hTask, rfl⟩ | hSlot := hSlots other slot hSlot
    · refine ⟨fun value version hRequest => ⟨?_, nofun⟩, fun _ _ _ => nofun⟩
      obtain ⟨rfl, hOpen⟩ := hPuts task value version hTask hRequest
      rcases hCached with hCached | ⟨-, hFenced⟩
      · exact hCached
      · rw [hOpen] at hFenced
        cases hFenced
    · exact h.slots other slot hSlot

theorem Behind.call (h : Behind key bytes limit w) {call : Call} (hShared : sharesKey key w (.call call) = true)
    (hAlien : (Act.call call).offer key ≠ some bytes) : Behind key bytes limit (w.stepCall call) := by
  obtain ⟨hVersions, hPuts⟩ := w.store.call_contact w.nextId call key
  have hCached : (w.store.call w.nextId call).store.cachedVersion key = w.store.cachedVersion key :=
    cachedVersion_eq (congrFun hVersions key)
  refine h.land (w.nextId + 1) (fun task hNext => call_spares hShared hNext) ?_ ?_ hPuts ?_
  · intro task hNext hOffer
    rcases call_offer w.store w.nextId call key hNext hOffer with hOwn | ⟨hKey, hPending⟩
    · exact hAlien hOwn
    · exact h.pending hKey hPending
  · rw [call_cmPending]
    exact h.pending
  · rw [hCached]
    refine h.cached.imp_right fun hAt => ⟨hAt.1, ?_⟩
    exact (Store.call_fenceMove w.store w.nextId call).fenced_mono hAt.2

theorem Behind.resume (h : Behind key bytes limit w) (hCritical : fundCritical key = true) (hLimit : 0 < limit)
    {id : Nat} {slot : Slot} {env : Env} {block : Block} (hSlot : w.slots id = some slot)
    (hBlock : w.store.resume env id slot.task slot.answer = some block) :
    Behind key bytes limit (w.land id block slot.prev) := by
  obtain ⟨hLearnt, hPuts⟩ := Store.resume_contact hCritical (h.spares id slot hSlot) hBlock
  have hFrame := Store.resume_frame hBlock
  have hBehind := h.slots id slot hSlot
  refine h.land w.nextId ?_ ?_ ?_ hPuts ?_
  · exact fun task hNext => (hFrame.next task hNext).spares (h.spares id slot hSlot)
  · intro task hNext
    rw [(hFrame.next task hNext).offer]
    exact h.alien id slot hSlot
  · rintro rfl hPending
    rcases resume_cmPending hBlock hPending with hBefore | hOwn
    · exact h.pending rfl hBefore
    · exact h.alien id slot hSlot hOwn
  · cases hLearnt with
    | same hSame =>
      rw [hSame]
      exact h.cached.imp_right fun hAt => ⟨hAt.1, (Store.resume_fenceMove hBlock).fenced_mono hAt.2⟩
    | acked value version new hRequest hAnswer hNew =>
      rw [hNew]
      exact .inl ((hBehind.puts value version hRequest).2 new hAnswer)
    | absent hRequest hAnswer hNew =>
      rw [hNew]
      exact .inl hLimit
    | found value version hRequest hAnswer hNew hOwn =>
      rw [hNew]
      rcases hBehind.gets hRequest value version hAnswer with hBelow | ⟨hAt, rfl⟩
      · exact .inl hBelow
      · exact .inr ⟨hAt, hOwn.resolve_left (h.alien id slot hSlot)⟩

theorem Behind.deliver (h : Behind key bytes limit w) {limit' : Nat} (hLe : limit ≤ limit') {id : Nat} {slot : Slot}
    {request : Request} {delivery : Delivery} (hSlot : w.slots id = some slot)
    (hAnswered : Slot.Behind key bytes limit' { slot with answer := some (w.server.deliver request delivery).2 }) :
    Behind key bytes limit' (w.stepDeliver id slot request delivery) := by
  have hUp : Behind key bytes limit' w := by
    rcases hLe.eq_or_lt with rfl | hLt
    · exact h
    · exact h.mono hLt
  have hSlots : ∀ other slot', (w.stepDeliver id slot request delivery).slots other = some slot' →
      slot' = { slot with answer := some (w.server.deliver request delivery).2 } ∨ w.slots other = some slot' := by
    intro other slot' hSlot'
    rw [World.stepDeliver_slots] at hSlot'
    split at hSlot'
    · exact .inl (Option.some.inj hSlot').symm
    · exact .inr hSlot'
  refine ⟨?_, ?_, hUp.pending, ?_, hUp.cached⟩
  · intro other slot' hSlot'
    rcases hSlots other slot' hSlot' with rfl | hSlot'
    · exact h.spares id slot hSlot
    · exact h.spares other slot' hSlot'
  · intro other slot' hSlot'
    rcases hSlots other slot' hSlot' with rfl | hSlot'
    · exact h.alien id slot hSlot
    · exact h.alien other slot' hSlot'
  · intro other slot' hSlot'
    rcases hSlots other slot' hSlot' with rfl | hSlot'
    · exact hAnswered
    · exact hUp.slots other slot' hSlot'

/-- A task that spares the key deletes nothing under it. -/
theorem request_ne_delete (hCritical : fundCritical key = true) {task : Task} (hSpares : task.spares key = true)
    (version : Nat) : task.request ≠ some (.delete key version) := by
  have hManifest := fundCritical_ne_manifest hCritical
  intro hRequest
  have hOnce : ∀ phase : OncePhase, phase.request ≠ some (.delete key version) := by
    intro phase hPhase
    cases phase <;> cases hPhase
    exact hManifest rfl
  cases task with
  | monitor write isNew phase => cases phase <;> cases hRequest
  | cm bytes byTick phase => cases phase <;> cases hRequest
  | write other bytes policy phase => cases phase <;> cases hRequest
  | delete other started =>
    obtain ⟨_, -, hDelete⟩ := Option.map_eq_some_iff.mp hRequest
    cases hDelete
    simp [Task.spares] at hSpares
  | archive other phase => exact hOnce phase hRequest
  | archiveDelete other version =>
    cases hRequest
    simp [Task.spares] at hSpares
  | backfill phase => exact hOnce phase hRequest
  | fetch other => cases hRequest

/-- What a delivery does to the key: nothing, or a put at the version that the server has. -/
theorem deliver_at (hCritical : fundCritical key = true) (server : Server) {task : Task} {request : Request}
    (hSpares : task.spares key = true) (hRequest : task.request = some request) (delivery : Delivery) :
    (server.deliver request delivery).1 key = server key ∨
      ∃ value, request = .put key value (server.version key) ∧
        (server.deliver request delivery).1 key = some (value, server.version key + 1) := by
  have hEffect := server.deliver_effect request delivery
  generalize (server.deliver request delivery).1 = after at hEffect ⊢
  cases hEffect with
  | none => exact .inl rfl
  | put other value version hVersion =>
    by_cases hKey : key = other
    · subst hKey
      subst hVersion
      exact .inr ⟨value, rfl, Function.update_self ..⟩
    · exact .inl (Function.update_of_ne hKey ..)
  | delete other value version hEntry =>
    by_cases hKey : key = other
    · subst hKey
      exact absurd hRequest (request_ne_delete hCritical hSpares version)
    · exact .inl (Function.update_of_ne hKey ..)

/-- A put that names another version than the server's is refused, or its answer is lost. -/
theorem deliver_stale {server : Server} {value : Bytes} {version : Nat} (h : server.version key ≠ version)
    (delivery : Delivery) (new : Nat) : (server.deliver (.put key value version) delivery).2 ≠ .putOk new := by
  cases delivery <;> simp [Server.deliver, Server.once, h]

/-- Below the server's own version everything stays below it, whatever is delivered. -/
theorem Behind.deliver_current (h : Behind key bytes (w.server.version key + 1) w) (hCritical : fundCritical key = true)
    {id : Nat} {slot : Slot} {request : Request} {delivery : Delivery} (hSlot : w.slots id = some slot)
    (hRequest : slot.task.request = some request) :
    Behind key bytes ((w.stepDeliver id slot request delivery).server.version key + 1)
      (w.stepDeliver id slot request delivery) := by
  have hAnswered := w.server.deliver_answered request delivery
  have hLe : w.server.version key ≤ (w.server.deliver request delivery).1.version key := by
    rcases deliver_at hCritical w.server (h.spares id slot hSlot) hRequest delivery with hSame | ⟨value, -, hPut⟩
    · rw [Server.version, Server.version, hSame]
    · rw [Server.version_of_some hPut]
      exact Nat.le_succ _
  refine h.deliver (Nat.succ_le_succ hLe) hSlot ⟨?_, ?_⟩
  · intro value version hPut
    cases hRequest.symm.trans hPut
    refine ⟨((h.slots id slot hSlot).puts value version hRequest).1.trans_le (Nat.succ_le_succ hLe), ?_⟩
    intro new hNew
    rw [Option.some.inj hNew] at hAnswered
    exact Nat.lt_succ_of_le (Server.version_of_some hAnswered.2).ge
  · intro hGet value version hFound
    cases hRequest.symm.trans hGet
    rw [Option.some.inj hFound] at hAnswered
    exact .inl (Nat.lt_succ_of_le (Server.version_of_some hAnswered).ge)

/-- Over the other device's bytes no delivery changes the key. -/
theorem Behind.deliver_taken (h : Behind key bytes limit w) (hTaken : w.server key = some (bytes, limit))
    (hCritical : fundCritical key = true) {id : Nat} {slot : Slot} {request : Request} {delivery : Delivery}
    (hSlot : w.slots id = some slot) (hRequest : slot.task.request = some request) :
    (w.stepDeliver id slot request delivery).server key = some (bytes, limit) ∧
      Behind key bytes limit (w.stepDeliver id slot request delivery) := by
  have hVersion : w.server.version key = limit := Server.version_of_some hTaken
  have hBehind := h.slots id slot hSlot
  have hSame : (w.server.deliver request delivery).1 key = w.server key := by
    rcases deliver_at hCritical w.server (h.spares id slot hSlot) hRequest delivery with hSame | ⟨value, rfl, -⟩
    · exact hSame
    · exact absurd hVersion (hBehind.puts value _ hRequest).1.ne
  refine ⟨hSame.trans hTaken, h.deliver le_rfl hSlot ⟨?_, ?_⟩⟩
  · intro value version hPut
    cases hRequest.symm.trans hPut
    have hStale := (hBehind.puts value version hRequest).1
    refine ⟨hStale, fun new hNew => ?_⟩
    exact absurd (Option.some.inj hNew) (deliver_stale (by omega) delivery new)
  · intro hGet value version hFound
    cases hRequest.symm.trans hGet
    have hAnswered := w.server.deliver_answered (.get key) delivery
    rw [Option.some.inj hFound] at hAnswered
    cases hTaken.symm.trans (hSame.symm.trans hAnswered)
    exact .inr ⟨rfl, rfl⟩

end Behind

/-! ## The jobs queued behind the takeover -/

/-- A job for the key that has not had its blob accepted, and will not. -/
def Slot.Waits (key : String) (bytes : Bytes) (slot : Slot) : Prop :=
  ∀ write isNew phase, slot.task = .monitor write isNew phase → write.vssKey = key →
    match phase with
    | .queued | .sleep => True
    | .put _ => ∀ new, slot.answer ≠ some (.putOk new)
    | .refetch => ∀ value version, slot.answer = some (.found value version) → value = bytes
    | _ => False

/-- The jobs numbered from the given one on wait, and none of them has completed. -/
structure Unheard (key : String) (bytes : Bytes) (first : Nat) (w : World) : Prop where
  waits : ∀ id slot, w.slots id = some slot → first ≤ id → slot.Waits key bytes
  unsignalled : ∀ id write isNew, .monitorUpdated id write isNew ∈ w.trace → write.vssKey = key → id < first

section Unheard

variable {key : String} {bytes : Bytes} {first : Nat} {w w' : World}

theorem waits_of_other {task : Task} (h : ∀ write isNew phase, task ≠ .monitor write isNew phase)
    (answer : Option Answer) (prev : Option Nat) : Slot.Waits key bytes ⟨task, answer, prev⟩ := by
  intro write isNew phase hTask
  exact absurd hTask (h write isNew phase)

/-- The server has had the job's bytes, as far as the job can tell. -/
def Arrived (write : MonitorWrite) : MonitorPhase → Option Answer → Prop
  | .queued, _ | .sleep, _ => False
  | .put _, answer => ∃ new, answer = some (.putOk new)
  | .refetch, answer => ∃ version, answer = some (.found write.bytes version)
  | _, _ => True

/-- A phase before the blob is known to be on the server. -/
def MonitorPhase.Waiting (phase : MonitorPhase) : Prop := phase = .refetch ∨ phase = .sleep ∨ ∃ version, phase = .put version

/-- A job whose bytes have not arrived tries again, fences or gives up; the others go on, and may complete. -/
inductive JobTurn (write : MonitorWrite) (isNew : Bool) (phase : MonitorPhase) (answer : Option Answer) (block : Block) : Prop
  | waits (hNext : ∀ task, block.next = some task → ∃ next, task = .monitor write isNew next ∧ next.Waiting)
    (hQuiet : ∀ id write isNew, .monitorUpdated id write isNew ∉ block.events)
  | arrived (hArrived : Arrived write phase answer)
    (hNext : ∀ task, block.next = some task → ∃ next, task = .monitor write isNew next)

theorem runMonitorJob_turn {s : Store} {env : Env} {id : Nat} {write : MonitorWrite} {isNew : Bool}
    {phase : MonitorPhase} {answer : Option Answer} {block : Block}
    (h : s.runMonitorJob env id write isNew phase answer = some block) : JobTurn write isNew phase answer block := by
  have hFrame := Store.resume_frame (show s.resume env id (.monitor write isNew phase) answer = some block from h)
  have hArrived : Arrived write phase answer → JobTurn write isNew phase answer block := by
    refine fun hArrived => .arrived hArrived fun task hTask => ?_
    have hGoesOn := hFrame.next task hTask
    cases hGoesOn
    exact ⟨_, rfl⟩
  have hStay : ∀ (s' : Store) (next : MonitorPhase), next.Waiting →
      JobTurn write isNew phase answer ⟨s', some (.monitor write isNew next), []⟩ := by
    intro s' next hNext
    refine .waits (fun task hTask => ?_) (by simp)
    cases hTask
    exact ⟨next, rfl, hNext⟩
  have hPut : JobTurn write isNew phase answer (s.putFundCritical write isNew) := by
    rw [Store.putFundCritical]
    split
    · exact .waits (by simp) (by simp)
    · exact hStay _ _ (.inr (.inr ⟨_, rfl⟩))
  rw [Store.runMonitorJob.eq_def] at h
  split at h
  · cases h
    exact hPut
  · exact hArrived ⟨_, rfl⟩
  · cases h
    exact hStay _ _ (.inl rfl)
  · cases h
    exact hStay _ _ (.inr (.inl rfl))
  · next value version =>
    split at h
    · next hOwn => exact hArrived ⟨version, hOwn ▸ rfl⟩
    · cases h
      refine .waits (by simp) fun id' write' isNew' hMem => ?_
      rw [Store.tripFenceEvents] at hMem
      split at hMem <;> simp at hMem
  · cases h
    exact hStay _ _ (.inr (.inl rfl))
  · cases h
    exact hStay _ _ (.inr (.inl rfl))
  · cases h
    exact hPut
  all_goals first
    | exact hArrived trivial
    | cases h

theorem waits_of_waiting (write : MonitorWrite) (isNew : Bool) {phase : MonitorPhase} (h : phase.Waiting)
    (prev : Option Nat) : Slot.Waits key bytes ⟨.monitor write isNew phase, none, prev⟩ := by
  intro write' isNew' phase' hTask _
  cases hTask
  rcases h with rfl | rfl | ⟨version, rfl⟩
  · exact fun _ _ => nofun
  · trivial
  · exact fun _ => nofun

/-- A job that waits goes on waiting, and never completes. -/
theorem runMonitorJob_waits {s : Store} {env : Env} {id : Nat} {write : MonitorWrite} {isNew : Bool}
    {phase : MonitorPhase} {answer : Option Answer} {prev : Option Nat} {block : Block} (hKey : write.vssKey = key)
    (hAlien : write.bytes ≠ bytes) (hWaits : Slot.Waits key bytes ⟨.monitor write isNew phase, answer, prev⟩)
    (h : s.runMonitorJob env id write isNew phase answer = some block) :
    (∀ task, block.next = some task → Slot.Waits key bytes ⟨task, none, prev⟩) ∧
      ∀ id' write' isNew', .monitorUpdated id' write' isNew' ∉ block.events := by
  have hHere := hWaits write isNew phase rfl hKey
  cases runMonitorJob_turn h with
  | waits hNext hQuiet =>
    refine ⟨fun task hTask => ?_, hQuiet⟩
    obtain ⟨next, rfl, hWaiting⟩ := hNext task hTask
    exact waits_of_waiting write isNew hWaiting prev
  | arrived hArrived =>
    exfalso
    cases phase with
    | queued | sleep => exact hArrived
    | put version =>
      obtain ⟨new, rfl⟩ := hArrived
      exact hHere new rfl
    | refetch =>
      obtain ⟨version, rfl⟩ := hArrived
      exact hAlien (hHere _ version rfl)
    | manifestLock | manifestPut | manifestRefetch | manifestSleep | localSleep => exact hHere

theorem Unheard.land (h : Unheard key bytes first w) {id : Nat} (nextId : Nat) {block : Block} {prev : Option Nat}
    (hWaits : first ≤ id → ∀ task, block.next = some task → Slot.Waits key bytes ⟨task, none, prev⟩)
    (hSignals : ∀ other write isNew, .monitorUpdated other write isNew ∈ block.events → write.vssKey = key →
      other < first) : Unheard key bytes first { w.land id block prev with nextId := nextId } where
  waits other slot hSlot hFirst := by
    have hLanded : (w.land id block prev).slots other = some slot := hSlot
    rw [World.land_slots] at hLanded
    split at hLanded
    · next hOther =>
      obtain ⟨task, hTask, rfl⟩ := Option.map_eq_some_iff.mp hLanded
      exact hWaits (hOther ▸ hFirst) task hTask
    · exact h.waits other slot hLanded hFirst
  unsignalled other write isNew hMem hKey := by
    rcases List.mem_append.mp hMem with hNew | hOld
    · rcases List.mem_append.mp (List.mem_reverse.mp hNew) with hEvent | hStarted
      · exact hSignals other write isNew hEvent hKey
      · exact absurd hStarted (not_mem_startedEvents block.next other write isNew)
    · exact h.unsignalled other write isNew hOld hKey

theorem Unheard.call (h : Unheard key bytes first w) (call : Call) : Unheard key bytes first (w.stepCall call) := by
  rcases w.store.call_next w.nextId call with ⟨write, isNew, hNext, hEvents⟩ | ⟨hOther, -, hEvents⟩
  · refine h.land (w.nextId + 1) (fun _ task hTask => ?_) ?_
    · rw [hNext] at hTask
      cases hTask
      intro write' isNew' phase hMonitor _
      cases hMonitor
      trivial
    · intro other write' isNew' hMem
      rw [hEvents] at hMem
      simp at hMem
  · refine h.land (w.nextId + 1) (fun _ task hTask => ?_) ?_
    · exact waits_of_other (fun write isNew phase hMonitor => hOther write isNew phase (hMonitor ▸ hTask)) none none
    · exact fun other write isNew hMem => absurd hMem (hEvents other write isNew)

theorem Unheard.resume (h : Unheard key bytes first w) {limit : Nat} (hBehind : Behind key bytes limit w) {id : Nat}
    {slot : Slot} {env : Env} {block : Block} (hSlot : w.slots id = some slot)
    (hBlock : w.store.resume env id slot.task slot.answer = some block) :
    Unheard key bytes first (w.land id block slot.prev) := by
  have hFrame := Store.resume_frame hBlock
  by_cases hOwn : ∃ write isNew phase, slot.task = .monitor write isNew phase ∧ write.vssKey = key
  · obtain ⟨write, isNew, phase, hTask, hKey⟩ := hOwn
    have hAlien : write.bytes ≠ bytes := by
      have hOffer := hBehind.alien id slot hSlot
      rw [hTask, Task.offer, if_pos hKey] at hOffer
      exact fun hSame => hOffer (congrArg some hSame)
    have hJob : w.store.runMonitorJob env id write isNew phase slot.answer = some block := by
      rw [hTask] at hBlock
      exact hBlock
    have hRun := fun hFirst : first ≤ id => runMonitorJob_waits hKey hAlien
      (show Slot.Waits key bytes ⟨.monitor write isNew phase, slot.answer, slot.prev⟩ from
        hTask ▸ h.waits id slot hSlot hFirst) hJob
    refine h.land w.nextId (fun hFirst => (hRun hFirst).1) fun other write' isNew' hMem _ => ?_
    by_contra hLate
    rcases hFrame.events _ hMem with hFenced | ⟨_, _, _, _, hLocal | hSignal⟩
    · cases hFenced
    · cases hLocal
    · cases hSignal
      exact (hRun (Nat.le_of_not_lt hLate)).2 _ _ _ hMem
  · refine h.land w.nextId (fun _ task hNext write isNew phase hTask hKey => ?_) fun other write isNew hMem hKey => ?_
    · have hGoesOn := hFrame.next task hNext
      obtain rfl : task = .monitor write isNew phase := hTask
      generalize hBefore : slot.task = before at hGoesOn
      cases hGoesOn with
      | monitor _ _ earlier => exact absurd ⟨write, isNew, earlier, hBefore, hKey⟩ hOwn
    · rcases hFrame.events _ hMem with hFenced | ⟨write', isNew', phase, hTask, hLocal | hSignal⟩
      · cases hFenced
      · cases hLocal
      · cases hSignal
        exact absurd ⟨write, isNew, phase, hTask, hKey⟩ hOwn

theorem Unheard.deliver (h : Unheard key bytes first w) {limit : Nat} (hBehind : Behind key bytes limit w)
    (hTaken : w.server key = some (bytes, limit)) {id : Nat} {slot : Slot} {request : Request} {delivery : Delivery}
    (hSlot : w.slots id = some slot) (hRequest : slot.task.request = some request) :
    Unheard key bytes first (w.stepDeliver id slot request delivery) where
  waits other slot' hSlot' hFirst := by
    rw [World.stepDeliver_slots] at hSlot'
    split at hSlot'
    · next hOther =>
      subst hOther
      cases hSlot'
      intro write isNew phase hTask hKey
      have hWaits := h.waits other slot hSlot hFirst write isNew phase hTask hKey
      cases phase with
      | queued | sleep => trivial
      | put version =>
        rw [hTask, Task.request, hKey] at hRequest
        cases hRequest
        have hStale := ((hBehind.slots other slot hSlot).puts write.bytes version (by rw [hTask, Task.request, hKey])).1
        have hVersion : w.server.version key = limit := Server.version_of_some hTaken
        exact fun new hNew => deliver_stale (by omega) delivery new (Option.some.inj hNew)
      | refetch =>
        rw [hTask, Task.request, hKey] at hRequest
        cases hRequest
        intro value version hFound
        have hAnswered := w.server.deliver_answered (.get key) delivery
        rw [Option.some.inj hFound] at hAnswered
        have hSame : (w.server.deliver (.get key) delivery).1 = w.server := by
          have hEffect := w.server.deliver_effect (.get key) delivery
          generalize (w.server.deliver (.get key) delivery).1 = after at hEffect
          cases hEffect
          rfl
        rw [hSame] at hAnswered
        cases hTaken.symm.trans hAnswered
        rfl
      | manifestLock | manifestPut | manifestRefetch | manifestSleep | localSleep => exact hWaits.elim
    · exact h.waits other slot' hSlot' hFirst
  unsignalled other write isNew hMem hKey := by
    rcases List.mem_append.mp hMem with hNew | hOld
    · exact absurd (List.mem_reverse.mp hNew) (not_mem_deliveryEvents w.server request delivery other write isNew)
    · exact h.unsignalled other write isNew hOld hKey

end Unheard

/-! ## Whole runs -/

/-- The key as another device left it, with everything of this store out of date. -/
structure Taken (key : String) (bytes : Bytes) (version first : Nat) (w : World) : Prop where
  held : w.server key = some (bytes, version)
  behind : Behind key bytes version w
  unheard : Unheard key bytes first w

section Runs

variable {key : String} {bytes : Bytes} {w w' : World}

theorem behind_start (server : Server) (monitors archivedMonitors : StringMap LocalMonitor) (fencedFlag : Bool)
    {seed : Seed} (hSeed : ∀ version, seed.versions key = some version → version ≤ server.version key) :
    Behind key bytes (server.version key + 1) (.start server monitors archivedMonitors fencedFlag seed) where
  spares _ _ := nofun
  alien _ _ := nofun
  pending _ := nofun
  slots _ _ := nofun
  cached := by
    refine .inl (Nat.lt_succ_of_le ?_)
    show (seed.versions key).getD 0 ≤ server.version key
    cases hCached : seed.versions key with
    | none => exact Nat.zero_le _
    | some version => exact hSeed version hCached

/-- Until the takeover the store knows no version that the server is not past or at. -/
theorem Behind.step (h : Behind key bytes (w.server.version key + 1) w) (hCritical : fundCritical key = true) {act : Act}
    (hShared : sharesKey key w act = true) (hAlien : act.offer key ≠ some bytes) (hStep : w.step act = some w') :
    Behind key bytes (w'.server.version key + 1) w' := by
  cases act with
  | call call =>
    obtain ⟨-, rfl⟩ := World.step_call_iff.mp hStep
    exact h.call hShared hAlien
  | deliver id delivery =>
    obtain ⟨slot, request, hSlot, hRequest, -, rfl⟩ := World.step_deliver_iff.mp hStep
    exact h.deliver_current hCritical hSlot hRequest
  | resume id env =>
    obtain ⟨slot, block, hSlot, -, hBlock, rfl⟩ := World.step_resume_iff.mp hStep
    exact h.resume hCritical (Nat.succ_pos _) hSlot hBlock
  | foreign other value =>
    cases hStep
    have hKept : ∀ limit, Behind key bytes limit w → Behind key bytes limit (w.stepForeign other value) :=
      fun _ h => ⟨h.spares, h.alien, h.pending, h.slots, h.cached⟩
    by_cases hKey : key = other
    · subst hKey
      obtain ⟨value, rfl⟩ := Option.isSome_iff_exists.mp (show value.isSome = true by simpa [sharesKey] using hShared)
      have hNew : (w.stepForeign key (some value)).server.version key = w.server.version key + 1 :=
        Server.version_of_some (Function.update_self ..)
      rw [hNew]
      exact hKept _ (h.mono (Nat.lt_succ_self _))
    · have hSame : (w.stepForeign other value).server.version key = w.server.version key := by
        have hEntry : (w.stepForeign other value).server key = w.server key := Function.update_of_ne hKey ..
        rw [Server.version, Server.version, hEntry]
      rw [hSame]
      exact hKept _ h
  | restart seed => cases hShared

theorem Taken.step {version first : Nat} (h : Taken key bytes version first w) (hVersion : 0 < version)
    (hCritical : fundCritical key = true) {act : Act} (hShared : sharesKey key w act = true)
    (hLast : ∀ value, act ≠ .foreign key value) (hAlien : act.offer key ≠ some bytes) (hStep : w.step act = some w') :
    Taken key bytes version first w' := by
  cases act with
  | call call =>
    obtain ⟨-, rfl⟩ := World.step_call_iff.mp hStep
    exact ⟨h.held, h.behind.call hShared hAlien, h.unheard.call call⟩
  | deliver id delivery =>
    obtain ⟨slot, request, hSlot, hRequest, -, rfl⟩ := World.step_deliver_iff.mp hStep
    obtain ⟨hHeld, hBehind⟩ := h.behind.deliver_taken h.held hCritical hSlot hRequest
    exact ⟨hHeld, hBehind, h.unheard.deliver h.behind h.held hSlot hRequest⟩
  | resume id env =>
    obtain ⟨slot, block, hSlot, -, hBlock, rfl⟩ := World.step_resume_iff.mp hStep
    exact ⟨h.held, h.behind.resume hCritical hVersion hSlot hBlock, h.unheard.resume h.behind hSlot hBlock⟩
  | foreign other value =>
    cases hStep
    have hKey : key ≠ other := by
      rintro rfl
      exact hLast value rfl
    exact ⟨(Function.update_of_ne hKey ..).trans h.held,
      ⟨h.behind.spares, h.behind.alien, h.behind.pending, h.behind.slots, h.behind.cached⟩,
      ⟨h.unheard.waits, h.unheard.unsignalled⟩⟩
  | restart seed => cases hShared

/-- From any server that the session was seeded from, and with any other device writing beside it: once
another device has put bytes of its own under a monitor key or the channel manager's, nothing this
session has on its way or starts later changes them, and no monitor update queued after that is ever
reported as backed up. -/
theorem takeover_respected (server : Server) (monitors archivedMonitors : StringMap LocalMonitor) (fencedFlag : Bool)
    (seed : Seed) (key : String) (hCritical : fundCritical key = true)
    (hSeed : ∀ version, seed.versions key = some version → version ≤ server.version key) (bytes : Bytes)
    (before after : List Act) (w w' : World)
    (hBefore : exec World.step (.start server monitors archivedMonitors fencedFlag seed) before = some w)
    (hAfter : exec World.step (w.stepForeign key (some bytes)) after = some w')
    (hShared : Along World.step (fun w act => sharesKey key w act = true)
      (.start server monitors archivedMonitors fencedFlag seed) (before ++ .foreign key (some bytes) :: after))
    (hLast : ∀ act ∈ after, ∀ value, act ≠ .foreign key value)
    (hAlien : ∀ act ∈ before ++ after, act.offer key ≠ some bytes) :
    w'.server key = some (bytes, w.server.version key + 1) ∧
      ∀ id write isNew, .monitorUpdated id write isNew ∈ w'.trace → write.vssKey = key → id < w.nextId := by
  obtain ⟨hSharedBefore, hSharedRest⟩ := along_append hShared
  have hSharedAfter := (hSharedRest w hBefore).2 _ rfl
  have hAlienBefore : Along World.step (fun _ act => act.offer key ≠ some bytes)
      (.start server monitors archivedMonitors fencedFlag seed) before :=
    along_of_forall (fun act hAct => hAlien act (List.mem_append_left _ hAct)) _
  have hAlienAfter : Along World.step (fun _ act => (∀ value, act ≠ .foreign key value) ∧ act.offer key ≠ some bytes)
      (w.stepForeign key (some bytes)) after :=
    along_of_forall (fun act hAct => ⟨hLast act hAct, hAlien act (List.mem_append_right _ hAct)⟩) _
  have hBehind : Behind key bytes (w.server.version key + 1) w :=
    exec_inv (P := fun w => Behind key bytes (w.server.version key + 1) w)
      (fun _ _ _ h hGuard hStep => h.step hCritical hGuard.1 hGuard.2 hStep)
      (behind_start server monitors archivedMonitors fencedFlag hSeed) (along_and hSharedBefore hAlienBefore) hBefore
  have hDurable : DurabilityInv w := exec_inv_all (fun _ _ _ hInv hStep => hInv.step hStep)
    (durabilityInv_start server monitors archivedMonitors fencedFlag seed) hBefore
  have hTaken : Taken key bytes (w.server.version key + 1) w.nextId (w.stepForeign key (some bytes)) := by
    refine ⟨Function.update_self .., ⟨hBehind.spares, hBehind.alien, hBehind.pending, hBehind.slots, hBehind.cached⟩, ?_, ?_⟩
    · intro id slot hSlot hFirst
      exact absurd (hDurable.fresh id slot hSlot) (Nat.not_lt.mpr hFirst)
    · exact fun id write isNew hMem _ => (hDurable.ended id write isNew hMem).2
  have hEnd := exec_inv (fun _ _ _ h hGuard hStep =>
    h.step (Nat.succ_pos _) hCritical hGuard.1 hGuard.2.1 hGuard.2.2 hStep) hTaken
    (along_and hSharedAfter hAlienAfter) hAfter
  exact ⟨hEnd.held, hEnd.unheard.unsignalled⟩

/-- An update is acknowledged, and a second one is queued after another device has taken the channel over. -/
def takenAfter : List Act :=
  [.resume 0 calm, .call (.queueMonitorWrite (sampleWrite [2]) false), .resume 1 calm, .deliver 1 .ok, .resume 1 calm,
   .deliver 1 .ok, .resume 1 calm]

theorem takeover_respected_takenAfter :
    ∃ w w', exec World.step (.start (fun _ => none) ∅ ∅ false ⟨fun _ => none, ∅⟩)
        [.call (.queueMonitorWrite (sampleWrite [1]) false), .resume 0 calm, .deliver 0 .ok] = some w ∧
      exec World.step (w.stepForeign sampleKey (some (.raw [9]))) takenAfter = some w' ∧
      w'.store.fenced = true ∧ w'.server sampleKey = some (.raw [9], w.server.version sampleKey + 1) ∧
      ∀ id write isNew, .monitorUpdated id write isNew ∈ w'.trace → write.vssKey = sampleKey → id < w.nextId := by
  obtain ⟨w, hBefore⟩ : ∃ w, exec World.step (.start (fun _ => none) ∅ ∅ false ⟨fun _ => none, ∅⟩)
      [.call (.queueMonitorWrite (sampleWrite [1]) false), .resume 0 calm, .deliver 0 .ok] = some w :=
    Option.isSome_iff_exists.mp (by decide)
  have hEnd : ((exec World.step (.start (fun _ => none) ∅ ∅ false ⟨fun _ => none, ∅⟩)
      [.call (.queueMonitorWrite (sampleWrite [1]) false), .resume 0 calm, .deliver 0 .ok]).bind fun w =>
        exec World.step (w.stepForeign sampleKey (some (.raw [9]))) takenAfter).map (fun w => w.store.fenced) =
          some true := by decide
  rw [hBefore, Option.bind_some] at hEnd
  obtain ⟨w', hAfter, hFenced⟩ := Option.map_eq_some_iff.mp hEnd
  refine ⟨w, w', hBefore, hAfter, hFenced, ?_⟩
  exact takeover_respected (fun _ => none) ∅ ∅ false ⟨fun _ => none, ∅⟩ sampleKey (by decide) nofun (.raw [9])
    [.call (.queueMonitorWrite (sampleWrite [1]) false), .resume 0 calm, .deliver 0 .ok] takenAfter w w' hBefore hAfter
    (by decide) (by simp [takenAfter]) (by decide)

end Runs

end WalletCore.Vss
