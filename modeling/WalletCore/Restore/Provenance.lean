import WalletCore.Restore.ManifestReadable
import WalletCore.Vss.Durability

/-! # Publication needs evidence

A key of the tracking set is publishable only after a remote blob was seen under exactly that key: by the
start, by a put of this store that was acknowledged or recognised, or by a manifest that the server returned.
Only an archive takes a publishable key back, and then it is gone from the set.
-/

namespace WalletCore.Restore

open Lib Vss

/-- What a session has seen of a remote blob under the key. -/
inductive Evidence (transport : Transport) (stack : Stack) (device : Device) (trace : List Event) (key : String) : Prop
  | start (hStart : StartEvidence transport stack device key)
  | own (id : Nat) (write : MonitorWrite) (isNew : Bool) (hQueued : .queued id write isNew ∈ trace)
    (hHeld : Held trace write) (hKey : write.vssKey = key)
  | listed (bytes : Bytes) (keys : List String) (hFetched : .fetched monitorManifestKey bytes ∈ trace)
    (hParsed : parseMonitorManifest bytes = .ok keys) (hKey : key ∈ keys)

theorem Evidence.mono {transport : Transport} {stack : Stack} {device : Device} {trace trace' : List Event}
    {key : String} (h : Evidence transport stack device trace key) (hSub : trace ⊆ trace') :
    Evidence transport stack device trace' key := by
  cases h with
  | start hStart => exact .start hStart
  | own id write isNew hQueued hHeld hKey => exact .own id write isNew (hSub hQueued) (hHeld.mono hSub) hKey
  | listed bytes keys hFetched hParsed hKey => exact .listed bytes keys (hSub hFetched) hParsed hKey

/-- A manifest that a task has fetched is in the trace. -/
def World.FetchesSeen (w : World) : Prop :=
  ∀ id slot bytes version, w.slots id = some slot → slot.task.request = some (.get monitorManifestKey) →
    slot.answer = some (.found bytes version) → .fetched monitorManifestKey bytes ∈ w.trace

theorem World.FetchesSeen.land {w : World} {id nextId : Nat} {block : Block} {prev : Option Nat}
    (h : World.FetchesSeen w) : World.FetchesSeen { w.land id block prev with nextId := nextId } := by
  intro other slot bytes version hSlot hRequest hAnswer
  rw [show ({ w.land id block prev with nextId := nextId } : World).slots = (w.land id block prev).slots from rfl,
    World.land_slots] at hSlot
  split at hSlot
  · obtain ⟨task, -, rfl⟩ := Option.map_eq_some_iff.mp hSlot
    cases hAnswer
  · exact List.mem_append_right _ (h other slot bytes version hSlot hRequest hAnswer)

theorem World.FetchesSeen.step {w w' : World} {act : Act} (h : World.FetchesSeen w) (hStep : w.step act = some w')
    (hStays : ∀ seed, act ≠ .restart seed) : World.FetchesSeen w' := by
  cases act with
  | call call =>
    obtain ⟨-, rfl⟩ := World.step_call_iff.mp hStep
    exact h.land
  | deliver id delivery =>
    obtain ⟨slot, request, hSlot, hRequest, -, rfl⟩ := World.step_deliver_iff.mp hStep
    intro other slot' bytes version hSlot' hRequest' hAnswer
    rw [World.stepDeliver_slots] at hSlot'
    split at hSlot'
    · cases hSlot'
      cases hRequest.symm.trans hRequest'
      exact List.mem_append_left _ (List.mem_reverse.mpr (deliver_found (Option.some.inj hAnswer)))
    · exact List.mem_append_right _ (h other slot' bytes version hSlot' hRequest' hAnswer)
  | resume id env =>
    obtain ⟨slot, block, -, -, -, rfl⟩ := World.step_resume_iff.mp hStep
    exact h.land
  | foreign key value =>
    cases hStep
    exact h
  | restart seed => exact absurd rfl (hStays seed)

section Sessions

variable {transport : Transport} {stack : Stack} {device : Device}

variable (transport stack device) in
structure EvidenceInv (w : World) : Prop where
  durability : DurabilityInv w
  fetches : World.FetchesSeen w
  evidence : ∀ key, w.store.Publishes key → Evidence transport stack device w.trace key

theorem EvidenceInv.keyMove {w : World} (hInv : EvidenceInv transport stack device w) {id : Nat} {slot : Slot}
    {keys : MonitorKeySet} (hSlot : w.slots id = some slot)
    (hMove : KeyMove w.store.monitorKeys slot.task slot.answer keys) {key : String}
    (hKey : keys.lookup key = some .publishable) : Evidence transport stack device w.trace key := by
  have hOwn : ∀ {write : MonitorWrite} {isNew : Bool} {phase : MonitorPhase}, slot.task = .monitor write isNew phase →
      (∀ since, PhaseOk w.store since write isNew phase slot.answer → Held since write) →
      Evidence transport stack device w.trace write.vssKey := by
    intro write isNew phase hTask hHeld
    obtain ⟨since, before, hTrace, hPhase⟩ := hInv.durability.slots id slot hSlot write isNew phase hTask
    have hSub : since ⊆ w.trace := by
      rw [hTrace]
      exact List.subset_append_left ..
    have hQueued : .queued id write isNew ∈ w.trace := by
      rw [hTrace]
      exact List.mem_append_right _ List.mem_cons_self
    exact .own id write isNew hQueued ((hHeld since hPhase).mono hSub) rfl
  obtain hOld | ⟨write, isNew, version, new, hTask, hAnswer, rfl⟩ | ⟨write, isNew, version, hTask, hAnswer, rfl⟩ |
    ⟨bytes, version, parsed, hRequest, hAnswer, hParsed, hMem⟩ := hMove.publishes_cases hKey
  · exact hInv.evidence key hOld
  · refine hOwn hTask fun since hPhase => ?_
    rw [hAnswer] at hPhase
    exact hPhase
  · refine hOwn hTask fun since hPhase => ?_
    rw [hAnswer] at hPhase
    exact .inr hPhase
  · exact .listed bytes parsed (hInv.fetches id slot bytes version hSlot hRequest hAnswer) hParsed hMem

theorem EvidenceInv.prior {w w' : World} {act : Act} (hInv : EvidenceInv transport stack device w)
    (hStep : w.step act = some w') (hStays : ∀ seed, act ≠ .restart seed) {key : String}
    (hKey : w'.store.Publishes key) : Evidence transport stack device w.trace key := by
  cases act with
  | call call =>
    obtain ⟨-, rfl⟩ := World.step_call_iff.mp hStep
    exact hInv.evidence key ((w.store.call_publishes w.nextId call key).1 hKey)
  | deliver id delivery =>
    obtain ⟨slot, request, -, -, -, rfl⟩ := World.step_deliver_iff.mp hStep
    exact hInv.evidence key hKey
  | resume id env =>
    obtain ⟨slot, block, hSlot, -, hBlock, rfl⟩ := World.step_resume_iff.mp hStep
    exact hInv.keyMove hSlot (Store.resume_keyMove hBlock) hKey
  | foreign key value =>
    cases hStep
    exact hInv.evidence _ hKey
  | restart seed => exact absurd rfl (hStays seed)

theorem step_trace_subset {w w' : World} {act : Act} (hStep : w.step act = some w') : w.trace ⊆ w'.trace := by
  cases act with
  | call call =>
    obtain ⟨-, rfl⟩ := World.step_call_iff.mp hStep
    exact List.subset_append_right ..
  | deliver id delivery =>
    obtain ⟨slot, request, -, -, -, rfl⟩ := World.step_deliver_iff.mp hStep
    exact List.subset_append_right ..
  | resume id env =>
    obtain ⟨slot, block, -, -, -, rfl⟩ := World.step_resume_iff.mp hStep
    exact List.subset_append_right ..
  | foreign key value =>
    cases hStep
    exact List.Subset.refl _
  | restart seed =>
    cases hStep
    exact List.subset_append_right ..

theorem EvidenceInv.step {w w' : World} {act : Act} (hInv : EvidenceInv transport stack device w)
    (hStep : w.step act = some w') (hStays : ∀ seed, act ≠ .restart seed) : EvidenceInv transport stack device w' where
  durability := hInv.durability.step hStep
  fetches := hInv.fetches.step hStep hStays
  evidence := fun _ hKey => (hInv.prior hStep hStays hKey).mono (step_trace_subset hStep)

end Sessions

/-! ## Demotions -/

/-- Only an archive takes a publishable key back, and then the key is gone. -/
theorem call_kept_or_archived (s : Store) (id : Nat) (call : Call) {key : String} (hKey : s.Publishes key) :
    (s.call id call).store.Publishes key ∨ ∃ name localOk, call = .archiveMonitor name localOk ∧
      s.nameToVssKey.lookup name = some key ∧ (s.call id call).store.monitorKeys.lookup key = none := by
  obtain hKept | hArchived := (s.call_publishes id call key).2 hKey
  · exact .inl hKept
  · refine .inr ?_
    cases call with
    | archiveMonitor name localOk =>
      have hNames := s.archiveLocal_nameToVssKey name localOk
      simp only [Store.call, Store.archiveMonitor, hNames] at hArchived ⊢
      refine ⟨name, localOk, rfl, ?_⟩
      split at hArchived
      · cases hArchived
      · rename_i archived hName
        have hSame : key = archived := by
          split at hArchived
          · exact Event.archived.inj (List.mem_singleton.mp hArchived)
          · exact Event.archived.inj (List.mem_singleton.mp hArchived)
        subst hSame
        refine ⟨hName, ?_⟩
        split
        · simp [Store.returned, MonitorKeySet.lookup_remove]
        · simp [Store.spawn, MonitorKeySet.lookup_remove]
    | queueMonitorWrite write isNew =>
      rw [Store.call, Store.queueMonitorWrite] at hArchived
      split at hArchived
      · cases hArchived
      · cases List.mem_singleton.mp hArchived
    | cmRemoteWriteBounded bytes =>
      rw [Store.call, Store.cmRemoteWriteBounded] at hArchived
      split at hArchived
      · cases hArchived
      · rw [Store.startCmAttempt] at hArchived
        split at hArchived <;> cases hArchived
    | cmRetryPending =>
      rw [Store.call, Store.cmRetryPending] at hArchived
      split at hArchived
      · cases hArchived
      · rw [Store.startCmAttempt] at hArchived
        split at hArchived <;> cases hArchived
    | backfillManifestIfNeeded =>
      rw [Store.call, Store.backfillManifestIfNeeded] at hArchived
      split at hArchived <;> cases hArchived
    | putLww | putWithMerge | deleteBestEffort | fetchVersioned => cases hArchived

/-! ## Every step of every session -/

/-- A step of a session. Evidence is there before a key is published; a manifest that the step begins to put
names publishable keys only; and a key is taken back by an archive alone, which drops it from the set. -/
structure PublicationSound (transport : Transport) (stack : Stack) (device : Device) (w : World) (act : Act)
    (w' : World) : Prop where
  evidence : ∀ key, w.store.Publishes key ∨ w'.store.Publishes key → Evidence transport stack device w.trace key
  payload : ∀ id slot payload, w'.slots id = some slot → w.slots id ≠ some slot → slot.answer = none →
    slot.task.pendingManifest = some payload → ∀ key ∈ listedKeys payload, w'.store.Publishes key
  kept : ∀ key, w.store.Publishes key → w'.store.Publishes key ∨ ∃ name localOk,
    act = .call (.archiveMonitor name localOk) ∧ w.store.nameToVssKey.lookup name = some key ∧
      w'.store.monitorKeys.lookup key = none

theorem step_payload {w w' : World} {act : Act} (hStays : ∀ seed, act ≠ .restart seed) (hStep : w.step act = some w')
    {id : Nat} {slot : Slot} {payload : Bytes} (hSlot : w'.slots id = some slot) (hNew : w.slots id ≠ some slot)
    (hAnswer : slot.answer = none) (hPending : slot.task.pendingManifest = some payload) :
    ∀ key ∈ listedKeys payload, w'.store.Publishes key := by
  cases act with
  | call call =>
    obtain ⟨-, rfl⟩ := World.step_call_iff.mp hStep
    rw [show (w.stepCall call).slots = (w.land w.nextId (w.store.call w.nextId call).toBlock _).slots from rfl,
      World.land_slots] at hSlot
    split at hSlot
    · obtain ⟨task, hNext, rfl⟩ := Option.map_eq_some_iff.mp hSlot
      obtain ⟨write, isNew, hQueued, -⟩ | ⟨-, hNone, -⟩ := w.store.call_next w.nextId call
      · cases hNext.symm.trans hQueued
        cases hPending
      · rw [hNext, Option.bind_some, hPending] at hNone
        cases hNone
    · exact absurd hSlot hNew
  | deliver other delivery =>
    obtain ⟨slot', request, -, -, -, rfl⟩ := World.step_deliver_iff.mp hStep
    rw [World.stepDeliver_slots] at hSlot
    split at hSlot
    · cases hSlot
      cases hAnswer
    · exact absurd hSlot hNew
  | resume other env =>
    obtain ⟨slot', block, -, -, hBlock, rfl⟩ := World.step_resume_iff.mp hStep
    rw [World.land_slots] at hSlot
    split at hSlot
    · obtain ⟨task, hNext, rfl⟩ := Option.map_eq_some_iff.mp hSlot
      have hCurrent := Store.resume_pending hBlock payload (by rw [hNext, Option.bind_some, hPending])
      intro key hKey
      rw [hCurrent, listedKeys_manifestPayload, MonitorKeySet.mem_publishable] at hKey
      exact hKey
    · exact absurd hSlot hNew
  | foreign key value =>
    cases hStep
    exact absurd hSlot hNew
  | restart seed => exact absurd rfl (hStays seed)

theorem step_kept {w w' : World} {act : Act} (hStays : ∀ seed, act ≠ .restart seed) (hStep : w.step act = some w')
    {key : String} (hKey : w.store.Publishes key) : w'.store.Publishes key ∨ ∃ name localOk,
      act = .call (.archiveMonitor name localOk) ∧ w.store.nameToVssKey.lookup name = some key ∧
        w'.store.monitorKeys.lookup key = none := by
  cases act with
  | call call =>
    obtain ⟨-, rfl⟩ := World.step_call_iff.mp hStep
    obtain hKept | ⟨name, localOk, rfl, hName, hGone⟩ := call_kept_or_archived w.store w.nextId call hKey
    · exact .inl hKept
    · exact .inr ⟨name, localOk, rfl, hName, hGone⟩
  | deliver other delivery =>
    obtain ⟨slot, request, -, -, -, rfl⟩ := World.step_deliver_iff.mp hStep
    exact .inl hKey
  | resume other env =>
    obtain ⟨slot, block, -, -, hBlock, rfl⟩ := World.step_resume_iff.mp hStep
    exact .inl ((Store.resume_keyMove hBlock).publishes_mono hKey)
  | foreign other value =>
    cases hStep
    exact .inl hKey
  | restart seed => exact absurd rfl (hStays seed)

theorem SessionRun.evidenceInv {fs : FileSystem} {node : Node} {transport : Transport} {device : Device} {w : World}
    (session : SessionRun fs node transport device w) : EvidenceInv transport node.toStack device w := by
  refine exec_inv (fun _ _ _ hInv hStays hStep => hInv.step hStep hStays) ?_
    (along_of_forall session.stays _) session.run
  refine ⟨durabilityInv_start .., by simp [World.FetchesSeen, World.start], ?_⟩
  intro key hKey
  exact .start (session.evidenced key ((Store.start_publishes ..).mp hKey)).2

/-- In every session, after every run of its store: no step publishes a key without evidence, puts a manifest
with a key that is not publishable, or demotes a publishable key. -/
theorem publication_evidenced (fs : FileSystem) (node : Node) (transport : Transport) (device : Device) (w w' : World)
    (session : SessionRun fs node transport device w) (act : Act) (hStays : ∀ seed, act ≠ .restart seed)
    (hStep : w.step act = some w') : PublicationSound transport node.toStack device w act w' where
  evidence := by
    rintro key (hKey | hKey)
    · exact session.evidenceInv.evidence key hKey
    · exact session.evidenceInv.prior hStep hStays hKey
  payload := fun _ _ _ hSlot hNew hAnswer hPending => step_payload hStays hStep hSlot hNew hAnswer hPending
  kept := fun _ hKey => step_kept hStays hStep hKey

/-- A new wallet opens a channel: its blob is put and acknowledged, and the gating manifest write comes next. -/
def newChannel : List Act :=
  [.call (.queueMonitorWrite (sampleWrite [1]) true), .resume 0 calm, .deliver 0 .ok, .resume 0 calm]

def newWallet : Device := ⟨.empty, none, none, false, []⟩

theorem establishVssState_newWallet : establishVssState sortedFiles numberedNode emptyNamespace newWallet [] =
    .ok ⟨true, ∅, ∅, true, false⟩ newWallet [] := by
  have hNone : sortedFiles.listMonitors newWallet.store = [] := by decide +kernel
  simp only [establishVssState, bind, Prog.bind, Prog.read, id, hNone]
  rfl

theorem publication_evidenced_newChannel :
    ∃ w w', exec World.step (.start (fun _ => none) ∅ ∅ false ⟨fun _ => none, ∅⟩) newChannel = some w ∧
      w.step (.resume 0 calm) = some w' ∧
      PublicationSound emptyNamespace numberedNode.toStack newWallet w (.resume 0 calm) w' := by
  have hRuns : ((exec World.step (.start (fun _ => none) ∅ ∅ false ⟨fun _ => none, ∅⟩) newChannel).bind
      (·.step (.resume 0 calm))).isSome = true := by decide +kernel
  obtain ⟨w', hBoth⟩ := Option.isSome_iff_exists.mp hRuns
  obtain ⟨w, hRun, hStep⟩ := Option.bind_eq_some_iff.mp hBoth
  refine ⟨w, w', hRun, hStep, ?_⟩
  refine publication_evidenced sortedFiles numberedNode emptyNamespace newWallet w w' ?_ _ (by simp) hStep
  exact {
    before := newWallet
    fates := []
    rest := []
    state := ⟨true, ∅, ∅, true, false⟩
    files := []
    server := fun _ => none
    archivedMonitors := ∅
    fencedFlag := false
    acts := newChannel
    started := establishVssState_newWallet
    remote := rfl
    loaded := by decide +kernel
    stays := by simp [newChannel]
    run := hRun }

end WalletCore.Restore
