import Mathlib.Data.List.ReduceOption
import WalletCore.Lib.History
import WalletCore.CloseRecords.Facts
import WalletCore.Vss.Store

/-! # Many devices, one records blob

Every device mirrors its records map to one key of the remote store. An upsert updates the
map, encodes it and queues the snapshot on the key's write chain, with no lock held in
between; the jobs of the chain run one at a time. A conflict makes a job merge what another
device wrote. All these steps interleave, on one device and across devices.
-/

namespace WalletCore.CloseRecords.Sync

open Lib
open Vss (Server Request Answer Delivery WritePhase putMergeAttempt closeRecordsVssKey)

/-- How far the merge callback of a job has come. -/
inductive MergeStage where
  | idle
  | absorbed
  | encoded (bytes : Bytes)
deriving DecidableEq

structure Job where
  bytes : Bytes
  phase : WritePhase
  answer : Option Answer
  merge : MergeStage
deriving DecidableEq

/-- The fetch after start-up: its version is recorded before its map is merged. -/
inductive Seed where
  | fetching (answer : Option Answer)
  | recorded (bytes : Bytes)
deriving DecidableEq

structure Device where
  /-- Jobs hold the store weakly, so they may outlive it. -/
  store : Option WireRecords
  /-- The upserts under way, each with its snapshot once it has encoded one. -/
  upserts : List (Option Bytes)
  chain : List Bytes
  running : Option Job
  cachedVersion : Nat
  /-- The content behind a version that was seeded from a listing, until another version is recorded. No
  step reads it: the device has never seen this content. -/
  listed : Option Bytes
  fenced : Bool
  seed : Option Seed

structure World (ι : Type) where
  server : Server
  devices : ι → Device

inductive DeviceAct where
  | upsert (incoming : CloseRecord) (hEncodable : incoming.Encodable)
  | encodeRecords (index : Nat)
  | syncVss (index : Nat)
  | start
  | absorbRemote (nowMs : UInt64)
  | encodeMerged
  | resume
  | fetchVersioned
  | recordFetched
  | seedFromRemote (nowMs : UInt64)
  | fence
  | drop

inductive Act (ι : Type) where
  | restart (device : ι) (records : WireRecords) (seeded : Bool)
  | own (device : ι) (act : DeviceAct)
  | deliver (device : ι) (delivery : Delivery)
  | deliverFetch (device : ι) (delivery : Delivery)

/-! ## One device -/

namespace Job

def remote (job : Job) : Option Bytes :=
  match job.phase, job.answer with
  | .refetch, some (.found bytes _) => some bytes
  | _, _ => none

/-- What the merge callback returned; a job with nothing to merge does not wait for it. -/
def merged (job : Job) : Option Bytes :=
  match job.remote, job.merge with
  | none, _ => some job.bytes
  | some _, .encoded bytes => some bytes
  | some _, _ => none

def request (job : Job) : Option Request :=
  if job.answer = none then job.phase.request closeRecordsVssKey job.bytes else none

end Job

namespace Device

/-- A process starts without jobs, over the map its local mirror holds. A start that finds local state
seeds the version from the server's listing; one that recovers does not. -/
def fresh (server : Server) (records : WireRecords) (seeded : Bool) : Device where
  store := some records
  upserts := []
  chain := []
  running := none
  cachedVersion := if seeded then server.version closeRecordsVssKey else 0
  listed := if seeded then (server closeRecordsVssKey).map Prod.fst else none
  fenced := false
  seed := none

/-- The device after a stretch of a job. -/
def proceed (d : Device) (bytes : Bytes) (result : Option Nat × Option WritePhase) : Device :=
  { d with
    cachedVersion := result.1.getD d.cachedVersion
    listed := if result.1 = none then d.listed else none
    running := result.2.map fun phase => { bytes := bytes, phase := phase, answer := none, merge := .idle } }

def holdsStore (d : Device) : Bool :=
  !d.upserts.isEmpty || d.seed.isSome || d.running.any fun job => job.merge = .absorbed

def absorbRemote (d : Device) (job : Job) (remoteBytes : Bytes) (nowMs : UInt64) : Option Device :=
  match d.store with
  | some map => (updateRecords (.absorbRemote remoteBytes nowMs) map).map fun map =>
      { d with store := some map, running := some { job with merge := .absorbed } }
  | none => some { d with running := some { job with merge := .encoded remoteBytes } }

def step (d : Device) : DeviceAct → Option Device
  | .upsert incoming hEncodable =>
    (d.store.bind (updateRecords (.upsert incoming hEncodable))).map fun map =>
      { d with store := some map, upserts := d.upserts ++ [none] }
  | .encodeRecords index =>
    match d.store, d.upserts[index]? with
    | some map, some none => some { d with
        upserts := d.upserts.set index (some (CloseRecords.encodeRecords map.records)) }
    | _, _ => none
  | .syncVss index =>
    match d.upserts[index]? with
    | some (some bytes) => some { d with upserts := d.upserts.eraseIdx index, chain := d.chain ++ [bytes] }
    | _ => none
  | .start =>
    match d.running, d.chain with
    | none, bytes :: rest =>
      (putMergeAttempt d.fenced d.cachedVersion bytes bytes .queued none).map fun result =>
        { d with chain := rest }.proceed bytes result
    | _, _ => none
  | .absorbRemote nowMs =>
    match d.running with
    | some job =>
      match job.remote, job.merge with
      | some remoteBytes, .idle => d.absorbRemote job remoteBytes nowMs
      | _, _ => none
    | none => none
  | .encodeMerged =>
    match d.store, d.running with
    | some map, some job =>
      if job.merge = .absorbed then
        some { d with running := some { job with merge := .encoded (CloseRecords.encodeRecords map.records) } }
      else none
    | _, _ => none
  | .resume =>
    match d.running with
    | some job => job.merged.bind fun merged =>
        (putMergeAttempt d.fenced d.cachedVersion job.bytes merged job.phase job.answer).map (d.proceed job.bytes)
    | none => none
  | .fetchVersioned =>
    if d.store.isSome ∧ d.seed = none then some { d with seed := some (.fetching none) } else none
  | .recordFetched =>
    match d.seed with
    | some (.fetching (some (.found bytes version))) =>
      some { d with cachedVersion := version, listed := none, seed := some (.recorded bytes) }
    | some (.fetching (some _)) => some { d with seed := none }
    | _ => none
  | .seedFromRemote nowMs =>
    match d.store, d.seed with
    | some map, some (.recorded bytes) => (updateRecords (.absorbRemote bytes nowMs) map).map fun map =>
        { d with store := some map, seed := none }
    | _, _ => none
  | .fence => some { d with fenced := true }
  | .drop => if d.holdsStore then none else some { d with store := none }

/-- A job goes on as the merging write of the VSS-backed store does. -/
theorem resume_runWrite {d d' : Device} {job : Job} {s : Vss.Store} {env : Vss.Env} (hJob : d.running = some job)
    (hFenced : s.fenced = d.fenced) (hVersion : s.cachedVersion closeRecordsVssKey = d.cachedVersion)
    (hMerged : job.merged = some env.merged) (hStep : d.step .resume = some d') :
    ∃ block, s.runWrite env closeRecordsVssKey job.bytes .merge job.phase job.answer = some block ∧
      block.store.cachedVersion closeRecordsVssKey = d'.cachedVersion ∧
      block.next = d'.running.map fun job => .write closeRecordsVssKey job.bytes .merge job.phase := by
  simp only [step, hJob, hMerged, Option.bind_some] at hStep
  obtain ⟨⟨recorded, phase⟩, hAttempt, rfl⟩ := Option.map_eq_some_iff.mp hStep
  refine ⟨⟨s.recordSome closeRecordsVssKey recorded, phase.map (.write closeRecordsVssKey job.bytes .merge), []⟩,
    ?_, ?_, ?_⟩
  · simp only [Vss.Store.runWrite, hFenced, hVersion, hAttempt, Option.map_some]
  · cases recorded with
    | none => exact hVersion
    | some version => simp [Vss.Store.recordSome, Vss.Store.cachedVersion, Vss.Store.recordVersion, proceed]
  · cases phase <;> rfl

end Device

/-! ## The devices and the server -/

def serverFacts (server : Server) : Finset Fact :=
  match server closeRecordsVssKey with
  | some (bytes, _) => wireFacts bytes
  | none => ∅

namespace World

variable {ι : Type} [DecidableEq ι]

def setDevice (w : World ι) (device : ι) (d : Device) : World ι :=
  { w with devices := Function.update w.devices device d }

def step (w : World ι) : Act ι → Option (World ι)
  | .restart device records seeded => some (w.setDevice device (.fresh w.server records seeded))
  | .own device act => ((w.devices device).step act).map (w.setDevice device)
  | .deliver device delivery =>
    match (w.devices device).running with
    | some job => job.request.map fun request =>
        let result := w.server.deliver request delivery
        { w with server := result.1 }.setDevice device
          { w.devices device with running := some { job with answer := some result.2 } }
    | none => none
  | .deliverFetch device delivery =>
    if (w.devices device).seed = some (.fetching none) then
      let result := w.server.deliver (.get closeRecordsVssKey) delivery
      some ({ w with server := result.1 }.setDevice device
        { w.devices device with seed := some (.fetching (some result.2)) })
    else none

end World

/-! ## Snapshots that fall behind -/

/-- The content whose version a step records. -/
def Device.adopts (d : Device) : DeviceAct → Option Bytes
  | .resume =>
    match d.running with
    | some ⟨bytes, .put _, some (.putOk _), _⟩ => some bytes
    | some ⟨_, .retry bytes _, some (.putOk _), _⟩ => some bytes
    | some ⟨_, .refetch, some (.found bytes _), _⟩ => some bytes
    | _ => none
  | .recordFetched =>
    match d.seed with
    | some (.fetching (some (.found bytes _))) => some bytes
    | _ => none
  | _ => none

/-- The snapshots that have yet to be put, and will be put at the version cached by then. -/
def Device.waiting (d : Device) : List Bytes := d.upserts.reduceOption ++ d.chain

/-- What the cached version stands for and the map need not have: a listing names only the version, and
the fetch records it before it merges the content. -/
def Device.unmerged (d : Device) : Finset Fact :=
  match d.seed with
  | some (.recorded bytes) => wireFacts bytes
  | _ => d.listed.elim ∅ wireFacts

def DeviceAct.takesSnapshot : DeviceAct → Bool
  | .encodeRecords _ => true
  | _ => false

/-- No snapshot falls behind: when a device records a version, all snapshots that wait have the facts of
its content, and none is taken while the map misses facts whose version is seeded or recorded. -/
def Device.KeepsUp (d : Device) (act : DeviceAct) : Prop :=
  (∀ content ∈ d.adopts act, ∀ snapshot ∈ d.waiting, wireFacts content ≤ wireFacts snapshot) ∧
  (act.takesSnapshot = true → ∀ map ∈ d.store, d.unmerged ≤ facts map.records)

def KeepsUp {ι : Type} (w : World ι) : Act ι → Prop
  | .own device act => (w.devices device).KeepsUp act
  | _ => True

instance (d : Device) (act : DeviceAct) : Decidable (d.KeepsUp act) := inferInstanceAs (Decidable (_ ∧ _))

instance {ι : Type} (w : World ι) : (act : Act ι) → Decidable (KeepsUp w act)
  | .own device act => inferInstanceAs (Decidable ((w.devices device).KeepsUp act))
  | .restart .. | .deliver .. | .deliverFetch .. => isTrue trivial

/-! ## What each party knows -/

/-- Everything a map has grown from is below it; a store that was dropped has no map. -/
def Grows (store store' : Option WireRecords) : Prop :=
  ∀ map' ∈ store', ∃ map ∈ store, facts map.records ≤ facts map'.records

def Under (store : Option WireRecords) (bytes : Bytes) : Prop :=
  ∀ map ∈ store, wireFacts bytes ≤ facts map.records

def MapCovers (h : History (Finset Fact)) (store : Option WireRecords) (version : Nat) : Prop :=
  ∀ map ∈ store, h.Covers version (facts map.records)

def MergeStage.Held (h : History (Finset Fact)) (store : Option WireRecords) (version : Nat) : MergeStage → Prop
  | .idle => True
  | .absorbed => MapCovers h store version
  | .encoded merged => MapCovers h store version ∧ h.Covers version (wireFacts merged) ∧ Under store merged

/-- What a job puts has the facts the server held at the version it names. -/
def Job.Held (h : History (Finset Fact)) (store : Option WireRecords) (job : Job) : Prop :=
  match job.phase, job.answer with
  | .queued, _ => False
  | .put version, none => h.Covers version (wireFacts job.bytes)
  | .put _, some (.putOk version) => h.Covers version (wireFacts job.bytes)
  | .refetch, none => job.merge = .idle
  | .refetch, some (.found remote version) =>
    h.Covers version (wireFacts remote) ∧ job.merge.Held h store version
  | .retry bytes version, none => h.Covers version (wireFacts bytes) ∧ Under store bytes
  | .retry bytes _, some (.putOk version) => h.Covers version (wireFacts bytes) ∧ Under store bytes
  | _, _ => True

structure Device.Inv (h : History (Finset Fact)) (d : Device) : Prop where
  map : ∀ map ∈ d.store, h.Covers d.cachedVersion (facts map.records ⊔ d.unmerged)
  waiting : ∀ bytes ∈ d.waiting, h.Covers d.cachedVersion (wireFacts bytes)
  under : ∀ bytes ∈ d.waiting, Under d.store bytes
  running : ∀ job ∈ d.running, Under d.store job.bytes ∧ job.Held h d.store
  seed : ∀ bytes version, d.seed = some (.fetching (some (.found bytes version))) → h.Covers version (wireFacts bytes)

/-- The history ends with what the server holds. -/
structure Matches (h : History (Finset Fact)) (server : Server) : Prop where
  now : h.now = server.version closeRecordsVssKey
  content : h.content h.now = serverFacts server

theorem Matches.covers {h : History (Finset Fact)} {server : Server} {bytes : Bytes} {version : Nat} (hMatches : Matches h server)
    (hEntry : server closeRecordsVssKey = some (bytes, version)) : h.Covers version (wireFacts bytes) := by
  have hNow : h.now = version := hMatches.now.trans (Server.version_of_some hEntry)
  have hContent := hMatches.content
  rw [serverFacts, hEntry, hNow] at hContent
  exact ⟨hNow.ge, hContent.le⟩

theorem Device.mem_waiting (d : Device) (bytes : Bytes) :
    bytes ∈ d.waiting ↔ some bytes ∈ d.upserts ∨ bytes ∈ d.chain := by
  rw [waiting, List.mem_append, List.reduceOption_mem_iff]

theorem Grows.refl (store : Option WireRecords) : Grows store store := fun map hMap => ⟨map, hMap, le_rfl⟩

theorem grows_update {store : Option WireRecords} {map map' : WireRecords} (hMap : store = some map)
    (hLe : facts map.records ≤ facts map'.records) : Grows store (some map') := by
  rintro _ ⟨⟩
  exact ⟨map, hMap, hLe⟩

theorem Under.grow {store store' : Option WireRecords} {bytes : Bytes} (h : Under store bytes)
    (hGrows : Grows store store') : Under store' bytes := by
  intro map' hMap'
  obtain ⟨map, hMap, hLe⟩ := hGrows map' hMap'
  exact (h map hMap).trans hLe

section Mono

variable {h h' : History (Finset Fact)} (hHistory : ∀ version x, h.Covers version x → h'.Covers version x)

include hHistory

theorem MapCovers.mono {store store' : Option WireRecords} {version : Nat} (hCovers : MapCovers h store version)
    (hGrows : Grows store store') : MapCovers h' store' version := by
  intro map' hMap'
  obtain ⟨map, hMap, hLe⟩ := hGrows map' hMap'
  exact (hHistory _ _ (hCovers map hMap)).le hLe

theorem MergeStage.Held.mono {store store' : Option WireRecords} {version : Nat} {merge : MergeStage}
    (hHeld : merge.Held h store version) (hGrows : Grows store store') : merge.Held h' store' version := by
  cases merge with
  | idle => trivial
  | absorbed => exact MapCovers.mono hHistory hHeld hGrows
  | encoded merged =>
    obtain ⟨hMap, hMerged, hUnder⟩ := hHeld
    exact ⟨hMap.mono hHistory hGrows, hHistory _ _ hMerged, hUnder.grow hGrows⟩

theorem Job.Held.mono {store store' : Option WireRecords} {job : Job} (hHeld : job.Held h store)
    (hGrows : Grows store store') : job.Held h' store' := by
  revert hHeld
  rw [Job.Held, Job.Held]
  split
  · exact id
  · exact hHistory _ _
  · exact hHistory _ _
  · exact id
  · rintro ⟨hRemote, hMerge⟩
    exact ⟨hHistory _ _ hRemote, hMerge.mono hHistory hGrows⟩
  · rintro ⟨hBytes, hUnder⟩
    exact ⟨hHistory _ _ hBytes, hUnder.grow hGrows⟩
  · rintro ⟨hBytes, hUnder⟩
    exact ⟨hHistory _ _ hBytes, hUnder.grow hGrows⟩
  · exact id

theorem Device.Inv.mono {d : Device} (hInv : d.Inv h) : d.Inv h' where
  map map hMap := hHistory _ _ (hInv.map map hMap)
  waiting bytes hBytes := hHistory _ _ (hInv.waiting bytes hBytes)
  under := hInv.under
  running job hJob := ⟨(hInv.running job hJob).1, (hInv.running job hJob).2.mono hHistory (.refl _)⟩
  seed bytes version hSeed := hHistory _ _ (hInv.seed bytes version hSeed)

end Mono

/-! ## The steps of one device -/

section DeviceSteps

variable {h : History (Finset Fact)} {d d' : Device}

theorem Device.Inv.grow {store' : Option WireRecords} (hInv : d.Inv h) (hGrows : Grows d.store store') :
    { d with store := store' }.Inv h where
  map map' hMap' := by
    obtain ⟨map, hMap, hLe⟩ := hGrows map' hMap'
    exact (hInv.map map hMap).le (sup_le_sup_right hLe _)
  waiting := hInv.waiting
  under bytes hBytes := (hInv.under bytes hBytes).grow hGrows
  running job hJob :=
    ⟨(hInv.running job hJob).1.grow hGrows, (hInv.running job hJob).2.mono (fun _ _ hCovers => hCovers) hGrows⟩
  seed := hInv.seed

theorem Device.Inv.queue {upserts : List (Option Bytes)} {chain : List Bytes} (hInv : d.Inv h)
    (hWaiting : { d with upserts := upserts, chain := chain }.waiting ⊆ d.waiting) :
    { d with upserts := upserts, chain := chain }.Inv h where
  map := hInv.map
  waiting bytes hBytes := hInv.waiting bytes (hWaiting hBytes)
  under bytes hBytes := hInv.under bytes (hWaiting hBytes)
  running := hInv.running
  seed := hInv.seed

theorem Device.Inv.run {running : Option Job} (hInv : d.Inv h)
    (hRunning : ∀ job ∈ running, Under d.store job.bytes ∧ job.Held h d.store) :
    { d with running := running }.Inv h where
  map := hInv.map
  waiting := hInv.waiting
  under := hInv.under
  running := hRunning
  seed := hInv.seed

/-- A version may be recorded when the snapshots that wait, and the map, have the facts of its content. -/
theorem Device.Inv.record {content : Bytes} {version : Nat} (hInv : d.Inv h)
    (hCovers : h.Covers version (wireFacts content))
    (hWaiting : ∀ snapshot ∈ d.waiting, wireFacts content ≤ wireFacts snapshot)
    (hMap : ∀ map ∈ d.store, h.Covers version (facts map.records)) :
    { d with cachedVersion := version, listed := none }.Inv h where
  map map hStore := (hMap map hStore).le le_sup_left
  waiting bytes hBytes := hCovers.le (hWaiting bytes hBytes)
  under := hInv.under
  running := hInv.running
  seed := hInv.seed

theorem facts_upsert {incoming : CloseRecord} {hEncodable : incoming.Encodable} {map map' : WireRecords}
    (hUpdate : updateRecords (.upsert incoming hEncodable) map = some map') :
    facts map.records ≤ facts map'.records := by
  cases hUpdate
  exact (mergeInto_kept _ _ _).facts_le

theorem facts_absorbRemote {remoteBytes : Bytes} {nowMs : UInt64} {map map' : WireRecords}
    (hUpdate : updateRecords (.absorbRemote remoteBytes nowMs) map = some map') :
    facts map.records ⊔ wireFacts remoteBytes ≤ facts map'.records := by
  cases hUpdate
  rw [← facts_remoteMap remoteBytes nowMs]
  exact facts_mergeMapInto _ _

theorem Device.Inv.upsert {incoming : CloseRecord} {hEncodable : incoming.Encodable} (hInv : d.Inv h)
    (hStep : d.step (.upsert incoming hEncodable) = some d') : d'.Inv h := by
  obtain ⟨map', hUpdate, rfl⟩ := Option.map_eq_some_iff.mp hStep
  obtain ⟨map, hMap, hUpdate⟩ := Option.bind_eq_some_iff.mp hUpdate
  refine (hInv.grow (grows_update hMap (facts_upsert hUpdate))).queue ?_
  intro bytes hBytes
  simpa [mem_waiting] using hBytes

theorem Device.Inv.encodeRecords {index : Nat} (hInv : d.Inv h) (hKeeps : d.KeepsUp (.encodeRecords index))
    (hStep : d.step (.encodeRecords index) = some d') : d'.Inv h := by
  rw [step] at hStep
  split at hStep
  · rename_i map hMap _
    cases hStep
    have hFacts := wireFacts_encode map
    have hUnmerged : d.unmerged ≤ facts map.records := hKeeps.2 rfl map hMap
    have hNew : ∀ bytes ∈ { d with
        upserts := d.upserts.set index (some (CloseRecords.encodeRecords map.records)) }.waiting,
        bytes = CloseRecords.encodeRecords map.records ∨ bytes ∈ d.waiting := by
      intro bytes hBytes
      rw [mem_waiting] at hBytes ⊢
      obtain hUpserts | hChain := hBytes
      · obtain hOld | hNew := List.mem_or_eq_of_mem_set hUpserts
        · exact .inr (.inl hOld)
        · exact .inl (Option.some.inj hNew)
      · exact .inr (.inr hChain)
    refine ⟨hInv.map, ?_, ?_, hInv.running, hInv.seed⟩
    · intro bytes hBytes
      obtain rfl | hOld := hNew bytes hBytes
      · rw [hFacts]
        exact (hInv.map map hMap).le (sup_le le_rfl hUnmerged)
      · exact hInv.waiting bytes hOld
    · intro bytes hBytes
      obtain rfl | hOld := hNew bytes hBytes
      · intro map' hMap'
        cases hMap.symm.trans hMap'
        exact hFacts.le
      · exact hInv.under bytes hOld
  · cases hStep

theorem Device.Inv.syncVss {index : Nat} (hInv : d.Inv h) (hStep : d.step (.syncVss index) = some d') :
    d'.Inv h := by
  rw [step] at hStep
  split at hStep
  · rename_i bytes hAt
    cases hStep
    refine hInv.queue ?_
    intro bytes' hBytes
    rw [mem_waiting, List.mem_append, List.mem_singleton] at hBytes
    rw [mem_waiting]
    obtain hUpserts | hChain | rfl := hBytes
    · exact .inl (List.mem_of_mem_eraseIdx hUpserts)
    · exact .inr hChain
    · exact .inl (List.mem_of_getElem? hAt)
  · cases hStep

theorem Device.Inv.start (hInv : d.Inv h) (hStep : d.step .start = some d') : d'.Inv h := by
  rw [step] at hStep
  split at hStep
  · rename_i bytes rest _ hChain
    cases hStep
    have hFirst : bytes ∈ d.waiting := (d.mem_waiting bytes).mpr (.inr (hChain ▸ List.mem_cons_self))
    have hRest : { d with chain := rest }.waiting ⊆ d.waiting := by
      intro bytes' hBytes
      rw [mem_waiting] at hBytes ⊢
      rw [hChain]
      exact hBytes.imp_right (List.mem_cons_of_mem _)
    refine (hInv.queue hRest).run ?_
    intro job hJob
    obtain ⟨phase, hPhase, rfl⟩ := Option.map_eq_some_iff.mp hJob
    split at hPhase
    · cases hPhase
    · cases hPhase
      exact ⟨hInv.under bytes hFirst, hInv.waiting bytes hFirst⟩
  · cases hStep

theorem Job.remote_eq_some {job : Job} {bytes : Bytes} (hRemote : job.remote = some bytes) :
    ∃ version, job.phase = .refetch ∧ job.answer = some (.found bytes version) := by
  rw [Job.remote] at hRemote
  split at hRemote
  · rename_i version hPhase hAnswer
    cases hRemote
    exact ⟨version, hPhase, hAnswer⟩
  · cases hRemote

theorem Job.Held.setMerge {store : Option WireRecords} {job : Job} {merge : MergeStage} (hHeld : job.Held h store)
    (hStage : job.merge = .idle → job.answer ≠ none)
    (hMerge : ∀ bytes version, job.answer = some (.found bytes version) → h.Covers version (wireFacts bytes) →
      job.merge.Held h store version → merge.Held h store version) : { job with merge := merge }.Held h store := by
  obtain ⟨bytes, phase, answer, stage⟩ := job
  revert hHeld
  simp only [Job.Held]
  split
  · exact id
  · exact id
  · exact id
  · exact fun hIdle => absurd rfl (hStage hIdle)
  · rintro ⟨hRemote, hHeld⟩
    exact ⟨hRemote, hMerge _ _ rfl hRemote hHeld⟩
  · exact id
  · exact id
  · exact id

theorem Device.Inv.absorbRemote {nowMs : UInt64} (hInv : d.Inv h)
    (hStep : d.step (.absorbRemote nowMs) = some d') : d'.Inv h := by
  rw [step] at hStep
  split at hStep
  · rename_i job hJob
    split at hStep
    · rename_i remoteBytes hRemote _
      obtain ⟨version, -, hAnswer⟩ := Job.remote_eq_some hRemote
      rw [Device.absorbRemote] at hStep
      split at hStep
      · rename_i map hMap
        obtain ⟨map', hUpdate, rfl⟩ := Option.map_eq_some_iff.mp hStep
        have hFacts := facts_absorbRemote hUpdate
        have hGrown := hInv.grow (grows_update hMap (le_sup_left.trans hFacts))
        refine hGrown.run ?_
        rintro _ ⟨⟩
        obtain ⟨hUnder, hHeld⟩ := hGrown.running job hJob
        refine ⟨hUnder, hHeld.setMerge (fun _ => by simp [hAnswer]) ?_⟩
        intro bytes version' hAnswer' hCovers _
        cases hAnswer.symm.trans hAnswer'
        rintro _ ⟨⟩
        exact hCovers.le (le_sup_right.trans hFacts)
      · rename_i hNone
        cases hStep
        obtain ⟨hUnder, hHeld⟩ := hInv.running job hJob
        refine hInv.run ?_
        rintro _ ⟨⟩
        refine ⟨hUnder, hHeld.setMerge (fun _ => by simp [hAnswer]) ?_⟩
        intro bytes version' hAnswer' hCovers _
        cases hAnswer.symm.trans hAnswer'
        rw [hNone]
        refine ⟨?_, hCovers, ?_⟩
        · rintro _ ⟨⟩
        · rintro _ ⟨⟩
    · cases hStep
  · cases hStep

theorem Device.Inv.encodeMerged (hInv : d.Inv h) (hStep : d.step .encodeMerged = some d') : d'.Inv h := by
  rw [step] at hStep
  split at hStep
  · rename_i map job hMap hJob
    obtain ⟨hUnder, hHeld⟩ := hInv.running job hJob
    split at hStep
    · rename_i hMerge
      cases hStep
      refine hInv.run ?_
      rintro _ ⟨⟩
      refine ⟨hUnder, hHeld.setMerge (fun hIdle => by simp [hMerge] at hIdle) ?_⟩
      intro bytes version _ _ hAbsorbed
      rw [hMerge] at hAbsorbed
      refine ⟨hAbsorbed, ?_, ?_⟩
      · rw [wireFacts_encode]
        exact hAbsorbed map hMap
      · intro map' hMap'
        cases hMap.symm.trans hMap'
        exact (wireFacts_encode map).le
    · cases hStep
  · cases hStep

/-- What a job can do when it goes on: give up or end, refetch, record the version of what it put, or
retry with the merged map or, when the server has none, with its own. -/
theorem Device.resume_cases (hQueued : ∀ job ∈ d.running, job.phase ≠ .queued) (hStep : d.step .resume = some d') :
    ∃ job, d.running = some job ∧
      (d' = { d with running := none } ∨
        d' = { d with running := some ⟨job.bytes, .refetch, none, .idle⟩ } ∨
        (∃ content version, d.adopts .resume = some content ∧ job.answer = some (.putOk version) ∧
          ((∃ named, job.phase = .put named) ∧ content = job.bytes ∨ ∃ named, job.phase = .retry content named) ∧
          d' = { d with cachedVersion := version, listed := none, running := none }) ∨
        (∃ remote version merged, d.adopts .resume = some remote ∧ job.phase = .refetch ∧
          job.answer = some (.found remote version) ∧ job.merge = .encoded merged ∧
          d' = { d with
            cachedVersion := version
            listed := none
            running := some ⟨job.bytes, .retry merged version, none, .idle⟩ }) ∨
        d' = { d with
          cachedVersion := 0
          listed := none
          running := some ⟨job.bytes, .retry job.bytes 0, none, .idle⟩ }) := by
  rw [step] at hStep
  split at hStep
  · rename_i job hJob
    simp only [Option.bind_eq_some_iff, Option.map_eq_some_iff] at hStep
    obtain ⟨merged, hMerged, result, hAttempt, rfl⟩ := hStep
    obtain ⟨bytes, phase, answer, merge⟩ := job
    refine ⟨_, hJob, ?_⟩
    simp only [putMergeAttempt] at hAttempt
    unfold Vss.putAttempt at hAttempt
    split at hAttempt
    · exact absurd rfl (hQueued _ hJob)
    · rename_i named version
      cases hAttempt
      refine .inr (.inr (.inl ⟨bytes, version, ?_, rfl, .inl ⟨⟨named, rfl⟩, rfl⟩, rfl⟩))
      rw [adopts, hJob]
    · cases hAttempt
      exact .inr (.inl rfl)
    · cases hAttempt
      exact .inl rfl
    · rename_i remote version
      cases hAttempt
      obtain ⟨rfl⟩ | ⟨rfl⟩ | merged' := merge
      · cases hMerged
      · cases hMerged
      · cases hMerged
        refine .inr (.inr (.inr (.inl ⟨remote, version, merged, ?_, rfl, rfl, rfl, rfl⟩)))
        rw [adopts, hJob]
    · cases hAttempt
      exact .inr (.inr (.inr (.inr rfl)))
    · cases hAttempt
      exact .inl rfl
    · rename_i content named version
      cases hAttempt
      refine .inr (.inr (.inl ⟨content, version, ?_, rfl, .inr ⟨named, rfl⟩, rfl⟩))
      rw [adopts, hJob]
    · cases hAttempt
      exact .inl rfl
    · cases hAttempt
  · cases hStep

theorem Job.Held.not_queued {store : Option WireRecords} {job : Job} (hHeld : job.Held h store) :
    job.phase ≠ .queued := by
  intro hPhase
  rw [Job.Held, hPhase] at hHeld
  exact hHeld

theorem Device.Inv.resume (hInv : d.Inv h) (hKeeps : d.KeepsUp .resume) (hStep : d.step .resume = some d') :
    d'.Inv h := by
  obtain ⟨job, hJob, hCases⟩ := resume_cases (fun job hJob => (hInv.running job hJob).2.not_queued) hStep
  obtain ⟨hUnder, hHeld⟩ := hInv.running job hJob
  obtain rfl | rfl | ⟨content, version, hAdopts, hAnswer, hContent, rfl⟩ |
    ⟨remote, version, merged, hAdopts, hPhase, hAnswer, hMerge, rfl⟩ | rfl := hCases
  · exact hInv.run fun _ hNone => by cases hNone
  · refine hInv.run ?_
    rintro _ ⟨⟩
    exact ⟨hUnder, rfl⟩
  · have hPut : h.Covers version (wireFacts content) ∧ Under d.store content := by
      obtain ⟨⟨named, hPhase⟩, rfl⟩ | ⟨named, hPhase⟩ := hContent
      · rw [Job.Held, hPhase, hAnswer] at hHeld
        exact ⟨hHeld, hUnder⟩
      · rw [Job.Held, hPhase, hAnswer] at hHeld
        exact hHeld
    refine (hInv.record hPut.1 (hKeeps.1 content hAdopts) ?_).run fun _ hNone => by cases hNone
    intro map hMap
    exact hPut.1.le (hPut.2 map hMap)
  · rw [Job.Held, hPhase, hAnswer, hMerge] at hHeld
    obtain ⟨hRemote, hMap, hMerged⟩ := hHeld
    refine (hInv.record hRemote (hKeeps.1 remote hAdopts) ?_).run ?_
    · exact hMap
    · rintro _ ⟨⟩
      exact ⟨hUnder, hMerged⟩
  · refine ⟨fun _ _ => h.covers_zero _, fun _ _ => h.covers_zero _, hInv.under, ?_, hInv.seed⟩
    rintro _ ⟨⟩
    exact ⟨hUnder, h.covers_zero _, hUnder⟩

theorem Device.Inv.recordFetched (hInv : d.Inv h) (hKeeps : d.KeepsUp .recordFetched)
    (hStep : d.step .recordFetched = some d') : d'.Inv h := by
  rw [step] at hStep
  split at hStep
  · rename_i bytes version hSeed
    cases hStep
    have hCovers := hInv.seed bytes version hSeed
    have hAdopts : d.adopts .recordFetched = some bytes := by rw [adopts, hSeed]
    refine ⟨?_, ?_, hInv.under, hInv.running, ?_⟩
    · exact fun map _ => hCovers.le le_sup_right
    · exact fun snapshot hSnapshot => hCovers.le (hKeeps.1 bytes hAdopts snapshot hSnapshot)
    · rintro _ _ ⟨⟩
  · rename_i hSeed
    cases hStep
    refine ⟨?_, hInv.waiting, hInv.under, hInv.running, ?_⟩
    · intro map hMap
      have hCovers := hInv.map map hMap
      rw [unmerged, hSeed] at hCovers
      exact hCovers
    · rintro _ _ ⟨⟩
  · cases hStep

theorem Device.Inv.seedFromRemote {nowMs : UInt64} (hInv : d.Inv h)
    (hStep : d.step (.seedFromRemote nowMs) = some d') : d'.Inv h := by
  rw [step] at hStep
  split at hStep
  · rename_i map bytes hMap hSeed
    obtain ⟨map', hUpdate, rfl⟩ := Option.map_eq_some_iff.mp hStep
    have hFacts := facts_absorbRemote hUpdate
    obtain ⟨-, hWaiting, hUnder, hRunning, -⟩ := hInv.grow (grows_update hMap (le_sup_left.trans hFacts))
    refine ⟨?_, hWaiting, hUnder, hRunning, ?_⟩
    · rintro _ ⟨⟩
      have hCovers := hInv.map map hMap
      rw [unmerged, hSeed] at hCovers
      exact hCovers.le (hFacts.trans le_sup_left)
    · rintro _ _ ⟨⟩
  · cases hStep

theorem Device.fresh_inv {server : Server} (hMatches : Matches h server) (records : WireRecords) (seeded : Bool) :
    (fresh server records seeded).Inv h where
  map map _ := by
    cases seeded with
    | false => exact h.covers_zero _
    | true =>
      cases hEntry : server closeRecordsVssKey with
      | none =>
        have hVersion : (fresh server records true).cachedVersion = 0 := by simp [fresh, Server.version, hEntry]
        rw [hVersion]
        exact h.covers_zero _
      | some entry =>
        have hVersion : (fresh server records true).cachedVersion = entry.2 := Server.version_of_some hEntry
        have hUnmerged : (fresh server records true).unmerged = wireFacts entry.1 := by simp [fresh, unmerged, hEntry]
        rw [hVersion, hUnmerged]
        exact (hMatches.covers hEntry).le le_sup_right
  waiting _ hBytes := by cases hBytes
  under _ hBytes := by cases hBytes
  running _ hJob := by cases hJob
  seed _ _ hSeed := by cases hSeed

theorem Device.Inv.step {act : DeviceAct} (hInv : d.Inv h) (hKeeps : d.KeepsUp act) (hStep : d.step act = some d') :
    d'.Inv h := by
  cases act with
  | upsert incoming hEncodable => exact hInv.upsert hStep
  | encodeRecords index => exact hInv.encodeRecords hKeeps hStep
  | syncVss index => exact hInv.syncVss hStep
  | start => exact hInv.start hStep
  | absorbRemote nowMs => exact hInv.absorbRemote hStep
  | encodeMerged => exact hInv.encodeMerged hStep
  | resume => exact hInv.resume hKeeps hStep
  | fetchVersioned =>
    rw [Device.step] at hStep
    split at hStep
    · rename_i hIdle
      cases hStep
      refine ⟨?_, hInv.waiting, hInv.under, hInv.running, ?_⟩
      · intro map hMap
        have hCovers := hInv.map map hMap
        rw [unmerged, hIdle.2] at hCovers
        exact hCovers
      · rintro _ _ ⟨⟩
    · cases hStep
  | recordFetched => exact hInv.recordFetched hKeeps hStep
  | seedFromRemote nowMs => exact hInv.seedFromRemote hStep
  | fence =>
    cases hStep
    exact ⟨hInv.map, hInv.waiting, hInv.under, hInv.running, hInv.seed⟩
  | drop =>
    rw [Device.step] at hStep
    split at hStep
    · cases hStep
    · cases hStep
      exact hInv.grow fun _ hNone => by cases hNone

end DeviceSteps

/-! ## The server and all devices -/

section WorldSteps

variable {h : History (Finset Fact)} {server : Server}

/-- A put that has the facts of the version it names takes the history on, if it takes effect. -/
theorem Matches.deliver_put {bytes : Bytes} {version : Nat} (hMatches : Matches h server)
    (hCovers : h.Covers version (wireFacts bytes)) (delivery : Delivery) :
    ∃ h', (∀ v x, h.Covers v x → h'.Covers v x) ∧
      Matches h' (server.deliver (.put closeRecordsVssKey bytes version) delivery).1 ∧
      serverFacts server ≤ serverFacts (server.deliver (.put closeRecordsVssKey bytes version) delivery).1 := by
  have hEffect := server.deliver_effect (.put closeRecordsVssKey bytes version) delivery
  generalize (server.deliver (.put closeRecordsVssKey bytes version) delivery).1 = after at hEffect ⊢
  cases hEffect with
  | none => exact ⟨h, fun _ _ => id, hMatches, le_rfl⟩
  | put _ _ _ hVersion =>
    have hNow : h.now = version := hMatches.now.trans hVersion
    have hAbove : h.content h.now ≤ wireFacts bytes := by
      rw [hNow]
      exact hCovers.2
    refine ⟨h.push (wireFacts bytes) hAbove, fun _ _ hOld => hOld.push hAbove, ⟨?_, ?_⟩, ?_⟩
    · rw [Server.version_update, if_pos rfl, ← hNow]
      rfl
    · rw [serverFacts, Function.update_self]
      exact History.content_push_now hAbove
    · rw [← hMatches.content, serverFacts, Function.update_self]
      exact hAbove

theorem deliver_get (server : Server) (key : String) (delivery : Delivery) :
    (server.deliver (.get key) delivery).1 = server := by
  have hEffect := server.deliver_effect (.get key) delivery
  generalize (server.deliver (.get key) delivery).1 = after at hEffect ⊢
  cases hEffect
  rfl

theorem Job.Held.deliver {store : Option WireRecords} {job : Job} {request : Request} (hMatches : Matches h server)
    (hHeld : job.Held h store) (hRequest : job.request = some request) (delivery : Delivery) :
    ∃ h', (∀ v x, h.Covers v x → h'.Covers v x) ∧ Matches h' (server.deliver request delivery).1 ∧
      serverFacts server ≤ serverFacts (server.deliver request delivery).1 ∧
      { job with answer := some (server.deliver request delivery).2 }.Held h' store := by
  obtain ⟨bytes, phase, answer, merge⟩ := job
  have hAnswered := server.deliver_answered request delivery
  rw [Job.request] at hRequest
  split at hRequest
  · rename_i hNone
    cases hNone
    cases phase with
    | queued => cases hRequest
    | put version =>
      cases hRequest
      obtain ⟨h', hHistory, hMatches', hLe⟩ := hMatches.deliver_put hHeld delivery
      refine ⟨h', hHistory, hMatches', hLe, ?_⟩
      generalize server.deliver (.put closeRecordsVssKey bytes version) delivery = result at hMatches' hAnswered ⊢
      obtain ⟨after, answer⟩ := result
      cases answer with
      | putOk new => exact hMatches'.covers hAnswered.2
      | _ => trivial
    | refetch =>
      cases hRequest
      refine ⟨h, fun _ _ => id, ?_, ?_, ?_⟩
      · rw [deliver_get]
        exact hMatches
      · rw [deliver_get]
      · rw [deliver_get] at hAnswered
        generalize (server.deliver (.get closeRecordsVssKey) delivery).2 = answer at hAnswered ⊢
        cases answer with
        | found value version =>
          refine ⟨hMatches.covers hAnswered, ?_⟩
          rw [show merge = .idle from hHeld]
          trivial
        | _ => trivial
    | retry bytes version =>
      cases hRequest
      obtain ⟨hCovers, hUnder⟩ := hHeld
      obtain ⟨h', hHistory, hMatches', hLe⟩ := hMatches.deliver_put hCovers delivery
      refine ⟨h', hHistory, hMatches', hLe, ?_⟩
      generalize server.deliver (.put closeRecordsVssKey bytes version) delivery = result at hMatches' hAnswered ⊢
      obtain ⟨after, answer⟩ := result
      cases answer with
      | putOk new => exact ⟨hMatches'.covers hAnswered.2, hUnder⟩
      | _ => trivial
  · cases hRequest

variable {ι : Type} [DecidableEq ι]

/-- There is a history of the server's map that every device has kept up with. -/
def Inv (w : World ι) : Prop := ∃ h : History (Finset Fact), Matches h w.server ∧ ∀ i, (w.devices i).Inv h

theorem setDevice_inv {w : World ι} {device : ι} {d : Device} (hDevices : ∀ i, (w.devices i).Inv h) (hInv : d.Inv h) :
    ∀ i, ((w.setDevice device d).devices i).Inv h := by
  intro i
  by_cases hDevice : i = device
  · subst hDevice
    simp only [World.setDevice, Function.update_self]
    exact hInv
  · simp only [World.setDevice, Function.update_of_ne hDevice]
    exact hDevices i

theorem step_inv {w w' : World ι} {act : Act ι} (hInv : Inv w) (hKeeps : KeepsUp w act) (hStep : w.step act = some w') :
    Inv w' ∧ serverFacts w.server ≤ serverFacts w'.server := by
  obtain ⟨h, hMatches, hDevices⟩ := hInv
  cases act with
  | restart device records seeded =>
    cases hStep
    exact ⟨⟨h, hMatches, setDevice_inv hDevices (Device.fresh_inv hMatches records seeded)⟩, le_rfl⟩
  | own device act =>
    obtain ⟨d', hDevice, rfl⟩ := Option.map_eq_some_iff.mp hStep
    exact ⟨⟨h, hMatches, setDevice_inv hDevices ((hDevices device).step hKeeps hDevice)⟩, le_rfl⟩
  | deliver device delivery =>
    rw [World.step] at hStep
    split at hStep
    · rename_i job hJob
      obtain ⟨request, hRequest, rfl⟩ := Option.map_eq_some_iff.mp hStep
      obtain ⟨hUnder, hHeld⟩ := (hDevices device).running job hJob
      obtain ⟨h', hHistory, hMatches', hLe, hHeld'⟩ := hHeld.deliver hMatches hRequest delivery
      have hDevices' : ∀ i, (w.devices i).Inv h' := fun i => (hDevices i).mono hHistory
      refine ⟨⟨h', hMatches', setDevice_inv hDevices' ((hDevices' device).run ?_)⟩, hLe⟩
      rintro _ ⟨⟩
      exact ⟨hUnder, hHeld'⟩
    · cases hStep
  | deliverFetch device delivery =>
    rw [World.step] at hStep
    split at hStep
    · rename_i hSeed
      cases hStep
      have hAnswered := w.server.deliver_answered (.get closeRecordsVssKey) delivery
      simp only [deliver_get] at hAnswered ⊢
      refine ⟨⟨h, hMatches, setDevice_inv hDevices ?_⟩, le_rfl⟩
      obtain ⟨hMap, hWaiting, hUnder, hRunning, -⟩ := hDevices device
      refine ⟨?_, hWaiting, hUnder, hRunning, ?_⟩
      · intro map hStore
        have hCovers := hMap map hStore
        rw [Device.unmerged, hSeed] at hCovers
        exact hCovers
      · intro bytes version hFound
        rw [Seed.fetching.inj (Option.some.inj hFound) |> Option.some.inj] at hAnswered
        exact hMatches.covers hAnswered
    · cases hStep

end WorldSteps

/-! ## Whole runs -/

/-- Every device has just started, and the server counts versions from 1. -/
def Started {ι : Type} (w : World ι) : Prop :=
  (∀ bytes version, w.server closeRecordsVssKey = some (bytes, version) → 0 < version) ∧
  ∀ i, ∃ records seeded, w.devices i = .fresh w.server records seeded

theorem Started.inv {ι : Type} [DecidableEq ι] {w : World ι} (hStarted : Started w) : Inv w := by
  obtain ⟨hServer, hDevices⟩ := hStarted
  have hZero : w.server.version closeRecordsVssKey = 0 → serverFacts w.server = ⊥ := by
    intro hVersion
    rw [serverFacts]
    split
    · rename_i bytes version hEntry
      have hPos := hServer bytes version hEntry
      rw [Server.version_of_some hEntry] at hVersion
      omega
    · rfl
  have hMatches : Matches (.start _ _ hZero) w.server := ⟨rfl, History.content_start_now _ _ hZero⟩
  refine ⟨_, hMatches, ?_⟩
  intro i
  obtain ⟨records, seeded, hFresh⟩ := hDevices i
  rw [hFresh]
  exact Device.fresh_inv hMatches records seeded

/-- As long as no snapshot falls behind, no fact the server's map has had is ever lost. -/
theorem serverFacts_kept {ι : Type} [DecidableEq ι] {w w₁ w₂ : World ι} (before after : List (Act ι))
    (hStarted : Started w) (hKeeps : Along World.step KeepsUp w (before ++ after))
    (hBefore : exec World.step w before = some w₁) (hAfter : exec World.step w₁ after = some w₂) :
    serverFacts w₁.server ≤ serverFacts w₂.server := by
  obtain ⟨hKeepsBefore, hKeepsAfter⟩ := along_append hKeeps
  have hInv : Inv w₁ := exec_inv (fun _ _ _ hInv hKeeps hStep => (step_inv hInv hKeeps hStep).1) hStarted.inv
    hKeepsBefore hBefore
  have hLast : Inv w₂ ∧ serverFacts w₁.server ≤ serverFacts w₂.server := by
    refine exec_inv (P := fun w => Inv w ∧ serverFacts w₁.server ≤ serverFacts w.server) ?_ ⟨hInv, le_rfl⟩
      (hKeepsAfter w₁ hBefore) hAfter
    rintro u act u' ⟨hInv, hLe⟩ hKeeps hStep
    obtain ⟨hInv', hLe'⟩ := step_inv hInv hKeeps hStep
    exact ⟨hInv', hLe.trans hLe'⟩
  exact hLast.2

/-! ## Two devices -/

def noRecords : WireRecords where
  records := ∅
  keyed _ _ h := by cases h
  encodable _ _ h := by cases h

def bothFresh : World Bool where
  server _ := none
  devices _ := .fresh (fun _ => none) noRecords true

def timelockKnown : CloseRecord := { CloseRecord.skeleton "c" 0 with timelockBlocks := some 144 }

def reasonKnown : CloseRecord := { CloseRecord.skeleton "c" 0 with closureReason := some "force closed" }

theorem timelockKnown_encodable : timelockKnown.Encodable := skeleton_encodable rfl fun _ h => by cases h

theorem reasonKnown_encodable : reasonKnown.Encodable := skeleton_encodable rfl fun _ h => by cases h

def save (device : Bool) (record : CloseRecord) (hEncodable : record.Encodable) : List (Act Bool) :=
  [.own device (.upsert record hEncodable), .own device (.encodeRecords 0), .own device (.syncVss 0)]

def putNow (device : Bool) : List (Act Bool) :=
  [.own device .start, .deliver device .ok, .own device .resume]

/-- A put that meets a conflict, merges what it fetches and retries. -/
def putMerged (device : Bool) : List (Act Bool) :=
  [.own device .start, .deliver device .ok, .own device .resume, .deliver device .ok, .own device (.absorbRemote 0),
    .own device .encodeMerged, .own device .resume, .deliver device .ok, .own device .resume]

def timelockPut : List (Act Bool) := save false timelockKnown timelockKnown_encodable ++ putNow false

/-- A new process whose local mirror is lost, seeded from the server. -/
def reseed (device : Bool) : List (Act Bool) :=
  [.restart device noRecords true, .own device .fetchVersioned, .deliverFetch device .ok,
    .own device .recordFetched, .own device (.seedFromRemote 0)]

theorem bothFresh_started : Started bothFresh := by
  refine ⟨?_, fun _ => ⟨noRecords, true, rfl⟩⟩
  rintro _ _ ⟨⟩

def upserted (map : WireRecords) (record : CloseRecord) (hEncodable : record.Encodable) : WireRecords where
  records := mergeInto map.records record.channelId record
  keyed := mergeInto_keyed map.keyed rfl
  encodable := mergeInto_encodable map.encodable hEncodable

theorem serverFacts_encode {server : Server} {version : Nat} (map : WireRecords)
    (hEntry : server closeRecordsVssKey = some (encodeRecords map.records, version)) :
    serverFacts server = facts map.records := by
  rw [serverFacts, hEntry]
  exact wireFacts_encode map

theorem serverFacts_kept_conflict :
    ∃ w₁ w₂, exec World.step bothFresh timelockPut = some w₁ ∧
      exec World.step w₁ (save true reasonKnown reasonKnown_encodable ++ putMerged true ++ reseed false ++
        save false reasonKnown reasonKnown_encodable ++ putNow false) = some w₂ ∧
      ⟨"c", .timelockBlocks⟩ ∈ serverFacts w₁.server ∧ serverFacts w₁.server ≤ serverFacts w₂.server := by
  have hKeeps : Along World.step KeepsUp bothFresh (timelockPut ++
      (save true reasonKnown reasonKnown_encodable ++ putMerged true ++ reseed false ++
        save false reasonKnown reasonKnown_encodable ++ putNow false)) := by decide +kernel
  refine ⟨_, _, rfl, rfl, ?_, serverFacts_kept _ _ bothFresh_started hKeeps rfl rfl⟩
  rw [serverFacts_encode (upserted noRecords timelockKnown timelockKnown_encodable) rfl]
  decide +kernel

/-- Two snapshots wait while another device writes. The job of the first merges and retries; the second is
then put at the version this has recorded, without a conflict and without what was merged. A device that
starts over an older mirror puts its first snapshot at the version of the listing, without a conflict too. -/
theorem waiting_snapshot_loses_fact :
    Started bothFresh ∧
    (∃ w₁ w₂,
      exec World.step bothFresh (save true (CloseRecord.skeleton "c" 0) (bare_encodable "c") ++
        save true reasonKnown reasonKnown_encodable ++ timelockPut) = some w₁ ∧
      exec World.step w₁ (putMerged true ++ putNow true) = some w₂ ∧
      ⟨"c", .timelockBlocks⟩ ∈ serverFacts w₁.server ∧ ⟨"c", .timelockBlocks⟩ ∉ serverFacts w₂.server) ∧
    ∃ w₁ w₂, exec World.step bothFresh timelockPut = some w₁ ∧
      exec World.step w₁ ([.restart true noRecords true] ++ save true reasonKnown reasonKnown_encodable ++
        putNow true) = some w₂ ∧
      ⟨"c", .timelockBlocks⟩ ∈ serverFacts w₁.server ∧ ⟨"c", .timelockBlocks⟩ ∉ serverFacts w₂.server := by
  refine ⟨bothFresh_started, ⟨_, _, rfl, rfl, ?_, ?_⟩, _, _, rfl, rfl, ?_, ?_⟩
  · rw [serverFacts_encode (upserted noRecords timelockKnown timelockKnown_encodable) rfl]
    decide +kernel
  · rw [serverFacts_encode (upserted (upserted noRecords (CloseRecord.skeleton "c" 0) (bare_encodable "c"))
      reasonKnown reasonKnown_encodable) rfl]
    decide +kernel
  · rw [serverFacts_encode (upserted noRecords timelockKnown timelockKnown_encodable) rfl]
    decide +kernel
  · rw [serverFacts_encode (upserted noRecords reasonKnown reasonKnown_encodable) rfl]
    decide +kernel

end WalletCore.CloseRecords.Sync
