import WalletCore.Lib.Crash
import WalletCore.Restore.Plan
import WalletCore.Vss.System

/-! # Starting the node

The branches of `establish_vss_state` and the load of the channel manager that follows it, as a program
over the data directory. Every local write and removal is one change of the disk, so a start may be
refused or cut off at each of them.
-/

namespace WalletCore.Restore

open Lib Vss

/-! ## The data directory -/

/-- The files of the `store` directory; the write log of a restore names the first three kinds. -/
inductive StoreFile where
  | manager
  | monitor (localKey : String)
  | peers
  | other (name : String)
deriving DecidableEq

/-- The `store` directory: the channel manager, the monitors by name, the known peers, and the files of
every other namespace. -/
structure KvStore where
  manager : Option Bytes
  monitors : StringMap Bytes
  peers : Option Bytes
  others : StringMap Bytes
deriving DecidableEq

namespace KvStore

def empty : KvStore := ⟨none, ∅, none, ∅⟩

def write (store : KvStore) (bytes : Bytes) : StoreFile → KvStore
  | .manager => { store with manager := some bytes }
  | .monitor localKey => { store with monitors := store.monitors.insert localKey bytes }
  | .peers => { store with peers := some bytes }
  | .other name => { store with others := store.others.insert name bytes }

/-- Removing what is not there succeeds. -/
def remove (store : KvStore) : StoreFile → KvStore
  | .manager => { store with manager := none }
  | .monitor localKey => { store with monitors := store.monitors.erase localKey }
  | .peers => { store with peers := none }
  | .other name => { store with others := store.others.erase name }

end KvStore

/-- What a start or a restore sends to the server. -/
inductive Sent where
  | manifest (put : ManifestPut)
  | batch (items : List (String × Bytes)) (manifest : Option ManifestPut)
  | manager (bytes : Bytes)

/-- The data directory, and what was sent so far. -/
structure Device where
  store : KvStore
  mnemonic : Option String
  marker : Option Bytes
  fencedFlag : Bool
  sent : List Sent

namespace Device

@[simps] def mapStore (device : Device) (f : KvStore → KvStore) : Device := { device with store := f device.store }

@[simps] def removeMarker (device : Device) : Device := { device with marker := none }

@[simps] def send (device : Device) (sent : Sent) : Device := { device with sent := device.sent ++ [sent] }

end Device

/-- The order in which the file system lists the monitors, and the files of the whole store. -/
structure FileSystem where
  listMonitors : KvStore → List String
  listFiles : KvStore → List StoreFile
  mem_listMonitors : ∀ store name, name ∈ listMonitors store ↔ (store.monitors.lookup name).isSome = true

/-- The signer stack of one seed, its channel-manager reader, and the encoding of a fresh manager. A manager
does not read when a funded channel has no monitor. -/
structure Node extends Stack where
  readManager : Bytes → List String → Option (List String)
  freshManager : Bytes
  funded_monitored : ∀ bytes monitored funded, readManager bytes monitored = some funded →
    ∀ channelId ∈ funded, channelId ∈ monitored

inductive BuildError where
  | writeFailed
  | readFailed
  | invalidMonitorData
  | orphanedMonitors
  | missingChannelMonitor
  | vssRecoveryFailed
  | vssVersionSeedFailed
  | fenced
  | restoreInProgress
  | invalidMnemonic
  | mnemonicExists
deriving DecidableEq

abbrev Start (α : Type) := Prog Device BuildError α

/-! ## Local writes of a plan -/

namespace RestorePlan

/-- The manager first, then the monitors, then the peers. -/
def localWrites (plan : RestorePlan) : List (StoreFile × Bytes) :=
  (plan.cm.map fun cm => (.manager, cm.1)).toList ++
    plan.monitors.map (fun monitor => (.monitor monitor.localKey, monitor.bytes)) ++
    (plan.peers.map fun peers => (.peers, serializeKnownPeers peers.1)).toList

end RestorePlan

/-- Each write in turn, up to the first refusal; what was written is logged. -/
def writePlanLocal {ε : Type} : List (StoreFile × Bytes) → Prog Device ε (Bool × List StoreFile)
  | [] => return (true, [])
  | (entry, bytes) :: rest => do
    match ← Prog.attempt (Prog.change (Device.mapStore · (·.write bytes entry)) ()) with
    | .error () => return (false, [])
    | .ok () =>
      let (complete, log) ← writePlanLocal rest
      return (complete, entry :: log)

theorem writePlanLocal_inv {ε : Type} {inv : Device → Prop} {writes : List (StoreFile × Bytes)}
    (h : ∀ write ∈ writes, ∀ device : Device, inv device → inv (device.mapStore (·.write write.2 write.1))) :
    Prog.Keeps inv (writePlanLocal writes : Prog Device ε _) := by
  induction writes with
  | nil => exact Prog.keeps_pure _
  | cons write rest ih =>
    obtain ⟨file, bytes⟩ := write
    refine Prog.keeps_bind (Prog.keeps_attempt (Prog.keeps_change () (h _ List.mem_cons_self))) ?_
    rintro (_ | _)
    · exact Prog.keeps_pure _
    · exact Prog.keeps_bind (ih fun write hWrite => h write (List.mem_cons_of_mem _ hWrite)) fun _ => Prog.keeps_pure _

/-- The logged writes are removed in the order in which they were made, errors ignored. -/
def rollbackLocalWrites (log : List StoreFile) : Start Unit :=
  Prog.each (fun entry => Prog.tryChange (Device.mapStore · (·.remove entry))) log

def wipeLocalLdkState (fs : FileSystem) : Start Unit := do
  let names ← Prog.read fun device => fs.listMonitors device.store
  Prog.each (fun name => Prog.change (Device.mapStore · (·.remove (.monitor name))) .writeFailed) names
  Prog.change (Device.mapStore · (·.remove .manager)) .writeFailed

/-! ## The startup branches -/

structure StartupState where
  remote : Bool
  versions : StringMap Nat
  monitorKeys : MonitorKeySet
  probeEmpty : Bool
  recovered : Bool

/-- A put that nobody waits on; the process may die before it. -/
def sendPut {ε : Type} (sent : Sent) : Prog Device ε Unit := Prog.send (Device.send · sent)

/-- The post-restore backfill, when monitors were adopted. -/
def sendBackfill {ε : Type} (transport : Transport) (plan : RestorePlan) (adoptedCount : Nat) : Prog Device ε Unit :=
  if 0 < adoptedCount then
    Prog.each (fun put => sendPut (.manifest put))
      (backfillManifest transport plan.publishableMonitorKeys (plan.manifestVersion.getD 0))
  else return

def silentRecovery (node : Node) (transport : Transport) (listing : List (String × Nat)) : Start StartupState :=
  match preparePlan transport node.toStack listing with
  | .error _ => Prog.fail .vssRecoveryFailed
  | .ok (plan, adoptedCount) => do
    let (complete, log) ← writePlanLocal plan.localWrites
    if !complete then
      rollbackLocalWrites log
      Prog.fail .vssRecoveryFailed
    else
      sendBackfill transport plan adoptedCount
      return {
        remote := true
        versions := plan.versions
        monitorKeys := .fromParts (ascending plan.monitorKeys) (· ∈ plan.publishableMonitorKeys)
        probeEmpty := false
        recovered := true }

/-- A monitor file under its name: it must deserialize to a monitor of that name. -/
def loadMonitor (stack : Stack) (file : String × Bytes) : Option (String × DeserializedMonitor × Bytes) :=
  (stack.deserializeMonitor file.2).bind fun monitor =>
    if monitor.localKey = file.1 then some (file.1, monitor, file.2) else none

def readChannelMonitors (node : Node) (store : KvStore) : Option (List (String × DeserializedMonitor × Bytes)) :=
  store.monitors.toPairs.mapM (loadMonitor node.toStack)

theorem mapM_total {α β : Type} {f : α → Option β} {items : List α} (h : ∀ item ∈ items, (f item).isSome = true) :
    ∃ results, items.mapM f = some results := by
  induction items with
  | nil => exact ⟨[], rfl⟩
  | cons item rest ih =>
    obtain ⟨result, hResult⟩ := Option.isSome_iff_exists.mp (h item List.mem_cons_self)
    obtain ⟨others, hOthers⟩ := ih fun item hItem => h item (List.mem_cons_of_mem _ hItem)
    refine ⟨result :: others, ?_⟩
    rw [List.mapM_cons, hResult, hOthers]
    rfl

theorem mem_mapM {α β : Type} {f : α → Option β} {items : List α} {results : List β}
    (h : items.mapM f = some results) (result : β) : result ∈ results ↔ ∃ item ∈ items, f item = some result := by
  induction items generalizing results with
  | nil =>
    cases h
    simp
  | cons item rest ih =>
    rw [List.mapM_cons] at h
    obtain ⟨first, hFirst, h⟩ := Option.bind_eq_some_iff.mp h
    obtain ⟨others, hOthers, h⟩ := Option.bind_eq_some_iff.mp h
    cases h
    rw [List.mem_cons, ih hOthers, List.exists_mem_cons_iff, hFirst, Option.some.injEq, eq_comm]

theorem mem_readChannelMonitors {node : Node} {store : KvStore}
    {files : List (String × DeserializedMonitor × Bytes)} (h : readChannelMonitors node store = some files)
    (name : String) (monitor : DeserializedMonitor) (bytes : Bytes) :
    (name, monitor, bytes) ∈ files ↔ store.monitors.lookup name = some bytes ∧
      node.deserializeMonitor bytes = some monitor ∧ monitor.localKey = name := by
  rw [mem_mapM h, ← StringMap.mem_toPairs]
  constructor
  · rintro ⟨⟨name', bytes'⟩, hFile, hLoad⟩
    obtain ⟨monitor', hMonitor, hLoad⟩ := Option.bind_eq_some_iff.mp hLoad
    split at hLoad
    · rename_i hName
      cases hLoad
      exact ⟨hFile, hMonitor, hName⟩
    · cases hLoad
  · rintro ⟨hFile, hMonitor, hName⟩
    refine ⟨(name, bytes), hFile, ?_⟩
    rw [loadMonitor, hMonitor, Option.bind_some, if_pos hName]

theorem readChannelMonitors_total {node : Node} {store : KvStore}
    (h : ∀ name bytes, store.monitors.lookup name = some bytes →
      ∃ monitor, node.deserializeMonitor bytes = some monitor ∧ monitor.localKey = name) :
    ∃ files, readChannelMonitors node store = some files := by
  refine mapM_total ?_
  rintro ⟨name, bytes⟩ hFile
  obtain ⟨monitor, hMonitor, hName⟩ := h name bytes ((StringMap.mem_toPairs ..).mp hFile)
  rw [loadMonitor, hMonitor, Option.bind_some, if_pos hName]
  rfl

/-- Branch 2: everything local goes to the empty namespace in one batch. -/
def migrate (transport : Transport) (store : KvStore) (entries : List (String × Bytes)) : Start StartupState := do
  let monitorKeys := (entries.map Prod.fst).toFinset
  let manifest := if monitorKeys = ∅ then none else some (ManifestPut.of monitorKeys 0)
  let peers := ((store.peers.bind parseKnownPeers).getD ∅)
  let items := (store.manager.map (channelManagerVssKey, ·)).toList ++ entries ++
    (manifest.map fun put => (monitorManifestKey, put.payload)).toList ++
    (if peers = ∅ then [] else [(knownPeersVssKey, serializeKnownPeers peers)])
  sendPut (.batch items manifest)
  match transport.putMany with
  | .ok () => return {
      remote := true
      versions := .ofPairs (items.map fun item => (item.1, 1))
      monitorKeys := .fromParts (ascending monitorKeys) fun _ => true
      probeEmpty := true
      recovered := false }
  | .error _ => return {
      remote := false
      versions := ∅
      monitorKeys := .fromParts (ascending monitorKeys) fun _ => false
      probeEmpty := true
      recovered := false }

/-- Branch 3: versions from the listing; a local monitor found in it is publishable. -/
def seedVersions (transport : Transport) (listing : List (String × Nat)) (entries : List (String × Bytes)) :
    StartupState :=
  let monitorKeys := (entries.map Prod.fst).toFinset
  let byObfuscated : StringMap Nat := .ofPairs listing
  let versions : StringMap Nat := .ofPairs ((fixedRemoteKeys ++ ascending monitorKeys).filterMap fun key =>
    (byObfuscated.lookup (transport.obfuscate key)).map (key, ·))
  { remote := true
    versions := versions
    monitorKeys := .fromParts (ascending monitorKeys) fun key => (versions.lookup key).isSome
    probeEmpty := false
    recovered := false }

def establishVssState (fs : FileSystem) (node : Node) (transport : Transport) : Start StartupState := do
  let device ← Prog.read id
  let restoreMarker := device.marker.isSome
  let localEmpty := device.store.manager.isNone && (fs.listMonitors device.store).isEmpty
  let treatLocalAsVoid := restoreMarker || localEmpty
  match transport.listKeyVersions with
  | .error _ => Prog.fail (if treatLocalAsVoid then .vssRecoveryFailed else .vssVersionSeedFailed)
  | .ok listing =>
    if treatLocalAsVoid then
      (wipeLocalLdkState fs).when restoreMarker
      if listing.isEmpty then
        (Prog.tryChange Device.removeMarker).when restoreMarker
        return ⟨true, ∅, ∅, true, false⟩
      else
        let state ← silentRecovery node transport listing
        (Prog.tryChange Device.removeMarker).when restoreMarker
        return state
    else
      match readChannelMonitors node device.store with
      | none => Prog.fail .invalidMonitorData
      | some monitors =>
        let entries := monitors.map fun file => (file.2.1.derivedVssKey, file.2.2)
        if listing.isEmpty then migrate transport device.store entries
        else return seedVersions transport listing entries

/-! ## What the branches of a start keep -/

section Invariants

variable {fs : FileSystem} {node : Node} {transport : Transport} {listing : List (String × Nat)} {inv : Device → Prop}

theorem wipeLocalLdkState_inv (hRemove : ∀ disk file, inv disk → inv (disk.mapStore (·.remove file))) :
    Prog.Keeps inv (wipeLocalLdkState fs) := by
  refine Prog.keeps_bind (Prog.keeps_read _) fun names => Prog.keeps_bind ?_ fun _ => ?_
  · exact Prog.keeps_each fun name _ => Prog.keeps_change _ fun disk => hRemove disk _
  · exact Prog.keeps_change _ fun disk => hRemove disk _

theorem sendBackfill_inv {ε : Type} (h : ∀ disk put, inv disk → inv (disk.send (.manifest put)))
    (plan : RestorePlan) (adoptedCount : Nat) :
    Prog.Keeps inv (sendBackfill transport plan adoptedCount : Prog Device ε Unit) := by
  rw [sendBackfill]
  split
  · exact Prog.keeps_each fun put _ => Prog.keeps_send fun disk => h disk put
  · exact Prog.keeps_pure ()

theorem silentRecovery_inv (hRemove : ∀ disk file, inv disk → inv (disk.mapStore (·.remove file)))
    (hPlan : ∀ plan adoptedCount, preparePlan transport node.toStack listing = .ok (plan, adoptedCount) →
      (∀ write ∈ plan.localWrites, ∀ disk : Device, inv disk → inv (disk.mapStore (·.write write.2 write.1))) ∧
        Prog.Keeps inv (sendBackfill transport plan adoptedCount : Start Unit)) :
    Prog.Keeps inv (silentRecovery node transport listing) := by
  rw [silentRecovery]
  split
  · exact Prog.keeps_fail _
  · next plan adoptedCount hPrepared =>
    obtain ⟨hWrites, hSend⟩ := hPlan plan adoptedCount hPrepared
    refine Prog.keeps_bind (writePlanLocal_inv hWrites) ?_
    rintro ⟨complete, log⟩
    dsimp only
    split
    · refine Prog.keeps_bind (Prog.keeps_each fun file _ => ?_) fun _ => Prog.keeps_fail _
      exact Prog.keeps_tryChange fun disk => hRemove disk file
    · exact Prog.keeps_bind hSend fun _ => Prog.keeps_pure _

theorem establishVssState_inv (hWipe : Prog.Keeps inv (wipeLocalLdkState fs))
    (hMarker : ∀ disk, inv disk → inv disk.removeMarker)
    (hRecovery : ∀ listing, Prog.Keeps inv (silentRecovery node transport listing))
    (hMigrate : ∀ store (files : List (String × DeserializedMonitor × Bytes)), Prog.Keeps inv (migrate transport store
      (files.map fun file => (file.2.1.derivedVssKey, file.2.2)))) :
    Prog.Keeps inv (establishVssState fs node transport) := by
  have hRemove : Prog.Keeps inv (Prog.tryChange Device.removeMarker : Start Unit) := Prog.keeps_tryChange hMarker
  refine Prog.keeps_bind (Prog.keeps_read _) fun found => ?_
  dsimp only
  split
  · exact Prog.keeps_fail _
  · split
    · refine Prog.keeps_bind (Prog.keeps_when _ hWipe) fun _ => ?_
      split
      · exact Prog.keeps_bind (Prog.keeps_when _ hRemove) fun _ => Prog.keeps_pure _
      · refine Prog.keeps_bind (hRecovery _) fun _ => ?_
        exact Prog.keeps_bind (Prog.keeps_when _ hRemove) fun _ => Prog.keeps_pure _
    · split
      · exact Prog.keeps_fail _
      · split
        · exact hMigrate _ _
        · exact Prog.keeps_pure _

theorem migrate_inv (hSend : ∀ disk sent, (∀ bytes, sent ≠ .manager bytes) → inv disk → inv (disk.send sent))
    (store : KvStore) (entries : List (String × Bytes)) : Prog.Keeps inv (migrate transport store entries) := by
  refine Prog.keeps_bind (Prog.keeps_send fun disk => hSend disk _ (by simp)) fun _ => ?_
  split <;> exact Prog.keeps_pure _

end Invariants

/-! ## What the branches of a start return -/

section Returned

variable {fs : FileSystem} {node : Node} {transport : Transport} {post : StartupState → Device → Prop}

theorem silentRecovery_returns {listing : List (String × Nat)}
    (hPlan : ∀ plan adoptedCount, preparePlan transport node.toStack listing = .ok (plan, adoptedCount) → ∀ device, post
      ⟨true, plan.versions, .fromParts (ascending plan.monitorKeys) (· ∈ plan.publishableMonitorKeys), false, true⟩ device)
    (device : Device) :
    (silentRecovery node transport listing).wp (fun _ => True) (fun _ _ => True) post device := by
  rw [silentRecovery]
  split
  · exact Prog.wp_fail trivial
  · next plan adoptedCount hPrepared =>
    refine Prog.wp_bind (Prog.wp_post (Prog.wp_true _ _) ?_)
    rintro ⟨complete, log⟩ device -
    dsimp only
    split
    · exact Prog.wp_bind (Prog.wp_post (Prog.wp_true _ _) fun _ _ _ => Prog.wp_fail trivial)
    · refine Prog.wp_bind (Prog.wp_post (Prog.wp_true _ _) ?_)
      rintro - device -
      exact Prog.wp_pure (hPlan plan adoptedCount hPrepared device)

/-- The marker is removed behind a recovery, so what is returned must not depend on it. -/
theorem establishVssState_returns (hMarker : ∀ state device, post state device → post state device.removeMarker)
    (hEmpty : ∀ listing, transport.listKeyVersions = .ok listing → listing.isEmpty = true →
      (∀ device, post ⟨true, ∅, ∅, true, false⟩ device) ∧
        ∀ store (files : List (String × DeserializedMonitor × Bytes)) device,
          (migrate transport store (files.map fun file => (file.2.1.derivedVssKey, file.2.2))).wp (fun _ => True)
            (fun _ _ => True) post device)
    (hListing : ∀ listing, transport.listKeyVersions = .ok listing →
      (∀ device, (silentRecovery node transport listing).wp (fun _ => True) (fun _ _ => True) post device) ∧
        ∀ (files : List (String × DeserializedMonitor × Bytes)) device,
          post (seedVersions transport listing (files.map fun file => (file.2.1.derivedVssKey, file.2.2))) device)
    (device : Device) :
    (establishVssState fs node transport).wp (fun _ => True) (fun _ _ => True) post device := by
  refine Prog.wp_bind (Prog.wp_read ?_)
  dsimp only [id]
  split
  · exact Prog.wp_fail trivial
  · next listing hListed =>
    obtain ⟨hRecovery, hSeed⟩ := hListing listing hListed
    split
    · refine Prog.wp_bind (Prog.wp_post (Prog.wp_true _ _) ?_)
      rintro - device -
      split
      · next hNone =>
        refine Prog.wp_bind (Prog.wp_post (Prog.wp_true _ _) ?_)
        rintro - device -
        exact Prog.wp_pure ((hEmpty listing hListed hNone).1 device)
      · refine Prog.wp_bind (Prog.wp_post (hRecovery device) ?_)
        intro state device hState
        refine Prog.wp_bind (Prog.wp_when ?_ fun _ => Prog.wp_pure hState)
        intro _
        exact Prog.wp_tryChange trivial (Prog.wp_pure hState) (Prog.wp_pure (hMarker state device hState))
    · split
      · exact Prog.wp_fail trivial
      · split
        · next hNone => exact (hEmpty listing hListed hNone).2 _ _ _
        · exact Prog.wp_pure (hSeed _ _)

end Returned

/-! ## The load of the channel manager -/

/-- What the node boots on: a manager with its funded channels, or a fresh one. -/
inductive Booted where
  | restored (manager : Bytes) (funded : List String)
  | fresh
deriving DecidableEq

/-- The remote write is bounded and never blocks the local one. -/
def makeFreshManager (node : Node) (remote : Bool) : Start Booted := do
  (sendPut (.manager node.freshManager)).when remote
  Prog.change (Device.mapStore · (·.write node.freshManager .manager)) .writeFailed
  return .fresh

def checkChannelMonitorCoverage (funded monitored : List String) : Bool := funded.all (· ∈ monitored)

/-- A manager that does not read is discarded when there are no monitors, and fatal otherwise. -/
def loadChannelManager (node : Node) (remote : Bool) : Start Booted := do
  let device ← Prog.read id
  match readChannelMonitors node device.store with
  | none => Prog.fail .invalidMonitorData
  | some monitors =>
    let monitored := monitors.map (·.2.1.channelId)
    match device.store.manager with
    | none => if monitors.isEmpty then makeFreshManager node remote else Prog.fail .orphanedMonitors
    | some bytes =>
      match node.readManager bytes monitored with
      | some funded =>
        if checkChannelMonitorCoverage funded monitored then return .restored bytes funded
        else Prog.fail .missingChannelMonitor
      | none =>
        if monitors.isEmpty then
          Prog.tryChange (Device.mapStore · (·.remove .manager))
          makeFreshManager node remote
        else Prog.fail .readFailed

/-- The part of a start that decides which channel state the node runs on. -/
def bootChannels (fs : FileSystem) (node : Node) (transport : Transport) : Start Booted := do
  let state ← establishVssState fs node transport
  loadChannelManager node state.remote

end WalletCore.Restore
