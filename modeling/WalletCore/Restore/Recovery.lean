import WalletCore.Restore.Provenance

/-! # Starts over a backup

A start over an existing backup must never end with a fresh channel manager. With a restore marker every
crash is harmless, because the next start voids the local state and recovers again. Without one, a recovery
that is cut off after the manager and before the last monitor leaves a state that the next start takes for
its own.
-/

namespace WalletCore.Restore

open Lib Vss

/-! ## The channel state on disk -/

def monitored (files : List (String × DeserializedMonitor × Bytes)) : List String := files.map (·.2.1.channelId)

namespace KvStore

def writeAll (store : KvStore) (writes : List (StoreFile × Bytes)) : KvStore :=
  writes.foldl (fun store write => store.write write.2 write.1) store

def removeAll (store : KvStore) (files : List StoreFile) : KvStore := files.foldl remove store

structure SameLdk (store store' : KvStore) : Prop where
  manager : store.manager = store'.manager
  monitors : store.monitors = store'.monitors

def Vacant (store : KvStore) : Prop := store.SameLdk .empty

/-- The manager reads with the monitors on disk. -/
def Whole (node : Node) (store : KvStore) : Prop :=
  ∃ manager files funded, store.manager = some manager ∧ readChannelMonitors node store = some files ∧
    node.readManager manager (monitored files) = some funded

theorem SameLdk.whole {node : Node} {store store' : KvStore} (h : store.SameLdk store') (hWhole : store'.Whole node) :
    store.Whole node := by
  obtain ⟨manager, files, funded, hManager, hFiles, hRead⟩ := hWhole
  refine ⟨manager, files, funded, h.manager.trans hManager, ?_, hRead⟩
  rw [readChannelMonitors, h.monitors]
  exact hFiles

theorem SameLdk.write {store store' : KvStore} (h : store.SameLdk store') (file : StoreFile) (bytes : Bytes) :
    (store.write bytes file).SameLdk (store'.write bytes file) := by
  cases file with
  | manager => exact ⟨rfl, h.monitors⟩
  | monitor localKey =>
    refine ⟨h.manager, ?_⟩
    simp only [KvStore.write, h.monitors]
  | peers => exact ⟨h.manager, h.monitors⟩
  | other name => exact ⟨h.manager, h.monitors⟩

theorem SameLdk.writeAll {store store' : KvStore} (h : store.SameLdk store') (writes : List (StoreFile × Bytes)) :
    (store.writeAll writes).SameLdk (store'.writeAll writes) := by
  induction writes generalizing store store' with
  | nil => exact h
  | cons write rest ih => exact ih (h.write write.1 write.2)

theorem vacant_iff (fs : FileSystem) (store : KvStore) :
    store.Vacant ↔ (store.manager.isNone && (fs.listMonitors store).isEmpty) = true := by
  rw [Bool.and_eq_true, Option.isNone_iff_eq_none, List.isEmpty_iff]
  constructor
  · rintro ⟨hManager, hMonitors⟩
    refine ⟨hManager, List.eq_nil_iff_forall_not_mem.mpr ?_⟩
    intro name hName
    rw [fs.mem_listMonitors, hMonitors] at hName
    cases hName
  · rintro ⟨hManager, hNone⟩
    refine ⟨hManager, Finmap.ext_lookup ?_⟩
    intro name
    cases hLookup : store.monitors.lookup name with
    | none => rfl
    | some bytes =>
      have hName := (fs.mem_listMonitors store name).mpr (by rw [hLookup]; rfl)
      rw [hNone] at hName
      cases hName

theorem removeAll_lookup (store : KvStore) (files : List StoreFile) :
    (store.removeAll files).manager = (if .manager ∈ files then none else store.manager) ∧
      ∀ name, (store.removeAll files).monitors.lookup name =
        if .monitor name ∈ files then none else store.monitors.lookup name := by
  induction files generalizing store with
  | nil => simp [removeAll]
  | cons file rest ih =>
    obtain ⟨hManager, hMonitors⟩ := ih (store.remove file)
    refine ⟨hManager.trans ?_, fun name => (hMonitors name).trans ?_⟩
    · cases file <;> simp [remove]
    · cases file <;> simp [remove, StringMap.lookup_erase_eq]
      grind

theorem writeAll_other (store : KvStore) (writes : List (StoreFile × Bytes)) :
    (.manager ∉ writes.map Prod.fst → (store.writeAll writes).manager = store.manager) ∧
      ∀ name, .monitor name ∉ writes.map Prod.fst →
        (store.writeAll writes).monitors.lookup name = store.monitors.lookup name := by
  induction writes generalizing store with
  | nil => exact ⟨fun _ => rfl, fun _ _ => rfl⟩
  | cons write rest ih =>
    obtain ⟨file, bytes⟩ := write
    obtain ⟨hManager, hMonitors⟩ := ih (store.write bytes file)
    simp only [List.map_cons, List.mem_cons, not_or]
    refine ⟨?_, ?_⟩
    · rintro ⟨hFile, hRest⟩
      refine (hManager hRest).trans ?_
      cases file with
      | manager => exact absurd rfl hFile
      | monitor | peers | other => rfl
    · rintro name ⟨hFile, hRest⟩
      refine (hMonitors name hRest).trans ?_
      cases file with
      | monitor localKey =>
        have hName : name ≠ localKey := fun hSame => hFile (congrArg _ hSame)
        exact (StringMap.lookup_insert_eq ..).trans (if_neg hName)
      | manager | peers | other => rfl

theorem Vacant.rolledBack {store : KvStore} (h : store.Vacant) (writes : List (StoreFile × Bytes)) :
    ((store.writeAll writes).removeAll (writes.map Prod.fst)).Vacant := by
  obtain ⟨hManager, hMonitors⟩ := removeAll_lookup (store.writeAll writes) (writes.map Prod.fst)
  obtain ⟨hManager', hMonitors'⟩ := store.writeAll_other writes
  refine ⟨hManager.trans ?_, Finmap.ext_lookup fun name => (hMonitors name).trans ?_⟩
  · split
    · rfl
    · rename_i hNot
      exact (hManager' hNot).trans h.manager
  · split
    · rfl
    · rename_i hNot
      rw [hMonitors' name hNot, h.monitors]

theorem sameLdk_writeAll_peers {writes : List (StoreFile × Bytes)} (h : ∀ write ∈ writes, write.1 = .peers)
    (store : KvStore) : store.SameLdk (store.writeAll writes) := by
  induction writes generalizing store with
  | nil => exact ⟨rfl, rfl⟩
  | cons write rest ih =>
    have hRest := ih (fun write hWrite => h write (List.mem_cons_of_mem _ hWrite)) (store.write write.2 write.1)
    rw [h write List.mem_cons_self] at hRest
    refine ⟨?_, ?_⟩
    · rw [writeAll, List.foldl_cons, h write List.mem_cons_self]
      exact hRest.manager
    · rw [writeAll, List.foldl_cons, h write List.mem_cons_self]
      exact hRest.monitors

theorem sameLdk_writeAll_take (plan : RestorePlan) {written : Nat} (h : plan.monitors.length < written)
    (store : KvStore) : (store.writeAll (plan.localWrites.take written)).SameLdk (store.writeAll plan.localWrites) := by
  have hPeers : ∀ write ∈ plan.localWrites.drop written, write.1 = .peers := by
    intro write hWrite
    have hManager : (plan.cm.map fun cm : Bytes × Nat => (StoreFile.manager, cm.1)).toList.length ≤ 1 :=
      Option.length_toList_le
    rw [RestorePlan.localWrites, List.drop_append, List.drop_eq_nil_of_le, List.nil_append] at hWrite
    · have hMem := List.mem_of_mem_drop hWrite
      rw [Option.mem_toList, Option.map_eq_some_iff] at hMem
      obtain ⟨peers, -, rfl⟩ := hMem
      rfl
    · rw [List.length_append, List.length_map]
      omega
  have hSplit : store.writeAll plan.localWrites =
      (store.writeAll (plan.localWrites.take written)).writeAll (plan.localWrites.drop written) := by
    rw [writeAll, writeAll, writeAll, ← List.foldl_append, List.take_append_drop]
  rw [hSplit]
  exact sameLdk_writeAll_peers hPeers _

end KvStore

/-- The backup restores: its plan validates, and its manager reads with the plan's monitors. -/
def Recoverable (node : Node) (transport : Transport) : Prop :=
  ∃ listing plan adoptedCount, transport.listKeyVersions = .ok listing ∧ listing ≠ [] ∧
    preparePlan transport node.toStack listing = .ok (plan, adoptedCount) ∧
    (KvStore.empty.writeAll plan.localWrites).Whole node

/-- The channel state is the one that the server's backup holds. -/
def KvStore.OfBackup (node : Node) (transport : Transport) (store : KvStore) : Prop :=
  ∃ listing plan adoptedCount, transport.listKeyVersions = .ok listing ∧
    preparePlan transport node.toStack listing = .ok (plan, adoptedCount) ∧
    store.SameLdk (KvStore.empty.writeAll plan.localWrites)

theorem Recoverable.whole {node : Node} {transport : Transport} {store : KvStore} (h : Recoverable node transport)
    (hStore : store.OfBackup node transport) : store.Whole node := by
  obtain ⟨listing, plan, adoptedCount, hListing, -, hPlan, hWhole⟩ := h
  obtain ⟨listing', plan', adoptedCount', hListing', hPlan', hSame⟩ := hStore
  cases hListing.symm.trans hListing'
  cases hPlan.symm.trans hPlan'
  exact hSame.whole hWhole

/-! ## The writes of a plan, run with given fates -/

section Writes

variable {ε : Type}

theorem writePlanLocal_cases (writes : List (StoreFile × Bytes)) (device : Device) (fates : List Fate) :
    (∃ rest, (fates = [] → rest = []) ∧ (writePlanLocal writes : Prog Device ε _) device fates =
      .ok (true, writes.map Prod.fst) (device.mapStore (·.writeAll writes)) rest) ∨
    (∃ written rest, written < writes.length ∧ fates = .replicate written .made ++ .refused :: rest ∧
      (writePlanLocal writes : Prog Device ε _) device fates =
        .ok (false, (writes.take written).map Prod.fst) (device.mapStore (·.writeAll (writes.take written))) rest) ∨
    ∃ written rest, written < writes.length ∧ fates = .replicate written .made ++ .dies :: rest ∧
      (writePlanLocal writes : Prog Device ε _) device fates =
        .crashed (device.mapStore (·.writeAll (writes.take written))) := by
  induction writes generalizing device fates with
  | nil => exact .inl ⟨fates, id, rfl⟩
  | cons write rest ih =>
    obtain ⟨file, bytes⟩ := write
    obtain hMade | ⟨fates', rfl⟩ | ⟨fates', rfl⟩ : (∃ fates', (fates = [] ∧ fates' = [] ∨ fates = .made :: fates') ∧
        (writePlanLocal ((file, bytes) :: rest) : Prog Device ε _) device fates =
          (do let result ← writePlanLocal rest; return (result.1, file :: result.2) : Prog Device ε _)
            (device.mapStore (·.write bytes file)) fates') ∨
        (∃ fates', fates = .refused :: fates') ∨ ∃ fates', fates = .dies :: fates' := by
      rcases fates with _ | ⟨_ | _ | _, fates'⟩
      · exact .inl ⟨[], .inl ⟨rfl, rfl⟩, rfl⟩
      · exact .inl ⟨fates', .inr rfl, rfl⟩
      · exact .inr (.inl ⟨fates', rfl⟩)
      · exact .inr (.inr ⟨fates', rfl⟩)
    · obtain ⟨fates', hFates, hRun⟩ := hMade
      have hNext : ∀ {complete log disk more}, (writePlanLocal rest : Prog Device ε _)
          (device.mapStore (·.write bytes file)) fates' = .ok (complete, log) disk more →
          (writePlanLocal ((file, bytes) :: rest) : Prog Device ε _) device fates =
            .ok (complete, file :: log) disk more := by
        intro complete log disk more hRest
        rw [hRun, Prog.bind_ok hRest]
        rfl
      have hCount : ∀ {written fate more}, fates' = List.replicate written .made ++ fate :: more →
          fates = List.replicate (written + 1) .made ++ fate :: more := by
        intro written fate more hMore
        obtain ⟨-, hNil⟩ | hCons := hFates
        · rw [hNil] at hMore
          simp at hMore
        · rw [hCons, hMore]
          rfl
      obtain ⟨more, hMore, hRest⟩ | ⟨written, more, hLess, hMore, hRest⟩ | ⟨written, more, hLess, hMore, hRest⟩ :=
        ih (device.mapStore (·.write bytes file)) fates'
      · refine .inl ⟨more, ?_, hNext hRest⟩
        intro hNil
        obtain ⟨-, hNil'⟩ | hCons := hFates
        · exact hMore hNil'
        · cases hNil.symm.trans hCons
      · exact .inr (.inl ⟨written + 1, more, Nat.succ_lt_succ hLess, hCount hMore, hNext hRest⟩)
      · refine .inr (.inr ⟨written + 1, more, Nat.succ_lt_succ hLess, hCount hMore, ?_⟩)
        rw [hRun, Prog.bind_crashed hRest]
        rfl
    · exact .inr (.inl ⟨0, fates', Nat.succ_pos _, rfl, rfl⟩)
    · exact .inr (.inr ⟨0, fates', Nat.succ_pos _, rfl, rfl⟩)

theorem rollbackLocalWrites_made {log : List StoreFile} (fates : List Fate)
    (h : ∀ fate ∈ fates.take log.length, fate = .made) (device : Device) :
    ∃ rest, rollbackLocalWrites log device fates = .ok () (device.mapStore (·.removeAll log)) rest := by
  induction log generalizing device fates with
  | nil => exact ⟨fates, rfl⟩
  | cons file rest ih =>
    rcases fates with _ | ⟨fate, fates⟩
    · obtain ⟨more, hRest⟩ := ih [] (by simp) (device.mapStore (·.remove file))
      exact ⟨more, hRest⟩
    · cases h fate List.mem_cons_self
      obtain ⟨more, hRest⟩ := ih fates (fun fate hFate => h fate (List.mem_cons_of_mem _ hFate))
        (device.mapStore (·.remove file))
      exact ⟨more, hRest⟩

end Writes

/-! ## What every start leaves alone -/

/-- Nothing was sent in place of the remote manager; the local one is the old one, the server's, or gone; the
marker is the old one or gone; the words and the fenced flag are the old ones. -/
structure Device.Kept (transport : Transport) (device disk : Device) : Prop where
  sent : ∀ bytes, .manager bytes ∈ disk.sent → .manager bytes ∈ device.sent
  manager : disk.store.manager = none ∨ disk.store.manager = device.store.manager ∨
    ∃ bytes version, transport.get channelManagerVssKey = .ok (some (bytes, version)) ∧
      disk.store.manager = some bytes
  marker : disk.marker = device.marker ∨ disk.marker = none
  mnemonic : disk.mnemonic = device.mnemonic
  fencedFlag : disk.fencedFlag = device.fencedFlag

section Frames

variable {fs : FileSystem} {node : Node} {transport : Transport} {device : Device}

theorem Device.Kept.refl : device.Kept transport device := ⟨fun _ => id, .inr (.inl rfl), .inl rfl, rfl, rfl⟩

theorem Device.Kept.remove {disk : Device} (h : device.Kept transport disk) (file : StoreFile) :
    device.Kept transport (disk.mapStore (·.remove file)) := by
  refine ⟨h.sent, ?_, h.marker, h.mnemonic, h.fencedFlag⟩
  cases file with
  | manager => exact .inl rfl
  | monitor | peers | other => exact h.manager

theorem Device.Kept.write {disk : Device} (h : device.Kept transport disk) {file : StoreFile} {bytes : Bytes}
    (hBytes : file = .manager → ∃ version, transport.get channelManagerVssKey = .ok (some (bytes, version))) :
    device.Kept transport (disk.mapStore (·.write bytes file)) := by
  refine ⟨h.sent, ?_, h.marker, h.mnemonic, h.fencedFlag⟩
  cases file with
  | manager =>
    obtain ⟨version, hGet⟩ := hBytes rfl
    exact .inr (.inr ⟨bytes, version, hGet, rfl⟩)
  | monitor | peers | other => exact h.manager

theorem Device.Kept.send {disk : Device} (h : device.Kept transport disk) {sent : Sent}
    (hSent : ∀ bytes, sent ≠ .manager bytes) : device.Kept transport (disk.send sent) := by
  refine ⟨?_, h.manager, h.marker, h.mnemonic, h.fencedFlag⟩
  intro bytes hBytes
  rw [Device.send_sent, List.mem_append, List.mem_singleton] at hBytes
  obtain hOld | hNew := hBytes
  · exact h.sent bytes hOld
  · exact absurd hNew.symm (hSent bytes)

theorem mem_localWrites_manager {plan : RestorePlan} {bytes : Bytes} (h : (.manager, bytes) ∈ plan.localWrites) :
    ∃ version, plan.cm = some (bytes, version) := by
  rw [RestorePlan.localWrites, List.mem_append, List.mem_append] at h
  obtain (hManager | hMonitor) | hPeers := h
  · rw [Option.mem_toList, Option.map_eq_some_iff] at hManager
    obtain ⟨⟨bytes', version⟩, hCm, hSame⟩ := hManager
    cases hSame
    exact ⟨version, hCm⟩
  · obtain ⟨monitor, -, hSame⟩ := List.mem_map.mp hMonitor
    cases hSame
  · rw [Option.mem_toList, Option.map_eq_some_iff] at hPeers
    obtain ⟨peers, -, hSame⟩ := hPeers
    cases hSame

theorem silentRecovery_kept (listing : List (String × Nat)) :
    Prog.Keeps (device.Kept transport) (silentRecovery node transport listing) := by
  refine silentRecovery_inv (fun _ file hKept => hKept.remove file) ?_
  intro plan adoptedCount hPlan
  constructor
  · rintro ⟨file, bytes⟩ hWrite disk hKept
    refine hKept.write ?_
    rintro rfl
    obtain ⟨version, hCm⟩ := mem_localWrites_manager hWrite
    exact ⟨version, preparePlan_cm hPlan hCm⟩
  · exact sendBackfill_inv (fun _ _ hKept => hKept.send (by simp)) plan adoptedCount

variable (fs node transport device) in
/-- No branch of a start replaces a manager by a fresh one. -/
theorem establishVssState_kept : Prog.Keeps (device.Kept transport) (establishVssState fs node transport) := by
  apply establishVssState_inv
  · exact wipeLocalLdkState_inv fun _ file hKept => hKept.remove file
  · exact fun _ hKept => ⟨hKept.sent, hKept.manager, .inr rfl, hKept.mnemonic, hKept.fencedFlag⟩
  · exact silentRecovery_kept
  · exact fun store files => migrate_inv (fun _ _ hSent hKept => hKept.send hSent) store _

end Frames

/-! ## Recovery from a vacant state -/

section Recoveries

variable {fs : FileSystem} {node : Node} {transport : Transport} {device : Device}

theorem removeEach_wp {γ : Type} (file : γ → StoreFile) (items : List γ) (device : Device) :
    (Prog.each (fun item => Prog.change (Device.mapStore · (·.remove (file item))) .writeFailed) items : Start Unit).wp
      (fun _ => True) (fun _ _ => True) (fun _ disk => disk = device.mapStore (·.removeAll (items.map file))) device := by
  induction items generalizing device with
  | nil => exact Prog.wp_pure rfl
  | cons item rest ih => exact Prog.wp_bind (Prog.wp_change trivial trivial (ih _))

theorem removeEach_clean {γ : Type} (file : γ → StoreFile) (items : List γ) (device : Device) :
    (Prog.each (fun item => Prog.change (Device.mapStore · (·.remove (file item))) .writeFailed) items :
      Start Unit).Clean (fun _ disk => disk = device.mapStore (·.removeAll (items.map file))) device := by
  induction items generalizing device with
  | nil => exact Prog.clean_pure rfl
  | cons item rest ih => exact Prog.clean_bind (Prog.clean_change (ih _))

theorem vacant_wiped (store : KvStore) :
    ((store.removeAll ((fs.listMonitors store).map .monitor)).remove .manager).Vacant := by
  refine ⟨rfl, Finmap.ext_lookup fun name => ?_⟩
  obtain ⟨-, hMonitors⟩ := KvStore.removeAll_lookup store ((fs.listMonitors store).map .monitor)
  refine (hMonitors name).trans ?_
  split
  · rfl
  · rename_i hNot
    cases hLookup : store.monitors.lookup name with
    | none => rfl
    | some bytes =>
      refine absurd (List.mem_map.mpr ⟨name, ?_, rfl⟩) hNot
      rw [fs.mem_listMonitors, hLookup]
      rfl

theorem wipeLocalLdkState_vacant (device : Device) :
    (wipeLocalLdkState fs).wp (fun _ => True) (fun _ _ => True) (fun _ disk => disk.store.Vacant) device := by
  refine Prog.wp_bind (Prog.wp_read (Prog.wp_bind (Prog.wp_post (removeEach_wp _ _ _) ?_)))
  rintro - disk rfl
  exact Prog.wp_change trivial trivial (vacant_wiped _)

theorem wipeLocalLdkState_clean (device : Device) :
    (wipeLocalLdkState fs).Clean (fun _ disk => disk.store.Vacant) device := by
  refine Prog.clean_bind (Prog.clean_read (Prog.clean_bind (Prog.clean_post (removeEach_clean _ _ _) ?_)))
  rintro - disk rfl
  exact Prog.clean_change (vacant_wiped _)

theorem writePlanLocal_complete {ε : Type} (writes : List (StoreFile × Bytes)) (device : Device) :
    (writePlanLocal writes : Prog Device ε _).wp (fun _ => True) (fun _ _ => True)
      (fun result disk => result.1 = true → disk = device.mapStore (·.writeAll writes)) device := by
  intro fates
  obtain ⟨rest, -, hRun⟩ | ⟨written, rest, -, -, hRun⟩ | ⟨written, rest, -, -, hRun⟩ :=
    writePlanLocal_cases writes device fates
  · rw [hRun]
    exact fun _ => rfl
  · rw [hRun]
    intro hComplete
    cases hComplete
  · rw [hRun]
    trivial

theorem writePlanLocal_clean {ε : Type} (writes : List (StoreFile × Bytes)) (device : Device) :
    (writePlanLocal writes : Prog Device ε _).Clean
      (fun result disk => result.1 = true ∧ disk = device.mapStore (·.writeAll writes)) device := by
  obtain ⟨rest, hRest, hRun⟩ | ⟨written, rest, -, hFates, -⟩ | ⟨written, rest, -, hFates, -⟩ :=
    writePlanLocal_cases writes device []
  · cases hRest rfl
    exact ⟨_, _, hRun, rfl, rfl⟩
  · simp at hFates
  · simp at hFates

theorem silentRecovery_restores {listing : List (String × Nat)} {plan : RestorePlan} {adoptedCount : Nat}
    (hPlan : preparePlan transport node.toStack listing = .ok (plan, adoptedCount)) (hVacant : device.store.Vacant) :
    (silentRecovery node transport listing).wp (fun _ => True) (fun _ _ => True)
      (fun _ disk => disk.store.SameLdk (KvStore.empty.writeAll plan.localWrites)) device := by
  simp only [silentRecovery, hPlan]
  refine Prog.wp_bind (Prog.wp_post (writePlanLocal_complete _ _) ?_)
  rintro ⟨complete, log⟩ disk hDisk
  dsimp only
  split
  · exact Prog.wp_bind (Prog.wp_post (Prog.wp_true _ _) fun _ _ _ => Prog.wp_fail trivial)
  · rename_i hComplete
    have hStore : disk.store.SameLdk (KvStore.empty.writeAll plan.localWrites) := by
      rw [hDisk (by simpa using hComplete)]
      exact hVacant.writeAll plan.localWrites
    have hSend : Prog.Keeps (fun disk => disk.store.SameLdk (KvStore.empty.writeAll plan.localWrites))
        (sendBackfill transport plan adoptedCount : Start Unit) :=
      sendBackfill_inv (fun _ _ => id) plan adoptedCount
    refine Prog.wp_bind (Prog.wp_mono (hSend disk hStore) (fun _ _ => trivial) (fun _ _ _ => trivial) ?_)
    exact fun _ _ hStore => Prog.wp_pure hStore

theorem sendBackfill_clean {ε : Type} (plan : RestorePlan) (adoptedCount : Nat) (store : KvStore)
    (hStore : device.store = store) :
    (sendBackfill transport plan adoptedCount : Prog Device ε Unit).Clean (fun _ disk => disk.store = store) device := by
  rw [sendBackfill]
  split
  · exact Prog.clean_each (fun _ _ _ h => Prog.clean_send h) hStore
  · exact Prog.clean_pure hStore

theorem silentRecovery_writes {listing : List (String × Nat)} {plan : RestorePlan} {adoptedCount : Nat}
    (hPlan : preparePlan transport node.toStack listing = .ok (plan, adoptedCount)) :
    (silentRecovery node transport listing).Clean
      (fun _ disk => disk.store = device.store.writeAll plan.localWrites) device := by
  simp only [silentRecovery, hPlan]
  refine Prog.clean_bind (Prog.clean_post (writePlanLocal_clean _ _) ?_)
  rintro ⟨complete, log⟩ disk ⟨rfl, rfl⟩
  simp only [Bool.not_true, Bool.false_eq_true, if_false]
  exact Prog.clean_bind (Prog.clean_post (sendBackfill_clean plan adoptedCount _ rfl) fun _ _ h => Prog.clean_pure h)

theorem silentRecovery_clean {listing : List (String × Nat)} {plan : RestorePlan} {adoptedCount : Nat}
    (hPlan : preparePlan transport node.toStack listing = .ok (plan, adoptedCount)) (hVacant : device.store.Vacant) :
    (silentRecovery node transport listing).Clean
      (fun _ disk => disk.store.SameLdk (KvStore.empty.writeAll plan.localWrites)) device := by
  refine Prog.clean_post (silentRecovery_writes hPlan) fun _ disk hStore => ?_
  rw [hStore]
  exact hVacant.writeAll plan.localWrites

end Recoveries

/-! ## One start -/

/-- A marker, or nothing yet, or a manager with the monitors it needs. -/
def Device.Sound (node : Node) (device : Device) : Prop :=
  device.marker.isSome = true ∨ device.store.Vacant ∨ device.store.Whole node

/-- The node runs on the manager on disk, and each of its funded channels has a monitor there. -/
def BootedOn (node : Node) (booted : Booted) (disk : Device) : Prop :=
  ∃ manager funded files, booted = .restored manager funded ∧ disk.store.manager = some manager ∧
    readChannelMonitors node disk.store = some files ∧ ∀ channelId ∈ funded, channelId ∈ monitored files

/-- The process does not die after the manager's write and before that of the last monitor, and after a
refused write every removal of the rollback is made. -/
def Uncut (plan : RestorePlan) (fates : List Fate) : Prop :=
  (∀ written rest, fates = .replicate written .made ++ .dies :: rest → written = 0 ∨ plan.monitors.length < written) ∧
  ∀ written rest, fates = .replicate written .made ++ .refused :: rest → written < plan.localWrites.length →
    ∀ fate ∈ rest.take written, fate = .made

section Starts

variable {fs : FileSystem} {node : Node} {transport : Transport} {device : Device}

theorem loadChannelManager_whole (h : device.store.Whole node) (remote : Bool) (fates : List Fate) :
    ∃ booted, BootedOn node booted device ∧ loadChannelManager node remote device fates = .ok booted device fates := by
  obtain ⟨manager, files, funded, hManager, hFiles, hRead⟩ := h
  have hFunded := node.funded_monitored manager (monitored files) funded hRead
  refine ⟨.restored manager funded, ⟨manager, funded, files, rfl, hManager, hFiles, hFunded⟩, ?_⟩
  have hCovered : checkChannelMonitorCoverage funded (files.map (·.2.1.channelId)) = true :=
    List.all_eq_true.mpr fun channelId hMem => decide_eq_true (hFunded channelId hMem)
  rw [monitored] at hRead
  simp only [loadChannelManager, bind, Prog.bind, Prog.read, id, hFiles, hManager, hRead, hCovered, if_true]
  rfl

variable (fs) in
theorem establishVssState_marked {marker : Bytes} (hMarker : device.marker = some marker)
    (hBackup : Recoverable node transport) :
    (establishVssState fs node transport).wp (fun disk => disk.marker = some marker)
      (fun _ disk => disk.marker = some marker) (fun _ disk => disk.store.OfBackup node transport) device := by
  obtain ⟨listing, plan, adoptedCount, hListing, hSome, hPlan, -⟩ := hBackup
  refine Prog.wp_bind (Prog.wp_read ?_)
  simp only [id, hMarker, Option.isSome_some, Bool.true_or, hListing, if_true, List.isEmpty_eq_false_iff.mpr hSome,
    Bool.false_eq_true, if_false]
  have hWipe : Prog.Keeps (fun disk => disk.marker = some marker) (wipeLocalLdkState fs) :=
    wipeLocalLdkState_inv fun _ _ => id
  refine Prog.wp_bind (Prog.wp_post (Prog.wp_keeps hWipe hMarker (wipeLocalLdkState_vacant device)) ?_)
  rintro - disk ⟨hMarker, hVacant⟩
  have hRecovery : Prog.Keeps (fun disk => disk.marker = some marker) (silentRecovery node transport listing) :=
    silentRecovery_inv (fun _ _ => id) fun plan adoptedCount _ =>
      ⟨fun _ _ _ => id, sendBackfill_inv (fun _ _ => id) plan adoptedCount⟩
  refine Prog.wp_bind (Prog.wp_post (Prog.wp_keeps hRecovery hMarker (silentRecovery_restores hPlan hVacant)) ?_)
  rintro state disk ⟨hMarker, hStore⟩
  have hBackup : disk.store.OfBackup node transport := ⟨listing, plan, adoptedCount, hListing, hPlan, hStore⟩
  refine Prog.wp_bind (Prog.wp_tryChange hMarker ?_ ?_)
  · exact Prog.wp_pure hBackup
  · exact Prog.wp_pure hBackup

theorem silentRecovery_uncut {listing : List (String × Nat)} {plan : RestorePlan} {adoptedCount : Nat}
    {fates : List Fate} (hPlan : preparePlan transport node.toStack listing = .ok (plan, adoptedCount))
    (hWhole : (KvStore.empty.writeAll plan.localWrites).Whole node) (hVacant : device.store.Vacant)
    (hUncut : Uncut plan fates) :
    (silentRecovery node transport listing device fates).Meets
      (fun disk => disk.store.Vacant ∨ disk.store.Whole node)
      (fun _ disk => disk.store.Vacant ∨ disk.store.Whole node) (fun _ disk => disk.store.Whole node) := by
  simp only [silentRecovery, hPlan]
  obtain ⟨rest, -, hRun⟩ | ⟨written, rest, hLess, hFates, hRun⟩ | ⟨written, rest, hLess, hFates, hRun⟩ :=
    writePlanLocal_cases (ε := BuildError) plan.localWrites device fates
  · rw [Prog.bind_ok hRun]
    have hStore : (device.mapStore (·.writeAll plan.localWrites)).store.Whole node :=
      KvStore.SameLdk.whole (hVacant.writeAll plan.localWrites) hWhole
    have hSend : Prog.Keeps (fun disk => disk.store.Whole node) (sendBackfill transport plan adoptedCount : Start Unit) :=
      sendBackfill_inv (fun _ _ => id) plan adoptedCount
    refine Prog.wp_bind (Prog.wp_mono (hSend _ hStore) (fun _ => .inr) (fun _ _ => .inr) ?_) rest
    exact fun _ _ hStore => Prog.wp_pure hStore
  · -- The refused write is rolled back in full.
    rw [Prog.bind_ok hRun]
    have hMade : ∀ fate ∈ rest.take ((plan.localWrites.take written).map Prod.fst).length, fate = .made := by
      rw [List.length_map, List.length_take, Nat.min_eq_left hLess.le]
      exact hUncut.2 written rest hFates hLess
    obtain ⟨more, hRollback⟩ := rollbackLocalWrites_made rest hMade
      (device.mapStore (·.writeAll (plan.localWrites.take written)))
    simp only [Bool.not_false, if_true]
    rw [Prog.bind_ok hRollback]
    exact .inl (hVacant.rolledBack _)
  · rw [Prog.bind_crashed hRun]
    obtain rfl | hLast := hUncut.1 written rest hFates
    · exact .inl hVacant
    · refine .inr (KvStore.SameLdk.whole (KvStore.sameLdk_writeAll_take plan hLast _) ?_)
      exact KvStore.SameLdk.whole (hVacant.writeAll plan.localWrites) hWhole

theorem establishVssState_local {listing : List (String × Nat)} {manager : Bytes}
    {files : List (String × DeserializedMonitor × Bytes)} (hMarker : device.marker = none)
    (hManager : device.store.manager = some manager) (hFiles : readChannelMonitors node device.store = some files)
    (hListing : transport.listKeyVersions = .ok listing) (hSome : listing ≠ []) (fates : List Fate) :
    establishVssState fs node transport device fates =
      .ok (seedVersions transport listing (files.map fun file => (file.2.1.derivedVssKey, file.2.2))) device fates := by
  refine (Prog.bind_ok rfl).trans ?_
  simp only [id, hMarker, hManager, Option.isSome_none, Option.isNone_some, Bool.false_and, Bool.or_self, hListing,
    Bool.false_eq_true, if_false, hFiles, List.isEmpty_eq_false_iff.mpr hSome]
  rfl

variable (fs) in
theorem establishVssState_own {listing : List (String × Nat)} (hMarker : device.marker = none)
    (hWhole : device.store.Whole node) (hListing : transport.listKeyVersions = .ok listing) (hSome : listing ≠ [])
    (fates : List Fate) : ∃ state, establishVssState fs node transport device fates = .ok state device fates := by
  obtain ⟨manager, files, funded, hManager, hFiles, -⟩ := hWhole
  exact ⟨_, establishVssState_local hMarker hManager hFiles hListing hSome fates⟩

theorem establishVssState_vacant {listing : List (String × Nat)} (hMarker : device.marker = none)
    (hVacant : device.store.Vacant) (hListing : transport.listKeyVersions = .ok listing) (hSome : listing ≠ []) :
    establishVssState fs node transport device = silentRecovery node transport listing device := by
  funext fates
  refine (Prog.bind_ok rfl).trans ?_
  simp only [id, hMarker, Option.isSome_none, (KvStore.vacant_iff fs device.store).mp hVacant, Bool.or_true, hListing,
    if_true, Bool.false_eq_true, if_false, List.isEmpty_eq_false_iff.mpr hSome]
  change Prog.bind (silentRecovery node transport listing) _ device fates = _
  rw [Prog.bind]
  cases silentRecovery node transport listing device fates <;> rfl

/-- The condition on a start: the server's backup restores, and a recovery without a marker is not cut off. -/
def StartGuard (node : Node) (device : Device) (start : Transport × List Fate) : Prop :=
  Recoverable node start.1 ∧ (device.marker = none → device.store.Vacant → ∀ listing plan adoptedCount,
    start.1.listKeyVersions = .ok listing → preparePlan start.1 node.toStack listing = .ok (plan, adoptedCount) →
    Uncut plan start.2)

theorem establishVssState_sound {fates : List Fate} (hSound : device.Sound node)
    (hGuard : StartGuard node device (transport, fates)) :
    (establishVssState fs node transport device fates).Meets (Device.Sound node) (fun _ => Device.Sound node)
      (fun _ disk => disk.store.Whole node) := by
  obtain ⟨hBackup, hGuard⟩ := hGuard
  cases hMarker : device.marker with
  | some marker =>
    refine (establishVssState_marked fs hMarker hBackup fates).mono ?_ ?_ fun _ _ => hBackup.whole
    · intro disk hKept
      exact .inl (by rw [hKept]; rfl)
    · intro _ disk hKept
      exact .inl (by rw [hKept]; rfl)
  | none =>
    obtain ⟨listing, plan, adoptedCount, hListing, hSome, hPlan, hWhole⟩ := hBackup
    rw [Device.Sound, hMarker] at hSound
    obtain hMarked | hVacant | hOwn := hSound
    · cases hMarked
    · rw [establishVssState_vacant hMarker hVacant hListing hSome]
      have hUncut := hGuard hMarker hVacant listing plan adoptedCount hListing hPlan
      exact (silentRecovery_uncut hPlan hWhole hVacant hUncut).mono (fun _ => .inr) (fun _ _ => .inr) fun _ _ => id
    · obtain ⟨state, hRun⟩ := establishVssState_own fs hMarker hOwn hListing hSome fates
      rw [hRun]
      exact hOwn

theorem establishVssState_clean (hSound : device.Sound node) (hBackup : Recoverable node transport) :
    (establishVssState fs node transport).Clean (fun _ disk => disk.store.Whole node) device := by
  obtain ⟨listing, plan, adoptedCount, hListing, hSome, hPlan, hWhole⟩ := hBackup
  cases hMarker : device.marker with
  | some marker =>
    refine Prog.clean_bind (Prog.clean_read ?_)
    simp only [id, hMarker, Option.isSome_some, Bool.true_or, hListing, if_true, List.isEmpty_eq_false_iff.mpr hSome,
      Bool.false_eq_true, if_false]
    refine Prog.clean_bind (Prog.clean_post (wipeLocalLdkState_clean device) fun _ disk hVacant => ?_)
    refine Prog.clean_bind (Prog.clean_post (silentRecovery_clean hPlan hVacant) fun _ disk hStore => ?_)
    exact Prog.clean_bind (Prog.clean_tryChange (Prog.clean_pure (hStore.whole hWhole)))
  | none =>
    rw [Device.Sound, hMarker] at hSound
    obtain hMarked | hVacant | hOwn := hSound
    · cases hMarked
    · rw [Prog.Clean, establishVssState_vacant hMarker hVacant hListing hSome]
      exact Prog.clean_post (silentRecovery_clean hPlan hVacant) fun _ _ hStore => hStore.whole hWhole
    · obtain ⟨state, hRun⟩ := establishVssState_own fs hMarker hOwn hListing hSome []
      exact ⟨state, device, hRun, hOwn⟩

/-- A later start to which nothing happens runs on a manager with all of its monitors. -/
def Recovers (fs : FileSystem) (node : Node) (disk : Device) : Prop :=
  ∀ transport, Recoverable node transport → (bootChannels fs node transport).Clean (BootedOn node) disk

theorem Device.Sound.recovers (h : device.Sound node) : Recovers fs node device := by
  intro transport hBackup
  refine Prog.clean_bind (Prog.clean_post (establishVssState_clean h hBackup) ?_)
  intro state disk hWhole
  obtain ⟨booted, hBooted, hRun⟩ := loadChannelManager_whole hWhole state.remote []
  exact ⟨booted, disk, hRun, hBooted⟩

variable (fs) in
theorem bootChannels_sound {fates : List Fate} (hSound : device.Sound node)
    (hGuard : StartGuard node device (transport, fates)) :
    (bootChannels fs node transport device fates).Meets (fun disk => disk.Sound node ∧ device.Kept transport disk)
      (fun _ disk => disk.Sound node ∧ device.Kept transport disk)
      (fun booted disk => (disk.Sound node ∧ device.Kept transport disk) ∧ BootedOn node booted disk) := by
  have hKept := establishVssState_kept fs node transport device device .refl fates
  refine Prog.bind_meets (((establishVssState_sound hSound hGuard).and hKept).mono (fun _ => id) (fun _ _ => id) ?_)
  rintro state disk ⟨hWhole, hKept⟩ rest
  obtain ⟨booted, hBooted, hRun⟩ := loadChannelManager_whole hWhole state.remote rest
  rw [hRun]
  exact ⟨⟨.inr (.inr hWhole), hKept⟩, hBooted⟩

end Starts

/-! ## Runs of starts -/

def startStep (fs : FileSystem) (node : Node) (device : Device) (start : Transport × List Fate) : Option Device :=
  some (bootChannels fs node start.1 device start.2).disk

/-- No start of a run goes fresh or sends a manager: it runs on a manager with all of its monitors, or it
ends early and a later start recovers. -/
theorem starts_never_fresh (fs : FileSystem) (node : Node) (device disk : Device) (starts : List (Transport × List Fate))
    (start : Transport × List Fate) (hSound : device.Sound node)
    (hGuard : Along (startStep fs node) (StartGuard node) device (starts ++ [start]))
    (hRun : exec (startStep fs node) device starts = some disk) :
    (bootChannels fs node start.1 disk start.2).Meets
      (fun after => disk.Kept start.1 after ∧ Recovers fs node after)
      (fun _ after => disk.Kept start.1 after ∧ Recovers fs node after)
      (fun booted after => disk.Kept start.1 after ∧ BootedOn node booted after ∧ Recovers fs node after) := by
  obtain ⟨hBefore, hLast⟩ := along_append hGuard
  have hStep : ∀ device start next, Device.Sound node device → StartGuard node device start →
      startStep fs node device start = some next → next.Sound node := by
    rintro device start next hSound hGuard ⟨⟩
    refine Outcome.Meets.disk ((bootChannels_sound fs hSound hGuard).mono ?_ ?_ ?_)
    · exact fun _ h => h.1
    · exact fun _ _ h => h.1
    · exact fun _ _ h => h.1.1
  have hDisk : disk.Sound node := exec_inv hStep hSound hBefore hRun
  refine (bootChannels_sound fs hDisk (hLast disk hRun).1).mono ?_ ?_ ?_
  · exact fun after h => ⟨h.2, h.1.recovers⟩
  · exact fun _ after h => ⟨h.2, h.1.recovers⟩
  · exact fun booted after h => ⟨h.1.2, h.2, h.1.1.recovers⟩


/-- A node with one funded channel; its manager reads only beside the channel's monitor. -/
def oneChannelNode : Node where
  toStack := numberedNode.toStack
  readManager bytes monitored := if bytes = .raw [] then some [] else if "0" ∈ monitored then some ["0"] else none
  freshManager := .raw []
  funded_monitored := by
    intro bytes monitored funded hRead channelId hMem
    split at hRead
    · cases hRead
      cases hMem
    · split at hRead
      · cases hRead
        cases List.mem_singleton.mp hMem
        assumption
      · cases hRead

/-- The backup of a wallet with one channel. -/
def oneChannelBackup : Transport where
  obfuscate := id
  listKeyVersions := .ok [(channelManagerVssKey, 1), (monitorManifestKey, 1), (numberedKey 0, 1)]
  get key :=
    if key = channelManagerVssKey then .ok (some (.raw [1], 1))
    else if key = monitorManifestKey then .ok (some (manifestPayload [numberedKey 0], 1))
    else if key = numberedKey 0 then .ok (some (.ofJson (.ofU64 0), 1))
    else .ok none
  getByStoredKey _ := .ok none
  putManifest := .ok 1
  refetchManifest := .ok none
  putMany := .ok ()
  identifyLate _ := false
  downloadLate _ := false

def oneChannelPlan : RestorePlan where
  manifestVersion := some 1
  cm := some (.raw [1], 1)
  monitors := [⟨numberedKey 0, "0", .ofJson (.ofU64 0), 1, true⟩]
  peers := none

theorem preparePlan_oneChannel (listing : List (String × Nat)) (h : oneChannelBackup.listKeyVersions = .ok listing) :
    preparePlan oneChannelBackup oneChannelNode.toStack listing = .ok (oneChannelPlan, 0) := by
  cases h
  rfl

theorem recoverable_oneChannel : Recoverable oneChannelNode oneChannelBackup := by
  refine ⟨_, oneChannelPlan, 0, rfl, by simp, preparePlan_oneChannel _ rfl, ?_⟩
  exact ⟨.raw [1], [("0", ⟨"0", ⟨Vector.replicate 32 0, 0⟩, "0"⟩, .ofJson (.ofU64 0))], ["0"], rfl, by decide +kernel,
    by decide +kernel⟩

/-- What is left when the process dies after the manager's write. -/
def cutOff : Device := newWallet.mapStore (·.write (.raw [1]) .manager)

theorem cutOff_files : readChannelMonitors oneChannelNode cutOff.store = some [] := by decide +kernel

theorem loadChannelManager_cutOff : ∃ after, .manager oneChannelNode.freshManager ∈ after.sent ∧
    loadChannelManager oneChannelNode true cutOff [] = .ok .fresh after [] := by
  refine ⟨((cutOff.mapStore (·.remove .manager)).send (.manager oneChannelNode.freshManager)).mapStore
    (·.write oneChannelNode.freshManager .manager), List.mem_append_right _ List.mem_cons_self, ?_⟩
  refine (Prog.bind_ok rfl).trans ?_
  simp only [id, cutOff_files]
  rfl

/-- The first start dies between the manager and its monitor; the second discards the manager and sends a
fresh one over the backup. -/
theorem cutOff_goes_fresh : newWallet.Sound oneChannelNode ∧ Recoverable oneChannelNode oneChannelBackup ∧
    exec (startStep sortedFiles oneChannelNode) newWallet [(oneChannelBackup, [.made, .dies])] = some cutOff ∧
    ∃ after, .manager oneChannelNode.freshManager ∈ after.sent ∧
      bootChannels sortedFiles oneChannelNode oneChannelBackup cutOff [] = .ok .fresh after [] := by
  refine ⟨.inr (.inl ⟨rfl, rfl⟩), recoverable_oneChannel, ?_, ?_⟩
  · have hFirst : bootChannels sortedFiles oneChannelNode oneChannelBackup newWallet [.made, .dies] =
        .crashed cutOff := by
      refine Prog.bind_crashed ?_
      rw [establishVssState_vacant rfl ⟨rfl, rfl⟩ rfl (by simp)]
      rfl
    rw [exec, startStep, hFirst]
    rfl
  · obtain ⟨after, hSent, hLoad⟩ := loadChannelManager_cutOff
    refine ⟨after, hSent, (Prog.bind_ok (establishVssState_local rfl rfl cutOff_files rfl (by simp) [])).trans ?_⟩
    exact hLoad

/-- Two starts die before their first write, and the next one recovers. -/
theorem starts_never_fresh_oneChannel :
    ∃ booted after, bootChannels sortedFiles oneChannelNode oneChannelBackup newWallet [] = .ok booted after [] ∧
      BootedOn oneChannelNode booted after := by
  have hDies : bootChannels sortedFiles oneChannelNode oneChannelBackup newWallet [.dies] = .crashed newWallet := by
    refine Prog.bind_crashed ?_
    rw [establishVssState_vacant rfl ⟨rfl, rfl⟩ rfl (by simp)]
    rfl
  have hGuard : StartGuard oneChannelNode newWallet (oneChannelBackup, [.dies]) := by
    refine ⟨recoverable_oneChannel, fun _ _ listing plan adoptedCount hListing hPlan => ?_⟩
    constructor
    · rintro (_ | written) rest hFates
      · exact .inl rfl
      · cases hFates
    · rintro (_ | written) rest hFates
      · cases hFates
      · cases hFates
  have hRun : exec (startStep sortedFiles oneChannelNode) newWallet [(oneChannelBackup, [.dies])] = some newWallet := by
    rw [exec, startStep, hDies]
    rfl
  have hSafe := starts_never_fresh sortedFiles oneChannelNode newWallet newWallet [(oneChannelBackup, [.dies])]
    (oneChannelBackup, [.dies]) (.inr (.inl ⟨rfl, rfl⟩)) ?_ hRun
  · rw [hDies] at hSafe
    exact hSafe.2 oneChannelBackup recoverable_oneChannel
  · refine ⟨hGuard, fun next hNext => ⟨?_, fun _ _ => trivial⟩⟩
    rw [startStep, hDies] at hNext
    cases hNext
    exact hGuard

end WalletCore.Restore
