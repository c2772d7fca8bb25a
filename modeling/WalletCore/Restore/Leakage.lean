import WalletCore.Restore.AppStores
import WalletCore.Restore.CrashPrefix

/-! # What a restore leaves of the old wallet

The stores of the application read their files when the `Node` is made, and a restore drops what they read
only when it returns `Ok`. A restore that is completed otherwise, by a later start, is free of the old wallet
when the `Node` of that start was made after the old files were gone.
-/

namespace WalletCore.Restore

open Lib History CloseRecords Sweep

/-! ## The memory of a node -/

/-- The files of one namespace of the store, by their keys. -/
def namespaceFiles (others : StringMap Bytes) (name : String) : StringMap Bytes :=
  .ofPairs (others.toPairs.filterMap fun file =>
    let root := (name ++ "/").toList
    if root.isPrefixOf file.1.toList then some (.ofList (file.1.toList.drop root.length), file.2) else none)

structure Caches where
  rows : Rows
  records : Records
  keyed : Keyed records
  fundingTxos : FundingTxos
  lastTipHeight : Option UInt32
  recovery : Option RecoveryState
  flags : SweepFlags

namespace Caches

def empty : Caches where
  rows := ∅
  records := ∅
  keyed := by simp [Keyed]
  fundingTxos := ∅
  lastTipHeight := none
  recovery := none
  flags := .default

def closeFiles (others : StringMap Bytes) : Files :=
  ⟨others.lookup "close_records/records", others.lookup "close_records/funding_txos"⟩

/-- What `Node::with_event_sink` reads. -/
def load (others : StringMap Bytes) (nowMs : UInt64) : Caches where
  rows := loadRows (namespaceFiles others "payment_history")
  records := loadRecords (closeFiles others) nowMs
  keyed := loadRecords_keyed (closeFiles others) nowMs
  fundingTxos := loadFundingTxos (closeFiles others)
  lastTipHeight := none
  recovery := (RecoveryStore.new (others.lookup "force_close_recovery/state")).state
  flags := .default

/-- The stores of a running node: what it holds in memory over what lies on disk. -/
def mount (caches : Caches) (others : StringMap Bytes) (failure : Nat → Option String) (fails : Nat → Bool) : App where
  payments := ⟨caches.rows, ⟨namespaceFiles others "payment_history", failure, 0⟩⟩
  closeRecords := ⟨caches.records, caches.keyed, caches.fundingTxos, ⟨closeFiles others, fails, 0, []⟩,
    caches.lastTipHeight⟩
  recovery := ⟨caches.recovery, others.lookup "force_close_recovery/state"⟩
  sweeps := ⟨namespaceFiles others "spendable_outputs", caches.flags⟩
  pushed := []

theorem load_empty (nowMs : UInt64) : load ∅ nowMs = empty := by
  have hRows : loadRows (namespaceFiles ∅ "payment_history") = ∅ := by decide +kernel
  simp only [load, empty, hRows, closeFiles, loadRecords, loadFundingTxos, RecoveryStore.new, Finmap.lookup_empty,
    Option.bind_none, Option.getD_none]

end Caches

/-! ## Processes on a device -/

/-- The device, and the `Node` of the process that runs on it. -/
structure Host where
  device : Device
  node : Option Caches

inductive HostEvent where
  | create (nowMs : UInt64)
  | restore (server : Option Transport) (raw : String) (nowMs : UInt64) (fates : List Fate)
  | start (start : NodeStart)
  | session (caches : Caches) (others : StringMap Bytes)
  | kill

/-- Marker-free and under the old words. -/
structure Device.Untouched (wallets : Wallets) (old : String) (device : Device) : Prop where
  marker : device.marker = none
  words : device.mnemonic.bind wallets.parseMnemonic = some old

instance (wallets : Wallets) (old : String) (device : Device) : Decidable (device.Untouched wallets old) :=
  decidable_of_iff (device.marker = none ∧ device.mnemonic.bind wallets.parseMnemonic = some old)
    ⟨fun h => ⟨h.1, h.2⟩, fun h => ⟨h.marker, h.words⟩⟩

/-- A session of the old wallet leaves anything in its stores. -/
def Host.step (fs : FileSystem) (wallets : Wallets) (old : String) (host : Host) : HostEvent → Option Host
  | .create nowMs =>
    match host.node with
    | some _ => none
    | none => some { host with node := some (.load host.device.store.others nowMs) }
  | .restore server raw nowMs fates =>
    match host.node with
    | none => none
    | some _ =>
      match runRestore fs wallets server raw nowMs host.device fates with
      | .ok () disk _ => some ⟨disk, some .empty⟩
      | .error _ disk _ => some { host with device := disk }
      | .crashed disk => some ⟨disk, none⟩
  | .start start =>
    match host.node with
    | none => none
    | some _ =>
      match startNode fs wallets start.transport start.generated host.device start.fates with
      | .ok _ disk _ => some { host with device := disk }
      | .error _ disk _ => some { host with device := disk }
      | .crashed disk => some ⟨disk, none⟩
  | .session caches others =>
    if host.node.isSome ∧ host.device.Untouched wallets old then
      some ⟨host.device.mapStore fun store => { store with others := others }, some caches⟩
    else none
  | .kill => some { host with node := none }

/-- No write of a restore is refused after the first, and while the marker is there a `Node` is made only over a
directory from which the old wallet's files are gone. -/
def LeakGuard (host : Host) : HostEvent → Prop
  | .create _ => host.device.marker.isSome = true → host.device.store.others = ∅
  | .restore _ _ _ fates => fates.head? = some .refused ∨ .refused ∉ fates
  | .start _ | .session _ _ | .kill => True

/-! ## Programs that leave the other files alone -/

/-- What the channel state and the marker cannot change. -/
structure Outer (inv : Device → Prop) : Prop where
  write : ∀ disk bytes file, (∀ name, file ≠ .other name) → inv disk → inv (disk.mapStore (·.write bytes file))
  remove : ∀ disk file, inv disk → inv (disk.mapStore (·.remove file))
  removeMarker : ∀ disk, inv disk → inv disk.removeMarker
  send : ∀ disk sent, inv disk → inv (disk.send sent)

section OuterInvariants

variable {fs : FileSystem} {node : Node} {transport : Transport} {inv : Device → Prop} (h : Outer inv)

theorem mem_localWrites_ldk {plan : RestorePlan} {write : StoreFile × Bytes} (hWrite : write ∈ plan.localWrites)
    (name : String) : write.1 ≠ .other name := by
  rw [RestorePlan.localWrites, List.mem_append, List.mem_append] at hWrite
  obtain (hManager | hMonitor) | hPeers := hWrite
  · rw [Option.mem_toList, Option.map_eq_some_iff] at hManager
    obtain ⟨cm, -, rfl⟩ := hManager
    simp
  · obtain ⟨monitor, -, rfl⟩ := List.mem_map.mp hMonitor
    simp
  · rw [Option.mem_toList, Option.map_eq_some_iff] at hPeers
    obtain ⟨peers, -, rfl⟩ := hPeers
    simp

include h

theorem writePlanLocal_outer {ε : Type} (plan : RestorePlan) :
    Prog.Keeps inv (writePlanLocal plan.localWrites : Prog Device ε _) :=
  writePlanLocal_inv fun write hWrite disk => h.write disk write.2 write.1 (mem_localWrites_ldk hWrite)

theorem silentRecovery_outer (listing : List (String × Nat)) :
    Prog.Keeps inv (silentRecovery node transport listing) := by
  refine silentRecovery_inv h.remove ?_
  intro plan adoptedCount _
  constructor
  · exact fun write hWrite disk => h.write disk write.2 write.1 (mem_localWrites_ldk hWrite)
  · exact sendBackfill_inv (fun disk put => h.send disk _) plan adoptedCount

theorem establishVssState_outer : Prog.Keeps inv (establishVssState fs node transport) := by
  apply establishVssState_inv
  · exact wipeLocalLdkState_inv h.remove
  · exact h.removeMarker
  · exact silentRecovery_outer h
  · exact fun store files => migrate_inv (fun disk sent _ => h.send disk sent) store _

theorem loadChannelManager_outer (remote : Bool) : Prog.Keeps inv (loadChannelManager node remote) := by
  have hFresh : Prog.Keeps inv (makeFreshManager node remote) := by
    refine Prog.keeps_bind (Prog.keeps_when _ (Prog.keeps_send fun disk => h.send disk _)) fun _ => ?_
    exact Prog.keeps_bind (Prog.keeps_change _ fun disk => h.write disk _ .manager (by simp)) fun _ => Prog.keeps_pure _
  refine Prog.keeps_bind (Prog.keeps_read _) fun found => ?_
  dsimp only
  split
  · exact Prog.keeps_fail _
  · split
    · split
      · exact hFresh
      · exact Prog.keeps_fail _
    · split
      · split
        · exact Prog.keeps_pure _
        · exact Prog.keeps_fail _
      · split
        · exact Prog.keeps_bind (Prog.keeps_tryChange fun disk => h.remove disk _) fun _ => hFresh
        · exact Prog.keeps_fail _

theorem bootChannels_outer : Prog.Keeps inv (bootChannels fs node transport) :=
  Prog.keeps_bind (establishVssState_outer h) fun state => loadChannelManager_outer h state.remote

end OuterInvariants

/-! ## Where the old files can still be -/

def Device.Bare (device : Device) : Prop := device.store.others = ∅

/-- The old words are there, or the old files are gone. -/
def Device.Purged (wallets : Wallets) (old : String) (device : Device) : Prop :=
  device.mnemonic.bind wallets.parseMnemonic = some old ∨ device.Bare

section Purging

variable {fs : FileSystem} {wallets : Wallets} {old : String} {device : Device}

theorem Device.Bare.remove (h : device.Bare) (file : StoreFile) : (device.mapStore (·.remove file)).Bare := by
  cases file with
  | manager | monitor | peers => exact h
  | other name =>
    refine Finmap.ext_lookup fun key => ?_
    change (device.store.others.erase name).lookup key = _
    rw [StringMap.lookup_erase_eq, show device.store.others = ∅ from h]
    split <;> rfl

theorem Device.Bare.write (h : device.Bare) (bytes : Bytes) {file : StoreFile} (hFile : ∀ name, file ≠ .other name) :
    (device.mapStore (·.write bytes file)).Bare := by
  cases file with
  | manager | monitor | peers => exact h
  | other name => exact absurd rfl (hFile name)

theorem outer_bare : Outer Device.Bare where
  write := fun _ bytes _ hFile h => h.write bytes hFile
  remove := fun _ file h => h.remove file
  removeMarker := fun _ h => h
  send := fun _ _ h => h

theorem outer_purged : Outer (Device.Purged wallets old) where
  write := fun _ bytes _ hFile h => h.imp_right fun hBare => hBare.write bytes hFile
  remove := fun _ file h => h.imp_right fun hBare => hBare.remove file
  removeMarker := fun _ h => h
  send := fun _ _ h => h

theorem outer_untouched : Outer (Device.Untouched wallets old) where
  write := fun _ _ _ _ h => ⟨h.marker, h.words⟩
  remove := fun _ _ h => ⟨h.marker, h.words⟩
  removeMarker := fun _ h => ⟨rfl, h.words⟩
  send := fun _ _ h => ⟨h.marker, h.words⟩

/-- The words go last, after the whole store. -/
theorem clearLocalWalletState_purged {ε : Type} (e : ε) (h : device.Purged wallets old) :
    (clearLocalWalletState fs e).wp (Device.Purged wallets old) (fun _ => Device.Purged wallets old)
      (fun _ => Device.Bare) device := by
  have hFiles : Prog.Keeps (Device.Purged wallets old) (Prog.each (fun file =>
      Prog.change (Device.mapStore · (·.remove file)) e) (fs.listFiles device.store)) :=
    Prog.keeps_each fun file _ => Prog.keeps_change e fun disk => outer_purged.remove disk file
  refine Prog.wp_bind (Prog.wp_read (Prog.wp_bind (Prog.wp_post (hFiles device h) fun _ disk hDisk => ?_)))
  refine Prog.wp_bind (Prog.wp_change hDisk hDisk (Prog.wp_bind (Prog.wp_change (.inr rfl) (.inr rfl) ?_)))
  exact Prog.wp_change (.inr rfl) (.inr rfl) rfl

theorem writeMnemonic_bare {ε : Type} (words : String) (exists' e : ε) :
    Prog.Keeps Device.Bare (writeMnemonic words exists' e) :=
  writeMnemonic_inv (fun _ _ h => h) words exists'

theorem prepareMarkerResume_purged : Prog.Keeps (Device.Purged wallets old) (prepareMarkerResume fs wallets) := by
  intro device h
  refine Prog.wp_bind (Prog.wp_read ?_)
  split
  · exact Prog.wp_pure h
  · split
    · exact Prog.wp_pure h
    · split
      · exact Prog.wp_pure h
      · refine Prog.wp_bind (Prog.wp_post (clearLocalWalletState_purged _ h) ?_)
        intro _ disk hBare
        exact Prog.wp_mono (writeMnemonic_bare _ _ _ disk hBare) (fun _ => .inr) (fun _ _ => .inr) fun _ _ => .inr

/-- Under any words but the old ones, the old files are gone. -/
theorem readOrGenerateMnemonic_purged {generated : String} (h : device.Purged wallets old) :
    (readOrGenerateMnemonic wallets generated).wp (Device.Purged wallets old) (fun _ => Device.Purged wallets old)
      (fun words disk => disk.Purged wallets old ∧ (words ≠ old → disk.Bare)) device := by
  refine Prog.wp_bind (Prog.wp_read ?_)
  split
  · rename_i raw hRaw
    split
    · rename_i words hParse
      refine Prog.wp_pure ⟨h, fun hOther => ?_⟩
      obtain hOld | hBare := h
      · rw [show device.mnemonic = some raw from hRaw, Option.bind_some, hParse] at hOld
        cases hOld
        exact absurd rfl hOther
      · exact hBare
    · exact Prog.wp_fail h
  · rename_i hRaw
    have hBare : device.Bare := by
      obtain hOld | hBare := h
      · rw [show device.mnemonic = none from hRaw] at hOld
        cases hOld
      · exact hBare
    split
    · exact Prog.wp_fail h
    · have hWrite := writeMnemonic_bare generated BuildError.mnemonicExists .writeFailed device hBare
      refine Prog.wp_bind (Prog.wp_mono hWrite (fun _ => .inr) (fun _ _ => .inr) ?_)
      exact fun _ disk hDisk => Prog.wp_pure ⟨.inr hDisk, fun _ => hDisk⟩

theorem startResumed_purged {transport : String → Option Transport} {generated : String}
    (h : device.Purged wallets old) :
    (startResumed fs wallets transport generated).wp (Device.Purged wallets old) (fun _ => Device.Purged wallets old)
      (fun result disk => disk.Purged wallets old ∧ (result.1 ≠ old → disk.Bare)) device := by
  have hFence : Prog.Keeps (Device.Purged wallets old) checkFence :=
    Prog.keeps_bind (Prog.keeps_read _) fun _ => Prog.keeps_when _ (Prog.keeps_fail _)
  refine Prog.wp_bind (Prog.wp_post (hFence device h) fun _ disk hDisk => ?_)
  refine Prog.wp_bind (Prog.wp_post (readOrGenerateMnemonic_purged hDisk) ?_)
  rintro words disk ⟨hPurged, hBare⟩
  -- Both invariants outlive the boot; the second holds only under other words.
  have hOuter : Outer fun disk => disk.Purged wallets old ∧ (words ≠ old → disk.Bare) :=
    { write := fun disk bytes file hFile hInv => ⟨outer_purged.write disk bytes file hFile hInv.1,
        fun hOther => (hInv.2 hOther).write bytes hFile⟩
      remove := fun disk file hInv => ⟨outer_purged.remove disk file hInv.1, fun hOther => (hInv.2 hOther).remove file⟩
      removeMarker := fun _ hInv => hInv
      send := fun _ _ hInv => hInv }
  split
  · refine Prog.wp_bind (Prog.wp_read ?_)
    split
    · exact Prog.wp_fail hPurged
    · refine Prog.wp_bind (Prog.wp_mono (loadChannelManager_outer hOuter false disk ⟨hPurged, hBare⟩) ?_ ?_ ?_)
      · exact fun _ => And.left
      · exact fun _ _ => And.left
      · exact fun _ _ hDisk => Prog.wp_pure hDisk
  · refine Prog.wp_bind (Prog.wp_mono (bootChannels_outer hOuter disk ⟨hPurged, hBare⟩) ?_ ?_ ?_)
    · exact fun _ => And.left
    · exact fun _ _ => And.left
    · exact fun _ _ hDisk => Prog.wp_pure hDisk

theorem startNode_purged (fs : FileSystem) (transport : String → Option Transport) (generated : String)
    (h : device.Purged wallets old) :
    (startNode fs wallets transport generated).wp (Device.Purged wallets old) (fun _ => Device.Purged wallets old)
      (fun result disk => disk.Purged wallets old ∧ (result.1 ≠ old → disk.Bare)) device := by
  have hFence : Prog.Keeps (Device.Purged wallets old) checkFence :=
    Prog.keeps_bind (Prog.keeps_read _) fun _ => Prog.keeps_when _ (Prog.keeps_fail _)
  rw [startNode_eq]
  refine Prog.wp_bind (Prog.wp_post (hFence device h) fun _ disk hDisk => ?_)
  refine Prog.wp_bind (Prog.wp_post (prepareMarkerResume_purged disk hDisk) fun _ disk hDisk => ?_)
  exact startResumed_purged hDisk

theorem startNode_old (fs : FileSystem) (transport : String → Option Transport) (generated : String)
    (h : device.Untouched wallets old) :
    (startNode fs wallets transport generated).wp (Device.Untouched wallets old)
      (fun _ => Device.Untouched wallets old) (fun result disk => result.1 = old ∧ disk.Untouched wallets old)
      device := by
  have hFence : Prog.Keeps (Device.Untouched wallets old) checkFence :=
    Prog.keeps_bind (Prog.keeps_read _) fun _ => Prog.keeps_when _ (Prog.keeps_fail _)
  rw [startNode_eq]
  refine Prog.wp_bind (Prog.wp_post (hFence device h) fun _ disk hDisk => Prog.wp_bind fun fates => ?_)
  rw [prepareMarkerResume_unmarked hDisk.marker fates]
  refine Prog.wp_bind (Prog.wp_post (hFence disk hDisk) fun _ disk hDisk => Prog.wp_bind fun fates => ?_)
  rw [readOrGenerateMnemonic_words hDisk.words fates]
  simp only [Outcome.Meets]
  split
  · refine Prog.wp_bind (Prog.wp_read ?_)
    split
    · exact Prog.wp_fail hDisk
    · refine Prog.wp_bind (Prog.wp_post (loadChannelManager_outer outer_untouched false disk hDisk) ?_)
      exact fun _ _ hDisk => Prog.wp_pure ⟨rfl, hDisk⟩
  · refine Prog.wp_bind (Prog.wp_post (bootChannels_outer outer_untouched disk hDisk) ?_)
    exact fun _ _ hDisk => Prog.wp_pure ⟨rfl, hDisk⟩

/-! ## The restore itself -/

theorem twoPhaseWrite_purged (marker : RestoreMarker) (plan : RestorePlan) (h : device.Purged wallets old) :
    (twoPhaseWrite fs marker plan).wp (Device.Purged wallets old) (fun _ => Device.Purged wallets old)
      (fun _ => Device.Bare) device := by
  have hMarker : Prog.Keeps (Device.Purged wallets old) (writeMarker marker RestoreError.localWriteFailed) :=
    Prog.keeps_bind (Prog.keeps_change _ fun _ h => h) fun _ => Prog.keeps_change _ fun _ h => h
  have hRest : Prog.Keeps Device.Bare (writeRestored marker plan) := by
    refine Prog.keeps_bind (writeMnemonic_bare _ _ _) fun _ => ?_
    refine Prog.keeps_bind (writePlanLocal_outer outer_bare plan) fun result => ?_
    dsimp only
    split
    · exact Prog.keeps_fail _
    · exact Prog.keeps_change _ fun _ h => h
  rw [twoPhaseWrite_eq]
  refine Prog.wp_bind (Prog.wp_post (hMarker device h) fun _ disk hDisk => ?_)
  refine Prog.wp_bind (Prog.wp_post (clearLocalWalletState_purged _ hDisk) fun _ disk hBare => ?_)
  exact Prog.wp_mono (hRest disk hBare) (fun _ => .inr) (fun _ _ => .inr) fun _ _ => id

/-- Everything before the first write only decides whether there is one. -/
theorem runRestore_cases (fs : FileSystem) (wallets : Wallets) (server : Option Transport) (raw : String)
    (nowMs : UInt64) :
    (∃ e, runRestore fs wallets server raw nowMs = Prog.fail e) ∨
    ∃ words transport plan adoptedCount, runRestore fs wallets server raw nowMs = (do
      twoPhaseWrite fs ⟨words, nowMs⟩ plan
      sendBackfill transport plan adoptedCount) := by
  rw [runRestore]
  split
  · exact .inl ⟨_, rfl⟩
  · split
    · exact .inl ⟨_, rfl⟩
    · split
      · exact .inl ⟨_, rfl⟩
      · split
        · exact .inl ⟨_, rfl⟩
        · split
          · exact .inl ⟨_, rfl⟩
          · exact .inr ⟨_, _, _, _, rfl⟩

theorem runRestore_purged (fs : FileSystem) (server : Option Transport) (raw : String) (nowMs : UInt64)
    (h : device.Purged wallets old) :
    (runRestore fs wallets server raw nowMs).wp (Device.Purged wallets old) (fun _ => Device.Purged wallets old)
      (fun _ => Device.Purged wallets old) device := by
  obtain ⟨e, hFail⟩ | ⟨words, transport, plan, adoptedCount, hRun⟩ := runRestore_cases fs wallets server raw nowMs
  · rw [hFail]
    exact Prog.wp_fail h
  · have hSend : Prog.Keeps Device.Bare (sendBackfill transport plan adoptedCount : Prog Device RestoreError Unit) :=
      sendBackfill_inv (fun _ _ h => h) plan adoptedCount
    rw [hRun]
    refine Prog.wp_bind (Prog.wp_post (twoPhaseWrite_purged _ _ h) fun _ disk hBare => ?_)
    exact Prog.wp_mono (hSend disk hBare) (fun _ => .inr) (fun _ _ => .inr) fun _ _ => .inr

theorem writePlanLocal_unrefused {ε : Type} (writes : List (StoreFile × Bytes)) (device : Device) :
    (writePlanLocal writes : Prog Device ε _).Unrefused (fun result _ => result.1 = true) device := by
  induction writes generalizing device with
  | nil => exact Prog.unrefused_pure rfl
  | cons write rest ih =>
    refine Prog.unrefused_bind (Prog.unrefused_attempt (Prog.unrefused_change ?_))
    refine Prog.unrefused_bind (Prog.unrefused_post (ih _) ?_)
    exact fun result disk hComplete => Prog.unrefused_pure hComplete

theorem twoPhaseWrite_unrefused (marker : RestoreMarker) (plan : RestorePlan) (device : Device) :
    (twoPhaseWrite fs marker plan).Unrefused (fun _ _ => True) device := by
  refine Prog.unrefused_bind (Prog.unrefused_bind (Prog.unrefused_change (Prog.unrefused_change ?_)))
  refine Prog.unrefused_bind (Prog.unrefused_bind (Prog.unrefused_read (Prog.unrefused_bind ?_)))
  have hFiles : ∀ disk files, (Prog.each (fun file => Prog.change (Device.mapStore · (·.remove file))
      RestoreError.localWriteFailed) files).Unrefused (fun _ _ => True) disk :=
    fun disk files => Prog.unrefused_each (fun _ _ _ _ => Prog.unrefused_change trivial) trivial
  refine Prog.unrefused_post (hFiles _ _) fun _ disk _ => ?_
  refine Prog.unrefused_bind (Prog.unrefused_change (Prog.unrefused_bind (Prog.unrefused_change ?_)))
  refine Prog.unrefused_change (Prog.unrefused_bind (Prog.unrefused_bind (Prog.unrefused_read ?_)))
  simp only [Option.isSome_none, Bool.false_eq_true, if_false]
  refine Prog.unrefused_bind (Prog.unrefused_change (Prog.unrefused_change ?_))
  refine Prog.unrefused_bind (Prog.unrefused_post (writePlanLocal_unrefused _ _) ?_)
  rintro ⟨complete, log⟩ disk rfl
  simp only [Bool.not_true, Bool.false_eq_true, if_false]
  exact Prog.unrefused_change trivial

theorem sendBackfill_unrefused {ε : Type} (transport : Transport) (plan : RestorePlan) (adoptedCount : Nat)
    (device : Device) :
    (sendBackfill transport plan adoptedCount : Prog Device ε Unit).Unrefused (fun _ _ => True) device := by
  rw [sendBackfill]
  split
  · exact Prog.unrefused_each (fun _ _ _ _ => Prog.unrefused_send trivial) trivial
  · exact Prog.unrefused_pure trivial

/-- A restore that fails at its first write, or without a refused one, leaves the device as it was. -/
theorem runRestore_error {server : Option Transport} {raw : String} {nowMs : UInt64} {fates rest : List Fate}
    {e : RestoreError} {disk : Device} (hFates : fates.head? = some .refused ∨ .refused ∉ fates)
    (hRun : runRestore fs wallets server raw nowMs device fates = .error e disk rest) : disk = device := by
  obtain ⟨e', hFail⟩ | ⟨words, transport, plan, adoptedCount, hRestore⟩ :=
    runRestore_cases fs wallets server raw nowMs
  · rw [hFail] at hRun
    cases hRun
    rfl
  · rw [hRestore] at hRun
    obtain hFirst | hFates := hFates
    · obtain ⟨rest', rfl⟩ := List.head?_eq_some_iff.mp hFirst
      have hMarker : twoPhaseWrite fs ⟨words, nowMs⟩ plan device (.refused :: rest') =
          .error .localWriteFailed device rest' := Prog.bind_error rfl
      rw [Prog.bind_error hMarker] at hRun
      cases hRun
      rfl
    have hWhole : (do
        twoPhaseWrite fs ⟨words, nowMs⟩ plan
        sendBackfill transport plan adoptedCount : Prog Device RestoreError Unit).Unrefused (fun _ _ => True) device :=
      Prog.unrefused_bind (Prog.unrefused_post (twoPhaseWrite_unrefused _ plan device) fun _ disk _ =>
        sendBackfill_unrefused transport plan adoptedCount disk)
    have hNever := hWhole fates hFates
    rw [hRun] at hNever
    exact hNever.elim

end Purging

/-! ## Runs -/

/-- The old files are where the old words are, and a node that read them is only there beside both. -/
structure Host.Inv (wallets : Wallets) (old : String) (host : Host) : Prop where
  purged : host.device.Purged wallets old
  node : host.node = none ∨ host.node = some .empty ∨ host.device.Untouched wallets old

section Runs

variable {fs : FileSystem} {wallets : Wallets} {old : String} {host next : Host}

theorem Host.Inv.create {nowMs : UInt64} (h : host.Inv wallets old)
    (hGuard : host.device.marker.isSome = true → host.device.store.others = ∅) :
    Host.Inv wallets old { host with node := some (.load host.device.store.others nowMs) } := by
  have hEmpty : host.device.Bare → some (Caches.load host.device.store.others nowMs) = some .empty := by
    intro hBare
    rw [show host.device.store.others = ∅ from hBare, Caches.load_empty]
  refine ⟨h.purged, .inr ?_⟩
  cases hMarker : host.device.marker with
  | some marker => exact .inl (hEmpty (hGuard (by rw [hMarker]; rfl)))
  | none =>
    obtain hWords | hBare := h.purged
    · exact .inr ⟨hMarker, hWords⟩
    · exact .inl (hEmpty hBare)

theorem Host.Inv.step {event : HostEvent} (h : host.Inv wallets old) (hGuard : LeakGuard host event)
    (hStep : host.step fs wallets old event = some next) : next.Inv wallets old := by
  cases event with
  | create nowMs =>
    cases hNode : host.node with
    | some caches =>
      rw [Host.step, hNode] at hStep
      cases hStep
    | none =>
      rw [Host.step, hNode] at hStep
      cases hStep
      exact h.create hGuard
  | restore server raw nowMs fates =>
    have hPurged := runRestore_purged fs server raw nowMs h.purged fates
    rw [Host.step] at hStep
    split at hStep
    · cases hStep
    · cases hRun : runRestore fs wallets server raw nowMs host.device fates with
      | ok value disk rest =>
        rw [hRun] at hStep hPurged
        cases hStep
        exact ⟨hPurged, .inr (.inl rfl)⟩
      | error e disk rest =>
        rw [hRun] at hStep
        cases hStep
        cases runRestore_error hGuard hRun
        exact h
      | crashed disk =>
        rw [hRun] at hStep hPurged
        cases hStep
        exact ⟨hPurged, .inl rfl⟩
  | start start =>
    have hPurged := startNode_purged fs start.transport start.generated h.purged start.fates
    have hNode : ∀ disk : Device, (host.device.Untouched wallets old → disk.Untouched wallets old) →
        host.node = none ∨ host.node = some .empty ∨ disk.Untouched wallets old :=
      fun disk hKept => h.node.imp_right fun hNode => hNode.imp_right hKept
    rw [Host.step] at hStep
    split at hStep
    · cases hStep
    · cases hRun : startNode fs wallets start.transport start.generated host.device start.fates with
      | ok result disk rest =>
        rw [hRun] at hStep hPurged
        cases hStep
        refine ⟨hPurged.1, hNode disk fun hOld => ?_⟩
        have hKept := startNode_old fs start.transport start.generated hOld start.fates
        rw [hRun] at hKept
        exact hKept.2
      | error e disk rest =>
        rw [hRun] at hStep hPurged
        cases hStep
        refine ⟨hPurged, hNode disk fun hOld => ?_⟩
        have hKept := startNode_old fs start.transport start.generated hOld start.fates
        rw [hRun] at hKept
        exact hKept
      | crashed disk =>
        rw [hRun] at hStep hPurged
        cases hStep
        exact ⟨hPurged, .inl rfl⟩
  | session caches others =>
    rw [Host.step] at hStep
    split at hStep
    · rename_i hOld
      cases hStep
      exact ⟨.inl hOld.2.words, .inr (.inr ⟨hOld.2.marker, hOld.2.words⟩)⟩
    · cases hStep
  | kill =>
    cases hStep
    exact ⟨h.purged, .inl rfl⟩

end Runs

/-- A run from a wallet under the old words to a start that succeeds under the target's: the memory of its node,
and the device that it starts on. -/
structure Completed (fs : FileSystem) (wallets : Wallets) (old target : String) (before : Host) (caches : Caches)
    (disk : Device) : Prop where
  differ : target ≠ old
  untouched : before.device.Untouched wallets old
  completes : ∃ (events : List HostEvent) (host : Host) (start : NodeStart) (booted : Booted) (rest : List Fate),
    Along (Host.step fs wallets old) LeakGuard before events ∧
    exec (Host.step fs wallets old) before events = some host ∧ host.node = some caches ∧
    startNode fs wallets start.transport start.generated host.device start.fates = .ok (target, booted) disk rest

theorem Completed.clean {fs : FileSystem} {wallets : Wallets} {old target : String} {before : Host} {caches : Caches}
    {disk : Device} (h : Completed fs wallets old target before caches disk) : caches = .empty ∧ disk.Bare := by
  obtain ⟨hDiffer, hUntouched, events, host, start, booted, rest, hGuard, hRun, hNode, hStart⟩ := h
  have hInv : host.Inv wallets old :=
    exec_inv (fun _ _ _ h hGuard hStep => Host.Inv.step h hGuard hStep) ⟨.inl hUntouched.words, .inr (.inr hUntouched)⟩
      hGuard hRun
  have hPurged := startNode_purged fs start.transport start.generated hInv.purged start.fates
  rw [hStart] at hPurged
  refine ⟨?_, hPurged.2 hDiffer⟩
  obtain hNone | hEmpty | hOld := hInv.node
  · cases hNone.symm.trans hNode
  · exact Option.some.inj (hNode.symm.trans hEmpty)
  · have hKept := startNode_old fs start.transport start.generated hOld start.fates
    rw [hStart] at hKept
    exact absurd hKept.1 hDiffer

/-- Whatever the two old wallets were, the restored one goes the same way under the same operations: in memory, on
disk and towards its server. -/
theorem restore_leaks_nothing (fs : FileSystem) (wallets : Wallets) (old old' target : String) (before before' : Host)
    (caches caches' : Caches) (disk disk' : Device) (failure : Nat → Option String) (fails : Nat → Bool)
    (ops : List App.Op) (h : Completed fs wallets old target before caches disk)
    (h' : Completed fs wallets old' target before' caches' disk') :
    (caches.mount disk.store.others failure fails).run ops =
      (caches'.mount disk'.store.others failure fails).run ops := by
  obtain ⟨hCaches, hBare⟩ := h.clean
  obtain ⟨hCaches', hBare'⟩ := h'.clean
  rw [hCaches, hCaches', show disk.store.others = ∅ from hBare, show disk'.store.others = ∅ from hBare']

/-! ## A stale node -/

/-- A node that has read one close record of the old wallet. -/
def staleCaches : Caches :=
  { Caches.empty with
    records := mergeInto ∅ "a" (CloseRecord.skeleton "a" 0)
    keyed := mergeInto_keyed Caches.empty.keyed rfl }

theorem cutRestore_starts : ∃ booted disk,
    startNode sortedFiles anyWords bothServers "generated" (cutRestore false) [] = .ok ("new", booted) disk [] := by
  have hStarts : (startNode sortedFiles anyWords bothServers "generated").Clean
      (RunsOn anyWords (· = oneChannelBackup) "new") (cutRestore false) :=
    startNode_clean ⟨"new", 0⟩ rfl (by rintro server rfl; exact recoverable_oneChannel) (.inl ⟨rfl, rfl⟩) rfl rfl
  obtain ⟨⟨words, booted⟩, disk, hRun, hRuns⟩ := hStarts
  cases hRuns.words
  exact ⟨booted, disk, hRun⟩

/-- Runs in which the restore dies after its first removal and a new process goes on from there. -/
theorem completed_cut (caches : Caches) {booted : Booted} {disk : Device}
    (hStart : startNode sortedFiles anyWords bothServers "generated" (cutRestore false) [] = .ok ("new", booted) disk []) :
    Completed sortedFiles anyWords "old" "new" ⟨oldWallet false, some caches⟩ .empty disk := by
  have hRestore : Host.step sortedFiles anyWords "old" ⟨oldWallet false, some caches⟩
      (.restore (some oneChannelBackup) "new" 0 [.made, .made, .made, .dies]) = some ⟨cutRestore false, none⟩ := by
    simp only [Host.step, runRestore_cut]
  have hCreate : Host.step sortedFiles anyWords "old" ⟨cutRestore false, none⟩ (.create 0) =
      some ⟨cutRestore false, some .empty⟩ := by
    simp only [Host.step]
    rw [show (cutRestore false).store.others = ∅ from rfl, Caches.load_empty]
  refine ⟨by decide, ⟨rfl, rfl⟩, [.restore (some oneChannelBackup) "new" 0 [.made, .made, .made, .dies], .create 0],
    ⟨cutRestore false, some .empty⟩, ⟨bothServers, "generated", []⟩, booted, [], ?_, ?_, rfl, hStart⟩
  · refine ⟨by simp [LeakGuard], fun next hNext => ?_⟩
    cases hRestore.symm.trans hNext
    exact ⟨fun _ => rfl, fun _ _ => trivial⟩
  · simp only [exec, hRestore, Option.bind_some, hCreate]

theorem restore_leaks_nothing_cut : ∃ disk disk',
    Completed sortedFiles anyWords "old" "new" ⟨oldWallet false, some staleCaches⟩ .empty disk ∧
    Completed sortedFiles anyWords "old" "new" ⟨oldWallet false, some .empty⟩ .empty disk' ∧
    ∀ ops : List App.Op, (Caches.empty.mount disk.store.others (fun _ => none) fun _ => false).run ops =
      (Caches.empty.mount disk'.store.others (fun _ => none) fun _ => false).run ops := by
  obtain ⟨booted, disk, hStart⟩ := cutRestore_starts
  refine ⟨disk, disk, completed_cut staleCaches hStart, completed_cut .empty hStart, fun ops => ?_⟩
  exact restore_leaks_nothing sortedFiles anyWords "old" "old" "new" _ _ _ _ _ _ _ _ ops
    (completed_cut staleCaches hStart) (completed_cut .empty hStart)

theorem encodeRecords_lookup {records records' : Records} (h : encodeRecords records = encodeRecords records')
    {channelId : String} {record : CloseRecord} (hRecord : records.lookup channelId = some record) :
    (records'.lookup channelId).isSome = true := by
  injection h with hJson
  have hObject := congrArg Json.asObject hJson
  rw [encodeRecordsMap, encodeRecordsMap, Json.asObject_ofMap, Json.asObject_ofMap, Option.some.injEq] at hObject
  have hEntry := (lookup_encodeRecordsMap records channelId _).mpr ⟨record, hRecord, rfl⟩
  rw [hObject] at hEntry
  obtain ⟨record', hRecord', -⟩ := (lookup_encodeRecordsMap records' channelId _).mp hEntry
  rw [hRecord']
  rfl

/-- A restore whose second removal is refused leaves the node with what it has read. The next start of the same
process completes the restore, and the first close record of the new wallet carries the old one's to its server. -/
theorem stale_records_leak :
    (∀ caches, exec (Host.step sortedFiles anyWords "old") ⟨oldWallet false, some caches⟩
      [.restore (some oneChannelBackup) "new" 0 [.made, .made, .made, .refused]] =
        some ⟨cutRestore false, some caches⟩) ∧
    ∃ booted disk, startNode sortedFiles anyWords bothServers "generated" (cutRestore false) [] =
        .ok ("new", booted) disk [] ∧
      ((staleCaches.mount disk.store.others (fun _ => none) fun _ => false).run
          [.upsert (CloseRecord.skeleton "b" 0)]).pushed ≠
        ((Caches.empty.mount disk.store.others (fun _ => none) fun _ => false).run
          [.upsert (CloseRecord.skeleton "b" 0)]).pushed := by
  constructor
  · intro caches
    have hRestore : runRestore sortedFiles anyWords (some oneChannelBackup) "new" 0 (oldWallet false)
        [.made, .made, .made, .refused] = .error .localWriteFailed (cutRestore false) [] := by
      rw [runRestore_oneChannel]
      refine Prog.bind_error ?_
      rfl
    simp only [exec, Host.step, hRestore, Option.bind_some]
  · obtain ⟨booted, disk, hStart⟩ := cutRestore_starts
    refine ⟨booted, disk, hStart, ?_⟩
    intro hSame
    injection hSame with hPut
    injection hPut with _ hBytes
    have hFound : (mergeInto (mergeInto ∅ "a" (CloseRecord.skeleton "a" 0)) "b" (CloseRecord.skeleton "b" 0)).lookup "a" =
        some (CloseRecord.skeleton "a" 0) := by decide +kernel
    have hMissing : ((mergeInto ∅ "b" (CloseRecord.skeleton "b" 0)).lookup "a").isSome ≠ true := by decide +kernel
    exact hMissing (encodeRecords_lookup hBytes hFound)

end WalletCore.Restore
