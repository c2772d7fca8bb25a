import WalletCore.Restore.Recovery

/-! # A restore that is cut off

The marker with the target words is on disk before anything of the old wallet goes and until everything of
the target is there. From the moment it is filled, every start leads to the target wallet, wherever the
restore or an earlier start was cut off. Two prefixes escape this: the marker that is created and not yet
filled, and the fenced flag that is still there when a start looks at it.
-/

namespace WalletCore.Restore

open Lib Vss

/-! ## The marker on disk -/

theorem readMarker_encode {device : Device} {marker : RestoreMarker} (h : device.marker = some marker.encode) :
    readMarker device = some marker := by
  rw [readMarker, h, Option.bind_some, RestoreMarker.encode, Bytes.fromSlice_ofJson, Option.bind_some, readMarkerJson]
  rfl

namespace Device

/-- The filled marker, and no fence before it. -/
structure Restoring (marker : RestoreMarker) (device : Device) : Prop where
  marker : device.marker = some marker.encode
  unfenced : device.fencedFlag = false

/-- The words and the channel state of a wallet, and nothing in the way of a start. -/
structure Holds (wallets : Wallets) (wallet : String) (device : Device) : Prop where
  marker : device.marker = none
  unfenced : device.fencedFlag = false
  words : device.mnemonic.bind wallets.parseMnemonic = some wallet
  whole : device.store.Whole (wallets.node wallet)

/-- The restore is under way, or it is through and the channel state is that of a backup. -/
def Committed (wallets : Wallets) (backups : Transport → Prop) (marker : RestoreMarker) (device : Device) : Prop :=
  device.Restoring marker ∨ device.Holds wallets marker.mnemonic ∧
    ∃ server, backups server ∧ device.store.OfBackup (wallets.node marker.mnemonic) server

end Device

section Pieces

variable {fs : FileSystem} {wallets : Wallets} {ε : Type} {e : ε}

theorem clearLocalWalletState_inv {inv : Device → Prop} (hStore : ∀ disk f, inv disk → inv (disk.mapStore f))
    (hWords : ∀ disk : Device, inv disk → inv { disk with mnemonic := none })
    (hFlag : ∀ disk : Device, inv disk → inv { disk with fencedFlag := false }) :
    Prog.Keeps inv (clearLocalWalletState fs e) := by
  refine Prog.keeps_bind (Prog.keeps_read _) fun files => Prog.keeps_bind ?_ fun _ => ?_
  · exact Prog.keeps_each fun file _ => Prog.keeps_change e fun disk => hStore disk _
  · refine Prog.keeps_bind (Prog.keeps_change e fun disk => hStore disk _) fun _ => ?_
    exact Prog.keeps_bind (Prog.keeps_change e hWords) fun _ => Prog.keeps_change e hFlag

/-- Nothing is left of the old wallet. -/
structure Device.Cleared (device : Device) : Prop where
  store : device.store = .empty
  mnemonic : device.mnemonic = none
  unfenced : device.fencedFlag = false

theorem clearLocalWalletState_cleared (device : Device) :
    (clearLocalWalletState fs e).wp (fun _ => True) (fun _ _ => True) (fun _ => Device.Cleared) device := by
  refine Prog.wp_bind (Prog.wp_read (Prog.wp_bind (Prog.wp_post (Prog.wp_true _ _) fun _ disk _ => ?_)))
  refine Prog.wp_bind (Prog.wp_change trivial trivial (Prog.wp_bind (Prog.wp_change trivial trivial ?_)))
  exact Prog.wp_change trivial trivial ⟨rfl, rfl, rfl⟩

theorem clearLocalWalletState_clean (device : Device) :
    (clearLocalWalletState fs e).Clean (fun _ => Device.Cleared) device := by
  refine Prog.clean_bind (Prog.clean_read (Prog.clean_bind ?_))
  have hFiles : (Prog.each (fun file => Prog.change (Device.mapStore · (·.remove file)) e)
      (fs.listFiles device.store)).Clean (fun _ _ => True) device :=
    Prog.clean_each (fun _ _ _ _ => Prog.clean_change trivial) trivial
  refine Prog.clean_post hFiles fun _ disk _ => ?_
  refine Prog.clean_bind (Prog.clean_change (Prog.clean_bind (Prog.clean_change ?_)))
  exact Prog.clean_change ⟨rfl, rfl, rfl⟩

theorem writeMnemonic_inv {inv : Device → Prop}
    (hWords : ∀ (disk : Device) words, inv disk → inv { disk with mnemonic := some words }) (words : String)
    (exists' : ε) : Prog.Keeps inv (writeMnemonic words exists' e) := by
  refine Prog.keeps_bind (Prog.keeps_read _) fun found => ?_
  split
  · exact Prog.keeps_fail _
  · refine Prog.keeps_bind (Prog.keeps_change e fun disk => hWords disk _) fun _ => ?_
    exact Prog.keeps_change e fun disk => hWords disk _

theorem writeMnemonic_written {words : String} {exists' : ε} (device : Device) :
    (writeMnemonic words exists' e).wp (fun _ => True) (fun _ _ => True)
      (fun _ disk => disk = { device with mnemonic := some words }) device := by
  refine Prog.wp_bind (Prog.wp_read ?_)
  split
  · exact Prog.wp_fail trivial
  · exact Prog.wp_bind (Prog.wp_change trivial trivial (Prog.wp_change trivial trivial rfl))

theorem writeMnemonic_clean {words : String} {exists' : ε} {device : Device} (h : device.mnemonic = none) :
    (writeMnemonic words exists' e).Clean (fun _ disk => disk = { device with mnemonic := some words }) device := by
  refine Prog.clean_bind (Prog.clean_read ?_)
  simp only [h, Option.isSome_none, Bool.false_eq_true, if_false]
  exact Prog.clean_bind (Prog.clean_change (Prog.clean_change rfl))

end Pieces

/-! ## A start over a filled marker -/

/-- What a start does once the marker is dealt with. -/
def startResumed (fs : FileSystem) (wallets : Wallets) (transport : String → Option Transport) (generated : String) :
    Start (String × Booted) := do
  checkFence
  let words ← readOrGenerateMnemonic wallets generated
  match transport words with
  | none =>
    if ← Prog.read (·.marker.isSome) then Prog.fail .restoreInProgress
    else return (words, ← loadChannelManager (wallets.node words) false)
  | some transport => return (words, ← bootChannels fs (wallets.node words) transport)

theorem startNode_eq (fs : FileSystem) (wallets : Wallets) (transport : String → Option Transport)
    (generated : String) :
    startNode fs wallets transport generated = (do
      checkFence
      prepareMarkerResume fs wallets
      startResumed fs wallets transport generated) := rfl

section Starts

variable {fs : FileSystem} {wallets : Wallets} {marker : RestoreMarker} {device : Device}

theorem checkFence_open (h : device.fencedFlag = false) (fates : List Fate) :
    checkFence device fates = .ok () device fates := by
  refine (Prog.bind_ok rfl).trans ?_
  simp only [h]
  rfl

theorem readOrGenerateMnemonic_words {words generated : String}
    (h : device.mnemonic.bind wallets.parseMnemonic = some words) (fates : List Fate) :
    readOrGenerateMnemonic wallets generated device fates = .ok words device fates := by
  obtain ⟨raw, hRaw, hParse⟩ := Option.bind_eq_some_iff.mp h
  refine (Prog.bind_ok rfl).trans ?_
  simp only [id, hRaw, hParse]
  rfl

theorem prepareMarkerResume_unmarked (h : device.marker = none) (fates : List Fate) :
    prepareMarkerResume fs wallets device fates = .ok () device fates := by
  refine (Prog.bind_ok rfl).trans ?_
  simp only [id, readMarker, h, Option.bind_none]
  rfl

theorem startResumed_boots {words generated : String} {transport : String → Option Transport} {server : Transport}
    (hUnfenced : device.fencedFlag = false) (hWords : device.mnemonic.bind wallets.parseMnemonic = some words)
    (hServer : transport words = some server) (fates : List Fate) :
    startResumed fs wallets transport generated device fates =
      (do return (words, ← bootChannels fs (wallets.node words) server) : Start (String × Booted)) device fates := by
  refine (Prog.bind_ok (checkFence_open hUnfenced fates)).trans ?_
  refine (Prog.bind_ok (readOrGenerateMnemonic_words hWords fates)).trans ?_
  simp only [hServer]

variable (fs) in
theorem prepareMarkerResume_restoring (hTarget : wallets.parseMnemonic marker.mnemonic = some marker.mnemonic)
    (h : device.Restoring marker) :
    (prepareMarkerResume fs wallets).wp (Device.Restoring marker) (fun _ => Device.Restoring marker)
      (fun _ disk => disk.Restoring marker ∧ disk.mnemonic.bind wallets.parseMnemonic = some marker.mnemonic)
      device := by
  refine Prog.wp_bind (Prog.wp_read ?_)
  simp only [id, readMarker_encode h.marker, hTarget]
  split
  · rename_i hWords
    exact Prog.wp_pure ⟨h, hWords⟩
  · have hClear : Prog.Keeps (Device.Restoring marker) (clearLocalWalletState fs BuildError.writeFailed) :=
      clearLocalWalletState_inv (fun _ _ h => ⟨h.marker, h.unfenced⟩) (fun _ h => ⟨h.marker, h.unfenced⟩)
        fun _ h => ⟨h.marker, rfl⟩
    refine Prog.wp_bind (Prog.wp_post (Prog.wp_keeps hClear h (Prog.wp_true _ _)) ?_)
    rintro - disk ⟨hRestoring, -⟩
    have hWrite : Prog.Keeps (Device.Restoring marker)
        (writeMnemonic marker.mnemonic BuildError.mnemonicExists .writeFailed) :=
      writeMnemonic_inv (fun _ _ h => ⟨h.marker, h.unfenced⟩) _ _
    refine Prog.wp_post (Prog.wp_keeps hWrite hRestoring (writeMnemonic_written disk)) ?_
    rintro - after ⟨hRestoring, rfl⟩
    exact ⟨hRestoring, hTarget⟩

theorem prepareMarkerResume_clean (hTarget : wallets.parseMnemonic marker.mnemonic = some marker.mnemonic)
    (h : device.Restoring marker) :
    (prepareMarkerResume fs wallets).Clean (fun _ disk => disk.Restoring marker ∧
      disk.mnemonic.bind wallets.parseMnemonic = some marker.mnemonic) device := by
  refine Prog.clean_of_wp (prepareMarkerResume_restoring fs hTarget h) ?_
  refine Prog.clean_bind (Prog.clean_read ?_)
  simp only [id, readMarker_encode h.marker, hTarget]
  split
  · exact Prog.clean_pure trivial
  · refine Prog.clean_bind (Prog.clean_post (clearLocalWalletState_clean device) ?_)
    intro _ disk hCleared
    exact Prog.clean_post (writeMnemonic_clean hCleared.mnemonic) fun _ _ _ => trivial

/-- The node runs under the given words on the channels of a backup. -/
structure RunsOn (wallets : Wallets) (backups : Transport → Prop) (wallet : String) (result : String × Booted)
    (disk : Device) : Prop where
  words : result.1 = wallet
  booted : BootedOn (wallets.node wallet) result.2 disk
  backup : ∃ server, backups server ∧ disk.store.OfBackup (wallets.node wallet) server

section Committed

variable {backups : Transport → Prop} (hTarget : wallets.parseMnemonic marker.mnemonic = some marker.mnemonic)
  (hBackups : ∀ server, backups server → Recoverable (wallets.node marker.mnemonic) server)
  (h : device.Committed wallets backups marker)

include h in
theorem committed_sound : device.Sound (wallets.node marker.mnemonic) := by
  obtain hRestoring | ⟨hHolds, -⟩ := h
  · exact .inl (by rw [hRestoring.marker]; rfl)
  · exact .inr (.inr hHolds.whole)

include h in
theorem committed_unfenced : device.fencedFlag = false := by
  obtain hRestoring | ⟨hHolds, -⟩ := h
  · exact hRestoring.unfenced
  · exact hHolds.unfenced

include hTarget h in
theorem prepareMarkerResume_committed :
    (prepareMarkerResume fs wallets).wp (Device.Committed wallets backups marker)
      (fun _ => Device.Committed wallets backups marker)
      (fun _ disk => disk.Committed wallets backups marker ∧
        disk.mnemonic.bind wallets.parseMnemonic = some marker.mnemonic) device := by
  obtain hRestoring | hHolds := h
  · refine Prog.wp_mono (prepareMarkerResume_restoring fs hTarget hRestoring) (fun _ => .inl) (fun _ _ => .inl) ?_
    exact fun _ _ hDisk => ⟨.inl hDisk.1, hDisk.2⟩
  · intro fates
    rw [prepareMarkerResume_unmarked hHolds.1.marker fates]
    exact ⟨.inr hHolds, hHolds.1.words⟩

include hBackups h in
/-- A boot under the target words, from the marker or from the restored state. -/
theorem bootChannels_committed {server : Transport} (hServer : backups server)
    (hWords : device.mnemonic.bind wallets.parseMnemonic = some marker.mnemonic) :
    (bootChannels fs (wallets.node marker.mnemonic) server).wp (Device.Committed wallets backups marker)
      (fun _ => Device.Committed wallets backups marker)
      (fun booted disk => RunsOn wallets backups marker.mnemonic (marker.mnemonic, booted) disk ∧
        disk.Committed wallets backups marker) device := by
  have hBackup := hBackups server hServer
  obtain hRestoring | ⟨hHolds, hOfBackup⟩ := h
  · have hMarked := establishVssState_marked fs hRestoring.marker hBackup
    have hKept := establishVssState_kept fs (wallets.node marker.mnemonic) server device device .refl
    have hUnfenced : ∀ {disk}, device.Kept server disk → disk.fencedFlag = false :=
      fun hKept => hKept.fencedFlag.trans hRestoring.unfenced
    refine Prog.wp_bind (Prog.wp_mono (Prog.wp_and hMarked hKept) ?_ ?_ ?_)
    · exact fun disk hDisk => .inl ⟨hDisk.1, hUnfenced hDisk.2⟩
    · exact fun _ disk hDisk => .inl ⟨hDisk.1, hUnfenced hDisk.2⟩
    · rintro state disk ⟨hStore, hKept⟩ fates
      have hWhole := hBackup.whole hStore
      obtain ⟨booted, hBooted, hRun⟩ := loadChannelManager_whole hWhole state.remote fates
      rw [hRun]
      refine ⟨⟨rfl, hBooted, server, hServer, hStore⟩, ?_⟩
      obtain hMarker | hMarker := hKept.marker
      · exact .inl ⟨hMarker.trans hRestoring.marker, hUnfenced hKept⟩
      · exact .inr ⟨⟨hMarker, hUnfenced hKept, hKept.mnemonic ▸ hWords, hWhole⟩, server, hServer, hStore⟩
  · intro fates
    obtain ⟨listing, -, -, hListing, hSome, -⟩ := hBackup
    obtain ⟨state, hState⟩ := establishVssState_own fs hHolds.marker hHolds.whole hListing hSome fates
    obtain ⟨booted, hBooted, hRun⟩ := loadChannelManager_whole hHolds.whole state.remote fates
    have hBoot : bootChannels fs (wallets.node marker.mnemonic) server device fates = .ok booted device fates :=
      (Prog.bind_ok hState).trans hRun
    rw [hBoot]
    exact ⟨⟨rfl, hBooted, hOfBackup⟩, .inr ⟨hHolds, hOfBackup⟩⟩

variable {transport : String → Option Transport} {generated : String} {server : Transport}
  (hServer : backups server) (hTransport : transport marker.mnemonic = some server)

variable (fs generated) in
include hTarget hBackups h hServer hTransport in
/-- A start over a committed restore: wherever it ends, the restore stays committed, and when it succeeds it
runs on the target's channels. -/
theorem startNode_committed :
    (startNode fs wallets transport generated).wp (Device.Committed wallets backups marker)
      (fun _ => Device.Committed wallets backups marker)
      (fun result disk => RunsOn wallets backups marker.mnemonic result disk ∧
        disk.Committed wallets backups marker) device := by
  rw [startNode_eq]
  intro fates
  rw [Prog.bind_ok (checkFence_open (committed_unfenced h) fates)]
  refine Prog.wp_bind (Prog.wp_post (prepareMarkerResume_committed hTarget h) ?_) fates
  rintro - disk ⟨hCommitted, hWords⟩ rest
  rw [startResumed_boots (committed_unfenced hCommitted) hWords hTransport]
  refine Prog.wp_bind (Prog.wp_post (bootChannels_committed hBackups hCommitted hServer hWords) ?_) rest
  exact fun booted after hAfter => Prog.wp_pure hAfter

variable (marker) in
include hTarget hBackups h hServer hTransport in
/-- When nothing happens to a start over a committed restore, it succeeds. -/
theorem startNode_clean :
    (startNode fs wallets transport generated).Clean (RunsOn wallets backups marker.mnemonic) device := by
  have hRuns := startNode_committed fs hTarget hBackups h generated hServer hTransport
  refine Prog.clean_post (Prog.clean_of_wp hRuns ?_) fun _ _ => And.left
  have hResume : (prepareMarkerResume fs wallets).Clean (fun _ disk => disk.Committed wallets backups marker ∧
      disk.mnemonic.bind wallets.parseMnemonic = some marker.mnemonic) device := by
    refine Prog.clean_of_wp (prepareMarkerResume_committed hTarget h) ?_
    obtain hRestoring | ⟨hHolds, -⟩ := h
    · exact Prog.clean_post (prepareMarkerResume_clean hTarget hRestoring) fun _ _ _ => trivial
    · exact ⟨(), device, prepareMarkerResume_unmarked hHolds.marker [], trivial⟩
  rw [startNode_eq]
  refine Prog.clean_bind ⟨(), device, checkFence_open (committed_unfenced h) [], ?_⟩
  refine Prog.clean_bind (Prog.clean_post hResume ?_)
  rintro - disk ⟨hCommitted, hWords⟩
  rw [Prog.Clean, startResumed_boots (committed_unfenced hCommitted) hWords hTransport]
  have hBoot : (bootChannels fs (wallets.node marker.mnemonic) server).Clean _ disk :=
    (committed_sound hCommitted).recovers server (hBackups server hServer)
  exact Prog.clean_bind (Prog.clean_post hBoot fun booted _ _ => Prog.clean_pure trivial)

end Committed

end Starts

/-! ## The restore up to any of its changes -/

/-- The restore does not stop between the creation of the marker and its filling, and over a fenced device it
gets past the removal of the flag. -/
def RestoreGuard (fs : FileSystem) (device : Device) (fates : List Fate) : Prop :=
  (∀ fate rest, fates = .made :: fate :: rest → fate = .made) ∧
  (device.fencedFlag = true → Prog.Made (2 + ((fs.listFiles device.store).length + 3)) fates)

/-- What follows the clear. -/
def writeRestored (marker : RestoreMarker) (plan : RestorePlan) : Prog Device RestoreError Unit := do
  writeMnemonic marker.mnemonic .localWriteFailed .localWriteFailed
  let (complete, _) ← writePlanLocal plan.localWrites
  if !complete then Prog.fail .localWriteFailed
  else Prog.change Device.removeMarker .localWriteFailed

theorem twoPhaseWrite_eq (fs : FileSystem) (marker : RestoreMarker) (plan : RestorePlan) :
    twoPhaseWrite fs marker plan = (do
      writeMarker marker .localWriteFailed
      clearLocalWalletState fs .localWriteFailed
      writeRestored marker plan) := rfl

/-- The end of the two-phase write: the target's words, and the plan in an otherwise empty store. -/
structure Device.Installed (wallets : Wallets) (target : String) (plan : RestorePlan) (device : Device) : Prop where
  marker : device.marker = none
  unfenced : device.fencedFlag = false
  words : device.mnemonic.bind wallets.parseMnemonic = some target
  store : device.store = KvStore.empty.writeAll plan.localWrites

section Restores

variable {fs : FileSystem} {wallets : Wallets} {marker : RestoreMarker} {device : Device} {fates : List Fate}

variable (marker device) in
theorem writeMarker_cases {ε : Type} (e : ε) (h : ∀ fate rest, fates = .made :: fate :: rest → fate = .made) :
    (∃ rest, writeMarker marker e device fates = .error e device rest) ∨
    writeMarker marker e device fates = .crashed device ∨
    writeMarker marker e device fates = .ok () { device with marker := some marker.encode } (fates.drop 2) := by
  rcases fates with _ | ⟨_ | _ | _, _ | ⟨fate, rest⟩⟩
  · exact .inr (.inr rfl)
  · exact .inr (.inr rfl)
  · cases h fate rest rfl
    exact .inr (.inr rfl)
  · exact .inl ⟨[], rfl⟩
  · exact .inl ⟨fate :: rest, rfl⟩
  · exact .inr (.inl rfl)
  · exact .inr (.inl rfl)

variable (device) in
theorem clearLocalWalletState_made {ε : Type} (e : ε)
    (h : Prog.Made ((fs.listFiles device.store).length + 3) fates) :
    ∃ disk rest, clearLocalWalletState fs e device fates = .ok () disk rest ∧ disk.Cleared ∧
      disk.marker = device.marker := by
  have hMarker : ∀ (files : List StoreFile) (disk : Device),
      (files.foldl (fun disk file => disk.mapStore (·.remove file)) disk).marker = disk.marker := by
    intro files
    induction files with
    | nil => exact fun _ => rfl
    | cons file rest ih => exact fun disk => ih _
  have hStore : Prog.Made (1 + 2) (fates.drop (fs.listFiles device.store).length) := h.later
  have hWords : Prog.Made (1 + 1) ((fates.drop (fs.listFiles device.store).length).drop 1) := hStore.later
  let removed := (fs.listFiles device.store).foldl (fun disk file => disk.mapStore (·.remove file)) device
  refine ⟨⟨.empty, none, removed.marker, false, removed.sent⟩,
    (((fates.drop (fs.listFiles device.store).length).drop 1).drop 1).drop 1, ?_, ⟨rfl, rfl, rfl⟩, hMarker _ device⟩
  refine (Prog.bind_ok rfl).trans ((Prog.bind_ok (Prog.each_change_made h.first device)).trans ?_)
  refine (Prog.bind_ok (Prog.change_made hStore.first _)).trans ?_
  exact (Prog.bind_ok (Prog.change_made hWords.first _)).trans (Prog.change_made hWords.later _)

theorem writeRestored_restoring (plan : RestorePlan) (hTarget : wallets.parseMnemonic marker.mnemonic = some marker.mnemonic)
    (hRestoring : device.Restoring marker) (hCleared : device.Cleared) :
    (writeRestored marker plan).wp (Device.Restoring marker) (fun _ => Device.Restoring marker)
      (fun _ => Device.Installed wallets marker.mnemonic plan) device := by
  have hWrite : Prog.Keeps (Device.Restoring marker)
      (writeMnemonic marker.mnemonic RestoreError.localWriteFailed .localWriteFailed) :=
    writeMnemonic_inv (fun _ _ h => ⟨h.marker, h.unfenced⟩) _ _
  refine Prog.wp_bind (Prog.wp_post (Prog.wp_keeps hWrite hRestoring (writeMnemonic_written device)) ?_)
  rintro - disk ⟨hRestoring, rfl⟩
  have hPlan : Prog.Keeps (Device.Restoring marker) (writePlanLocal plan.localWrites : Prog Device RestoreError _) :=
    writePlanLocal_inv fun _ _ _ h => ⟨h.marker, h.unfenced⟩
  refine Prog.wp_bind (Prog.wp_post (Prog.wp_keeps hPlan hRestoring (writePlanLocal_complete _ _)) ?_)
  rintro ⟨complete, log⟩ disk ⟨hRestoring, hComplete⟩
  dsimp only
  split
  · exact Prog.wp_fail hRestoring
  · rename_i hDone
    have hDisk := hComplete (by simpa using hDone)
    refine Prog.wp_change hRestoring hRestoring ?_
    refine ⟨rfl, hRestoring.unfenced, ?_, ?_⟩
    · rw [hDisk]
      exact hTarget
    · rw [hDisk]
      exact congrArg (KvStore.writeAll · plan.localWrites) hCleared.store

/-- Where the two-phase write stops: before anything is done, over the filled marker, or at its end. -/
theorem twoPhaseWrite_cases (marker : RestoreMarker) (plan : RestorePlan)
    (hTarget : wallets.parseMnemonic marker.mnemonic = some marker.mnemonic) (hGuard : RestoreGuard fs device fates) :
    (twoPhaseWrite fs marker plan device fates).Meets (fun disk => disk = device ∨ disk.Restoring marker)
      (fun _ disk => disk = device ∨ disk.Restoring marker) (fun _ => Device.Installed wallets marker.mnemonic plan) := by
  rw [twoPhaseWrite_eq]
  obtain ⟨rest, hRun⟩ | hRun | hRun := writeMarker_cases marker device RestoreError.localWriteFailed hGuard.1
  · rw [Prog.bind_error hRun]
    exact .inl rfl
  · rw [Prog.bind_crashed hRun]
    exact .inl rfl
  · rw [Prog.bind_ok hRun]
    obtain hFenced | hFenced := Bool.eq_false_or_eq_true device.fencedFlag
    · obtain ⟨disk, more, hClear, hCleared, hMarker⟩ := clearLocalWalletState_made
        { device with marker := some marker.encode } RestoreError.localWriteFailed (hGuard.2 hFenced).later
      rw [Prog.bind_ok hClear]
      have hRest := writeRestored_restoring plan hTarget ⟨hMarker, hCleared.unfenced⟩ hCleared
      exact (hRest more).mono (fun _ => .inr) (fun _ _ => .inr) fun _ _ => id
    · have hStart : Device.Restoring marker { device with marker := some marker.encode } := ⟨rfl, hFenced⟩
      have hClear : Prog.Keeps (Device.Restoring marker) (clearLocalWalletState fs RestoreError.localWriteFailed) :=
        clearLocalWalletState_inv (fun _ _ h => ⟨h.marker, h.unfenced⟩) (fun _ h => ⟨h.marker, h.unfenced⟩)
          fun _ h => ⟨h.marker, rfl⟩
      have hRest := Prog.wp_bind (Prog.wp_post (Prog.wp_keeps hClear hStart (clearLocalWalletState_cleared _))
        fun _ disk hDisk => writeRestored_restoring plan hTarget hDisk.1 hDisk.2)
      exact (hRest (fates.drop 2)).mono (fun _ => .inr) (fun _ _ => .inr) fun _ _ => id

/-- A restore leaves the device as it was, or commits it to the target. -/
theorem runRestore_committed {backups : Transport → Prop} {raw target : String} (nowMs : UInt64) {server : Transport}
    (hTarget : wallets.parseMnemonic raw = some target) (hServer : backups server)
    (hBackup : Recoverable (wallets.node target) server) (hGuard : RestoreGuard fs device fates) :
    let disk := (runRestore fs wallets (some server) raw nowMs device fates).disk
    disk = device ∨ disk.Committed wallets backups ⟨target, nowMs⟩ := by
  obtain ⟨listing, plan, adoptedCount, hListing, hSome, hPlan, hWhole⟩ := hBackup
  have hWrite := twoPhaseWrite_cases ⟨target, nowMs⟩ plan (wallets.parse_words raw target hTarget) hGuard
  simp only [runRestore, hTarget, hListing, List.isEmpty_eq_false_iff.mpr hSome, Bool.false_eq_true, if_false, hPlan]
  have hInstalled : ∀ disk : Device, disk.Installed wallets target plan →
      disk.Committed wallets backups ⟨target, nowMs⟩ := by
    intro disk hDisk
    have hStore : disk.store.SameLdk (KvStore.empty.writeAll plan.localWrites) := by
      rw [hDisk.store]
      exact ⟨rfl, rfl⟩
    refine .inr ⟨⟨hDisk.marker, hDisk.unfenced, hDisk.words, hStore.whole hWhole⟩, server, hServer, ?_⟩
    exact ⟨listing, plan, adoptedCount, hListing, hPlan, hStore⟩
  have hSend : Prog.Keeps (Device.Installed wallets target plan)
      (sendBackfill server plan adoptedCount : Prog Device RestoreError Unit) :=
    sendBackfill_inv (fun _ _ h => ⟨h.marker, h.unfenced, h.words, h.store⟩) plan adoptedCount
  let Done (disk : Device) : Prop := disk = device ∨ disk.Committed wallets backups ⟨target, nowMs⟩
  suffices hMeets : Outcome.Meets _ Done (fun _ => Done) (fun _ => Done) from hMeets.disk
  refine Prog.bind_meets (hWrite.mono ?_ ?_ ?_)
  · exact fun disk hDisk => hDisk.imp_right .inl
  · exact fun _ disk hDisk => hDisk.imp_right .inl
  · intro _ disk hDisk
    refine Prog.wp_mono (hSend disk hDisk) ?_ ?_ ?_
    · exact fun after hAfter => .inr (hInstalled after hAfter)
    · exact fun _ after hAfter => .inr (hInstalled after hAfter)
    · exact fun _ after hAfter => .inr (hInstalled after hAfter)

end Restores

/-! ## Starts of a wallet that is on disk -/

def Device.SameDisk (device disk : Device) : Prop := ∃ sent, disk = { device with sent := sent }

section Untouched

variable {fs : FileSystem} {wallets : Wallets} {wallet : String} {device : Device}

theorem Device.SameDisk.trans {other disk : Device} (h : device.SameDisk other) (h' : other.SameDisk disk) :
    device.SameDisk disk := by
  obtain ⟨_, rfl⟩ := h
  obtain ⟨sent, rfl⟩ := h'
  exact ⟨sent, rfl⟩

theorem Device.SameDisk.holds {disk : Device} (h : device.SameDisk disk) (hHolds : device.Holds wallets wallet) :
    disk.Holds wallets wallet := by
  obtain ⟨sent, rfl⟩ := h
  exact ⟨hHolds.marker, hHolds.unfenced, hHolds.words, hHolds.whole⟩

theorem migrate_untouched (transport : Transport) (store : KvStore) (entries : List (String × Bytes)) :
    (migrate transport store entries).wp device.SameDisk (fun _ => device.SameDisk) (fun _ => device.SameDisk)
      device := by
  refine Prog.wp_bind (Prog.wp_send ⟨_, rfl⟩ ?_)
  split
  · exact Prog.wp_pure ⟨_, rfl⟩
  · exact Prog.wp_pure ⟨_, rfl⟩

theorem establishVssState_untouched (hMarker : device.marker = none) {node : Node} (hWhole : device.store.Whole node)
    (transport : Transport) :
    (establishVssState fs node transport).wp device.SameDisk (fun _ => device.SameDisk) (fun _ => device.SameDisk)
      device := by
  obtain ⟨manager, files, funded, hManager, hFiles, -⟩ := hWhole
  refine Prog.wp_bind (Prog.wp_read ?_)
  simp only [id, hMarker, hManager, Option.isSome_none, Option.isNone_some, Bool.false_and, Bool.or_self,
    Bool.false_eq_true, if_false, hFiles]
  split
  · exact Prog.wp_fail ⟨_, rfl⟩
  · split
    · exact migrate_untouched _ _ _
    · exact Prog.wp_pure ⟨_, rfl⟩

variable (fs) in
theorem startNode_untouched (hHolds : device.Holds wallets wallet) (transport : String → Option Transport)
    (generated : String) :
    (startNode fs wallets transport generated).wp device.SameDisk (fun _ => device.SameDisk)
      (fun result disk => (result.1 = wallet ∧ BootedOn (wallets.node wallet) result.2 disk) ∧ device.SameDisk disk)
      device := by
  have hLoad : ∀ disk, device.SameDisk disk → ∀ remote, (loadChannelManager (wallets.node wallet) remote).wp
      device.SameDisk (fun _ => device.SameDisk)
      (fun booted disk => BootedOn (wallets.node wallet) booted disk ∧ device.SameDisk disk) disk := by
    intro disk hDisk remote fates
    obtain ⟨booted, hBooted, hRun⟩ := loadChannelManager_whole (hDisk.holds hHolds).whole remote fates
    rw [hRun]
    exact ⟨hBooted, hDisk⟩
  intro fates
  rw [startNode_eq, Prog.bind_ok (checkFence_open hHolds.unfenced fates),
    Prog.bind_ok (prepareMarkerResume_unmarked hHolds.marker fates), startResumed,
    Prog.bind_ok (checkFence_open hHolds.unfenced fates), Prog.bind_ok (readOrGenerateMnemonic_words hHolds.words fates)]
  cases transport wallet with
  | none =>
    refine Prog.wp_bind (Prog.wp_read ?_) fates
    simp only [hHolds.marker, Option.isSome_none, Bool.false_eq_true, if_false]
    refine Prog.wp_bind (Prog.wp_post (hLoad device ⟨_, rfl⟩ false) ?_)
    exact fun booted disk hDisk => Prog.wp_pure ⟨⟨rfl, hDisk.1⟩, hDisk.2⟩
  | some server =>
    have hBoot : (bootChannels fs (wallets.node wallet) server).wp device.SameDisk (fun _ => device.SameDisk)
        (fun booted disk => BootedOn (wallets.node wallet) booted disk ∧ device.SameDisk disk) device :=
      Prog.wp_bind (Prog.wp_post (establishVssState_untouched hHolds.marker hHolds.whole server)
        fun state disk hDisk => hLoad disk hDisk state.remote)
    refine Prog.wp_bind (Prog.wp_post hBoot ?_) fates
    exact fun booted disk hDisk => Prog.wp_pure ⟨⟨rfl, hDisk.1⟩, hDisk.2⟩

/-- The server lists the keys of this wallet, if there is a server at all. -/
def Answers (transport : String → Option Transport) (wallet : String) : Prop :=
  ∀ server, transport wallet = some server → ∃ listing, server.listKeyVersions = .ok listing

theorem startNode_holds {transport : String → Option Transport} (hHolds : device.Holds wallets wallet)
    (hAnswers : Answers transport wallet) (generated : String) :
    (startNode fs wallets transport generated).Clean
      (fun result disk => result.1 = wallet ∧ BootedOn (wallets.node wallet) result.2 disk) device := by
  refine Prog.clean_post (Prog.clean_of_wp (startNode_untouched fs hHolds transport generated) ?_) fun _ _ => And.left
  have hLoad : ∀ disk, device.SameDisk disk → ∀ remote,
      (loadChannelManager (wallets.node wallet) remote).Clean (fun _ _ => True) disk := by
    intro disk hDisk remote
    obtain ⟨booted, -, hRun⟩ := loadChannelManager_whole (hDisk.holds hHolds).whole remote []
    exact ⟨booted, disk, hRun, trivial⟩
  rw [Prog.Clean, startNode_eq, Prog.bind_ok (checkFence_open hHolds.unfenced []),
    Prog.bind_ok (prepareMarkerResume_unmarked hHolds.marker []), startResumed,
    Prog.bind_ok (checkFence_open hHolds.unfenced []), Prog.bind_ok (readOrGenerateMnemonic_words hHolds.words [])]
  cases hTransport : transport wallet with
  | none =>
    refine Prog.clean_bind (Prog.clean_read ?_)
    simp only [hHolds.marker, Option.isSome_none, Bool.false_eq_true, if_false]
    exact Prog.clean_bind (Prog.clean_post (hLoad device ⟨_, rfl⟩ false) fun _ _ _ => Prog.clean_pure trivial)
  | some server =>
    obtain ⟨listing, hListing⟩ := hAnswers server hTransport
    have hState : (establishVssState fs (wallets.node wallet) server).Clean (fun _ => device.SameDisk) device := by
      refine Prog.clean_of_wp (establishVssState_untouched hHolds.marker hHolds.whole server) ?_
      obtain ⟨manager, files, funded, hManager, hFiles, -⟩ := hHolds.whole
      refine Prog.clean_bind (Prog.clean_read ?_)
      simp only [id, hHolds.marker, hManager, Option.isSome_none, Option.isNone_some, Bool.false_and, Bool.or_self,
        Bool.false_eq_true, if_false, hFiles, hListing]
      split
      · refine Prog.clean_bind (Prog.clean_send ?_)
        split
        · exact Prog.clean_pure trivial
        · exact Prog.clean_pure trivial
      · exact Prog.clean_pure trivial
    have hBoot : (bootChannels fs (wallets.node wallet) server).Clean (fun _ _ => True) device :=
      Prog.clean_bind (Prog.clean_post hState fun state disk hDisk => hLoad disk hDisk state.remote)
    exact Prog.clean_bind (Prog.clean_post hBoot fun _ _ _ => Prog.clean_pure trivial)

end Untouched

/-! ## Restores and the starts after them -/

structure NodeStart where
  transport : String → Option Transport
  generated : String
  fates : List Fate

def nodeStep (fs : FileSystem) (wallets : Wallets) (device : Device) (start : NodeStart) : Option Device :=
  some (startNode fs wallets start.transport start.generated device start.fates).disk

/-- The wallet is on disk with its channels, and a start to which nothing happens runs on them. -/
structure OnDisk (fs : FileSystem) (wallets : Wallets) (wallet : String) (device disk : Device) : Prop where
  same : device.SameDisk disk
  starts : ∀ transport generated, Answers transport wallet → (startNode fs wallets transport generated).Clean
    (fun result after => result.1 = wallet ∧ BootedOn (wallets.node wallet) result.2 after) disk

/-- Every start that succeeds runs under the target words on the target's channels, and one to which nothing
happens succeeds. -/
structure LeadsTo (fs : FileSystem) (wallets : Wallets) (backups : Transport → Prop) (target : String)
    (disk : Device) : Prop where
  only : ∀ transport generated, (∃ server, backups server ∧ transport target = some server) →
    (startNode fs wallets transport generated).wp (fun _ => True) (fun _ _ => True)
      (RunsOn wallets backups target) disk
  starts : ∀ transport generated, (∃ server, backups server ∧ transport target = some server) →
    (startNode fs wallets transport generated).Clean (RunsOn wallets backups target) disk

/-- A restore that stops anywhere leaves the old wallet where it was, or leads to the target, through any
sequence of starts. -/
theorem restore_crash_safe (fs : FileSystem) (wallets : Wallets) (device disk : Device) (raw target : String)
    (nowMs : UInt64) (server : Transport) (fates : List Fate) (backups : Transport → Prop) (starts : List NodeStart)
    (hTarget : wallets.parseMnemonic raw = some target) (hServer : backups server)
    (hBackups : ∀ server, backups server → Recoverable (wallets.node target) server)
    (hGuard : RestoreGuard fs device fates)
    (hStarts : ∀ start ∈ starts, ∃ server, backups server ∧ start.transport target = some server)
    (hRun : exec (nodeStep fs wallets) (runRestore fs wallets (some server) raw nowMs device fates).disk starts =
      some disk) :
    (∀ wallet, device.Holds wallets wallet → OnDisk fs wallets wallet device disk) ∧
        (runRestore fs wallets (some server) raw nowMs device fates).disk = device ∨
      LeadsTo fs wallets backups target disk := by
  have hWords := wallets.parse_words raw target hTarget
  obtain hSame | hCommitted := runRestore_committed nowMs hTarget hServer (hBackups server hServer) hGuard
  · refine .inl ⟨fun wallet hHolds => ?_, hSame⟩
    rw [hSame] at hRun
    have hStep : ∀ before start after, device.SameDisk before → nodeStep fs wallets before start = some after →
        device.SameDisk after := by
      rintro before start after hBefore ⟨⟩
      have hWp := startNode_untouched fs (hBefore.holds hHolds) start.transport start.generated start.fates
      refine hBefore.trans (Outcome.Meets.disk (hWp.mono (fun _ => id) (fun _ _ => id) fun _ _ => And.right))
    have hDisk : device.SameDisk disk := exec_inv_all hStep ⟨_, rfl⟩ hRun
    exact ⟨hDisk, fun transport generated hAnswers => startNode_holds (hDisk.holds hHolds) hAnswers generated⟩
  · have hStep : ∀ before start after, Device.Committed wallets backups ⟨target, nowMs⟩ before →
        (∃ server, backups server ∧ start.transport target = some server) →
        nodeStep fs wallets before start = some after → after.Committed wallets backups ⟨target, nowMs⟩ := by
      rintro before start after hBefore ⟨server, hServer, hTransport⟩ ⟨⟩
      have hWp := startNode_committed fs hWords hBackups hBefore start.generated hServer hTransport start.fates
      exact Outcome.Meets.disk (hWp.mono (fun _ => id) (fun _ _ => id) fun _ _ => And.right)
    have hDisk := exec_inv hStep hCommitted (along_of_forall hStarts _) hRun
    refine .inr ⟨?_, ?_⟩
    · rintro transport generated ⟨server, hServer, hTransport⟩
      have hWp := startNode_committed fs hWords hBackups hDisk generated hServer hTransport
      exact Prog.wp_mono hWp (fun _ _ => trivial) (fun _ _ _ => trivial) fun _ _ => And.left
    · rintro transport generated ⟨server, hServer, hTransport⟩
      exact startNode_clean ⟨target, nowMs⟩ hWords hBackups hDisk hServer hTransport

/-! ## The two prefixes that escape -/

section Escapes

variable {fs : FileSystem} {wallets : Wallets} {device : Device}

theorem startNode_fenced (h : device.fencedFlag = true) (transport : String → Option Transport) (generated : String)
    (fates : List Fate) : startNode fs wallets transport generated device fates = .error .fenced device fates := by
  rw [startNode_eq]
  refine Prog.bind_error ((Prog.bind_ok rfl).trans ?_)
  simp only [h]
  rfl

/-- A start looks at the flag before it looks at the marker, so that the flag outlives every start. -/
theorem fenced_forever (h : device.fencedFlag = true) {starts : List NodeStart} {disk : Device}
    (hRun : exec (nodeStep fs wallets) device starts = some disk) (transport : String → Option Transport)
    (generated : String) (fates : List Fate) :
    startNode fs wallets transport generated disk fates = .error .fenced disk fates := by
  have hStep : ∀ before start after, before = device → nodeStep fs wallets before start = some after →
      after = device := by
    rintro before start after rfl ⟨⟩
    rw [startNode_fenced h]
    rfl
  have hDisk : disk = device := exec_inv_all hStep rfl hRun
  rw [hDisk]
  exact startNode_fenced h transport generated fates

theorem loadChannelManager_vacant {node : Node} (h : device.store.Vacant) (remote : Bool) :
    (loadChannelManager node remote).Clean (fun booted _ => booted = .fresh) device := by
  have hFiles : readChannelMonitors node device.store = some [] := by
    rw [readChannelMonitors, h.monitors, show KvStore.empty.monitors.toPairs = [] by decide +kernel]
    rfl
  have hSend : ((sendPut (.manager node.freshManager) : Start Unit).when remote).Clean (fun _ _ => True) device :=
    Prog.clean_when (fun _ => Prog.clean_send trivial) fun _ => trivial
  refine Prog.clean_bind (Prog.clean_read ?_)
  simp only [id, hFiles, show device.store.manager = none from h.manager]
  refine Prog.clean_bind (Prog.clean_post hSend ?_)
  exact fun _ disk _ => Prog.clean_bind (Prog.clean_change (Prog.clean_pure rfl))

/-- A marker without words voids the channel state all the same: a wallet without a backup goes fresh under
its own words. -/
theorem emptyMarker_goes_fresh {wallet : String} {transport : String → Option Transport} {server : Transport}
    (hMarker : device.marker = some (.raw [])) (hUnfenced : device.fencedFlag = false)
    (hWords : device.mnemonic.bind wallets.parseMnemonic = some wallet) (hServer : transport wallet = some server)
    (hListing : server.listKeyVersions = .ok []) (generated : String) :
    (startNode fs wallets transport generated).Clean (fun result _ => result = (wallet, .fresh)) device := by
  have hResume : prepareMarkerResume fs wallets device [] = .ok () device [] := by
    refine (Prog.bind_ok rfl).trans ?_
    simp only [id, readMarker, hMarker]
    rfl
  rw [Prog.Clean, startNode_eq, Prog.bind_ok (checkFence_open hUnfenced []), Prog.bind_ok hResume,
    startResumed_boots hUnfenced hWords hServer]
  have hState : (establishVssState fs (wallets.node wallet) server).Clean (fun _ disk => disk.store.Vacant) device := by
    refine Prog.clean_bind (Prog.clean_read ?_)
    simp only [id, hMarker, Option.isSome_some, Bool.true_or, hListing, if_true, List.isEmpty_nil]
    refine Prog.clean_bind (Prog.clean_post (wipeLocalLdkState_clean device) fun _ disk hVacant => ?_)
    exact Prog.clean_bind (Prog.clean_tryChange (Prog.clean_pure hVacant))
  have hBoot : (bootChannels fs (wallets.node wallet) server).Clean (fun booted _ => booted = .fresh) device :=
    Prog.clean_bind (Prog.clean_post hState fun state disk hVacant => loadChannelManager_vacant hVacant state.remote)
  refine Prog.clean_bind (Prog.clean_post hBoot ?_)
  rintro booted disk rfl
  exact Prog.clean_pure rfl

end Escapes

/-- Any words but none are a wallet's. -/
def anyWords : Wallets where
  parseMnemonic raw := if raw = "" then none else some raw
  node _ := oneChannelNode
  parse_words := by
    intro raw words h
    split at h
    · cases h
    · rename_i hSome
      cases h
      exact if_neg hSome

/-- A wallet with one channel, which was never backed up. -/
def oldWallet (fencedFlag : Bool) : Device where
  store :=
    { manager := some (.raw [1])
      monitors := .ofPairs [("0", .ofJson (.ofU64 0))]
      peers := none
      others := ∅ }
  mnemonic := some "old"
  marker := none
  fencedFlag := fencedFlag
  sent := []

theorem oldWallet_holds : (oldWallet false).Holds anyWords "old" := by
  refine ⟨rfl, rfl, rfl, .raw [1], [("0", ⟨"0", ⟨Vector.replicate 32 0, 0⟩, "0"⟩, .ofJson (.ofU64 0))], ["0"], rfl, ?_, ?_⟩
  · decide +kernel
  · decide +kernel

theorem runRestore_oneChannel (device : Device) (fates : List Fate) :
    runRestore sortedFiles anyWords (some oneChannelBackup) "new" 0 device fates =
      (do
        twoPhaseWrite sortedFiles ⟨"new", 0⟩ oneChannelPlan
        sendBackfill oneChannelBackup oneChannelPlan 0 : Prog Device RestoreError Unit) device fates := rfl

/-- The old wallet after the marker and the first removal. -/
def cutRestore (fencedFlag : Bool) : Device :=
  { oldWallet fencedFlag with
    store := (oldWallet fencedFlag).store.remove .manager
    marker := some (RestoreMarker.encode ⟨"new", 0⟩) }

theorem runRestore_cut (fencedFlag : Bool) :
    runRestore sortedFiles anyWords (some oneChannelBackup) "new" 0 (oldWallet fencedFlag) [.made, .made, .made, .dies] =
      .crashed (cutRestore fencedFlag) := by
  rw [runRestore_oneChannel]
  refine Prog.bind_crashed ?_
  rfl

/-- The servers of both wallets: the old one was never backed up. -/
def bothServers (words : String) : Option Transport := some (if words = "new" then oneChannelBackup else emptyNamespace)

/-- A restore that dies in the clear is refused for good on a fenced device. One that dies before the marker is
filled lets the next start void the old wallet under its own words. -/
theorem restore_cut_strands :
    Recoverable (anyWords.node "new") oneChannelBackup ∧ (oldWallet false).Holds anyWords "old" ∧
    (∃ disk, runRestore sortedFiles anyWords (some oneChannelBackup) "new" 0 (oldWallet true)
        [.made, .made, .made, .dies] = .crashed disk ∧ disk.store.manager = none ∧
      ∀ starts after, exec (nodeStep sortedFiles anyWords) disk starts = some after → ∀ start : NodeStart,
        startNode sortedFiles anyWords start.transport start.generated after start.fates =
          .error .fenced after start.fates) ∧
    ∃ disk after, runRestore sortedFiles anyWords (some oneChannelBackup) "new" 0 (oldWallet false) [.made, .dies] =
        .crashed disk ∧
      startNode sortedFiles anyWords bothServers "generated" disk [] = .ok ("old", .fresh) after [] := by
  refine ⟨recoverable_oneChannel, oldWallet_holds, ⟨cutRestore true, runRestore_cut true, rfl, ?_⟩, ?_⟩
  · exact fun starts after hRun start => fenced_forever rfl hRun start.transport start.generated start.fates
  · have hFresh : (startNode sortedFiles anyWords bothServers "generated").Clean
        (fun result _ => result = ("old", .fresh)) { oldWallet false with marker := some (.raw []) } :=
      emptyMarker_goes_fresh rfl rfl rfl rfl rfl _
    obtain ⟨result, after, hRun, rfl⟩ := hFresh
    refine ⟨_, after, ?_, hRun⟩
    rw [runRestore_oneChannel]
    refine Prog.bind_crashed ?_
    rfl

/-- The same cut on a device without a fence: the next start runs on the target's channel. -/
theorem restore_crash_safe_cut :
    ∃ result after, startNode sortedFiles anyWords bothServers "generated" (cutRestore false) [] = .ok result after [] ∧
      RunsOn anyWords (· = oneChannelBackup) "new" result after := by
  have hGuard : RestoreGuard sortedFiles (oldWallet false) [.made, .made, .made, .dies] := by
    constructor
    · intro fate rest hFates
      cases hFates
      rfl
    · intro hFenced
      cases hFenced
  have hRun : exec (nodeStep sortedFiles anyWords) (runRestore sortedFiles anyWords (some oneChannelBackup) "new" 0
      (oldWallet false) [.made, .made, .made, .dies]).disk [] = some (cutRestore false) := by
    rw [runRestore_cut]
    rfl
  have hSafe := restore_crash_safe sortedFiles anyWords (oldWallet false) (cutRestore false) "new" "new" 0
    oneChannelBackup [.made, .made, .made, .dies] (· = oneChannelBackup) [] rfl rfl
    (by rintro server rfl; exact recoverable_oneChannel) hGuard (by simp) hRun
  obtain ⟨-, hSame⟩ | hLeads := hSafe
  · rw [runRestore_cut] at hSame
    cases congrArg Device.marker hSame
  · exact hLeads.starts bothServers "generated" ⟨oneChannelBackup, rfl, rfl⟩

end WalletCore.Restore
