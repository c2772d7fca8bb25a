import WalletCore.Instance.Handles
import WalletCore.Restore.CrashPrefix

/-! # The programs under the lock

A build and a restore change nothing without a fate of their own, and a build that succeeds returns the words
that are on disk.
-/

namespace WalletCore.Instance

open Lib Restore

section Programs

variable {fs : FileSystem} {wallets : Wallets} {ε : Type}

theorem writePlanLocal_still (writes : List (StoreFile × Bytes)) :
    (writePlanLocal writes : Prog Device ε (Bool × List StoreFile)).Still := by
  induction writes with
  | nil => exact Prog.still_pure _
  | cons write rest ih =>
    refine Prog.still_bind (Prog.still_attempt (Prog.still_change _ _)) ?_
    rintro (_ | _)
    · exact Prog.still_pure _
    · exact Prog.still_bind ih fun _ => Prog.still_pure _

theorem sendBackfill_still (transport : Transport) (plan : RestorePlan) (adoptedCount : Nat) :
    (sendBackfill transport plan adoptedCount : Prog Device ε Unit).Still := by
  rw [sendBackfill]
  split
  · exact Prog.still_each (fun _ => Prog.still_send _) _
  · exact Prog.still_pure ()

theorem clearLocalWalletState_still (e : ε) : (clearLocalWalletState fs e).Still := by
  refine Prog.still_bind (Prog.still_read _) fun files => ?_
  refine Prog.still_bind (Prog.still_each (fun _ => Prog.still_change _ _) files) fun _ => ?_
  refine Prog.still_bind (Prog.still_change _ _) fun _ => ?_
  exact Prog.still_bind (Prog.still_change _ _) fun _ => Prog.still_change _ _

theorem writeMnemonic_still (words : String) (exists' failed : ε) : (writeMnemonic words exists' failed).Still := by
  refine Prog.still_bind (Prog.still_read _) fun found => ?_
  split
  · exact Prog.still_fail _
  · exact Prog.still_bind (Prog.still_change _ _) fun _ => Prog.still_change _ _

theorem runRestore_still (transport : Option Transport) (raw : String) (nowMs : UInt64) :
    (runRestore fs wallets transport raw nowMs).Still := by
  rw [runRestore]
  split
  · exact Prog.still_fail _
  split
  · exact Prog.still_fail _
  split
  · exact Prog.still_fail _
  split
  · exact Prog.still_fail _
  split
  · exact Prog.still_fail _
  · refine Prog.still_bind ?_ fun _ => sendBackfill_still _ _ _
    refine Prog.still_bind (Prog.still_bind (Prog.still_change _ _) fun _ => Prog.still_change _ _) fun _ => ?_
    refine Prog.still_bind (clearLocalWalletState_still _) fun _ => ?_
    refine Prog.still_bind (writeMnemonic_still _ _ _) fun _ => ?_
    refine Prog.still_bind (writePlanLocal_still _) fun written => ?_
    dsimp only
    split
    · exact Prog.still_fail _
    · exact Prog.still_change _ _

theorem prepareMarkerResume_still : (prepareMarkerResume fs wallets).Still := by
  refine Prog.still_bind (Prog.still_read _) fun device => ?_
  split
  · exact Prog.still_pure ()
  split
  · exact Prog.still_pure ()
  split
  · exact Prog.still_pure ()
  · exact Prog.still_bind (clearLocalWalletState_still _) fun _ => writeMnemonic_still _ _ _

theorem checkFence_still : checkFence.Still :=
  Prog.still_bind (Prog.still_read _) fun fenced => Prog.still_when (Prog.still_fail _) fenced

theorem readOrGenerateMnemonic_still (generated : String) : (readOrGenerateMnemonic wallets generated).Still := by
  refine Prog.still_bind (Prog.still_read _) fun device => ?_
  split
  · split
    · exact Prog.still_pure _
    · exact Prog.still_fail _
  · split
    · exact Prog.still_fail _
    · exact Prog.still_bind (writeMnemonic_still _ _ _) fun _ => Prog.still_pure _

theorem establishVssState_still (node : Node) (transport : Transport) :
    (establishVssState fs node transport).Still := by
  refine Prog.still_bind (Prog.still_read _) fun device => ?_
  dsimp only
  split
  · exact Prog.still_fail _
  split
  · have hWipe : (wipeLocalLdkState fs).Still := by
      refine Prog.still_bind (Prog.still_read _) fun names => ?_
      exact Prog.still_bind (Prog.still_each (fun _ => Prog.still_change _ _) names) fun _ => Prog.still_change _ _
    refine Prog.still_bind (Prog.still_when hWipe _) fun _ => ?_
    split
    · exact Prog.still_bind (Prog.still_when (Prog.still_tryChange _) _) fun _ => Prog.still_pure _
    · refine Prog.still_bind ?_ fun _ =>
        Prog.still_bind (Prog.still_when (Prog.still_tryChange _) _) fun _ => Prog.still_pure _
      rw [silentRecovery]
      split
      · exact Prog.still_fail _
      · refine Prog.still_bind (writePlanLocal_still _) fun written => ?_
        dsimp only
        split
        · exact Prog.still_bind (Prog.still_each (fun _ => Prog.still_tryChange _) _) fun _ => Prog.still_fail _
        · exact Prog.still_bind (sendBackfill_still _ _ _) fun _ => Prog.still_pure _
  · split
    · exact Prog.still_fail _
    split
    · refine Prog.still_bind (Prog.still_send _) fun _ => ?_
      split
      · exact Prog.still_pure _
      · exact Prog.still_pure _
    · exact Prog.still_pure _

theorem loadChannelManager_still (node : Node) (remote : Bool) : (loadChannelManager node remote).Still := by
  have hFresh : (makeFreshManager node remote).Still :=
    Prog.still_bind (Prog.still_when (Prog.still_send _) _) fun _ =>
      Prog.still_bind (Prog.still_change _ _) fun _ => Prog.still_pure _
  refine Prog.still_bind (Prog.still_read _) fun device => ?_
  split
  · exact Prog.still_fail _
  · dsimp only
    split
    · split
      · exact hFresh
      · exact Prog.still_fail _
    · split
      · split
        · exact Prog.still_pure _
        · exact Prog.still_fail _
      · split
        · exact Prog.still_bind (Prog.still_tryChange _) fun _ => hFresh
        · exact Prog.still_fail _

theorem build_still (transport : String → Option Transport) (generated : String) :
    (build fs wallets transport generated).Still := by
  refine Prog.still_bind prepareMarkerResume_still fun _ => ?_
  refine Prog.still_bind checkFence_still fun _ => ?_
  refine Prog.still_bind (readOrGenerateMnemonic_still _) fun words => ?_
  split
  · refine Prog.still_bind (Prog.still_read _) fun marked => ?_
    split
    · exact Prog.still_fail _
    · exact Prog.still_bind (loadChannelManager_still _ _) fun _ => Prog.still_pure _
  · refine Prog.still_bind ?_ fun _ => Prog.still_pure _
    exact Prog.still_bind (establishVssState_still _ _) fun _ => loadChannelManager_still _ _

/-! ## The words on disk -/

def HasWords (wallets : Wallets) (words : String) (device : Device) : Prop :=
  device.mnemonic.bind wallets.parseMnemonic = some words

instance (wallets : Wallets) (words : String) (device : Device) : Decidable (HasWords wallets words device) :=
  inferInstanceAs (Decidable (_ = _))

theorem readOrGenerateMnemonic_words {generated : String} (h : wallets.parseMnemonic generated = some generated)
    (device : Device) :
    (readOrGenerateMnemonic wallets generated).wp (fun _ => True) (fun _ _ => True) (HasWords wallets) device := by
  refine Prog.wp_bind (Prog.wp_read ?_)
  split
  · next raw hRaw =>
    split
    · next words hParse =>
      refine Prog.wp_pure ?_
      rw [HasWords, ← hParse]
      exact congrArg (·.bind wallets.parseMnemonic) hRaw
    · exact Prog.wp_fail trivial
  · split
    · exact Prog.wp_fail trivial
    · refine Prog.wp_bind (Prog.wp_post (writeMnemonic_written device) ?_)
      rintro - disk rfl
      exact Prog.wp_pure h

theorem loadChannelManager_words (words : String) (node : Node) (remote : Bool) :
    Prog.Keeps (HasWords wallets words) (loadChannelManager node remote) := by
  have hFresh : Prog.Keeps (HasWords wallets words) (makeFreshManager node remote) := by
    refine Prog.keeps_bind (Prog.keeps_when _ (Prog.keeps_send fun _ => id)) fun _ => ?_
    exact Prog.keeps_bind (Prog.keeps_change _ fun _ => id) fun _ => Prog.keeps_pure _
  refine Prog.keeps_bind (Prog.keeps_read _) fun device => ?_
  split
  · exact Prog.keeps_fail _
  · dsimp only
    split
    · split
      · exact hFresh
      · exact Prog.keeps_fail _
    · split
      · split
        · exact Prog.keeps_pure _
        · exact Prog.keeps_fail _
      · split
        · exact Prog.keeps_bind (Prog.keeps_tryChange fun _ => id) fun _ => hFresh
        · exact Prog.keeps_fail _

theorem establishVssState_words (words : String) (node : Node) (transport : Transport) :
    Prog.Keeps (HasWords wallets words) (establishVssState fs node transport) := by
  intro device hWords
  have hKeeps : ∀ disk, device.Kept transport disk → HasWords wallets words disk := by
    intro disk hKept
    rw [HasWords, hKept.mnemonic]
    exact hWords
  exact Prog.wp_mono (establishVssState_kept fs node transport device device .refl) hKeeps (fun _ => hKeeps)
    fun _ => hKeeps

theorem build_words {transport : String → Option Transport} {generated : String}
    (h : wallets.parseMnemonic generated = some generated) (device : Device) :
    (build fs wallets transport generated).wp (fun _ => True) (fun _ _ => True)
      (fun result => HasWords wallets result.1) device := by
  refine Prog.wp_bind (Prog.wp_post (Prog.wp_true _ _) fun _ device _ => ?_)
  refine Prog.wp_bind (Prog.wp_post (Prog.wp_true _ _) fun _ device _ => ?_)
  refine Prog.wp_bind (Prog.wp_post (readOrGenerateMnemonic_words h device) fun words device hWords => ?_)
  have hReturn : ∀ p : Start Booted, p.Keeps (HasWords wallets words) →
      (do return (words, ← p) : Start (String × Booted)).wp (fun _ => True) (fun _ _ => True)
        (fun result => HasWords wallets result.1) device := by
    intro p hKeeps
    refine Prog.wp_bind (Prog.wp_mono (hKeeps device hWords) (fun _ _ => trivial) (fun _ _ _ => trivial) ?_)
    exact fun booted disk hDisk => Prog.wp_pure hDisk
  split
  · refine Prog.wp_bind (Prog.wp_read ?_)
    split
    · exact Prog.wp_fail trivial
    · exact hReturn _ (loadChannelManager_words words _ _)
  · refine hReturn _ (Prog.keeps_bind (establishVssState_words words _ _) ?_)
    exact fun state => loadChannelManager_words words _ _

end Programs

end WalletCore.Instance
