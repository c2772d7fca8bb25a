import WalletCore.Lib.Transition
import WalletCore.Wallet.Onchain

/-! # Reveals are durable before use

An address in memory may be ahead of the file: an estimate reveals addresses and discards what it
staged, and so does a rejected build. An operation that hands out such an address again stages nothing,
persists nothing and returns it. This is the only way a returned address can be missing in the file.
-/

namespace WalletCore.Wallet

open Lib

/-! ## Runs of wallet operations -/

inductive WalletOp where
  | nextReceiveAddress (writeError : Option String)
  | nextUnusedAddressScript (writeError : Option String)
  | revealNextExternalScript (writeError : Option String)
  | getChangeDestinationScript (writeError : Option String)
  | destinationScriptForIndex (index : Nat) (writeError : Option String)
  | revealDerivedDestinations (indexes : List Nat) (writeError : Option String)
  | sync (update : ChangeSet) (stopGap : Nat) (writeError : Option String) (markerFails : Bool)
  | applyUnconfirmedTx (tx : Transaction) (writeError : Option String)
  | estimateOnchainTx (spec : TxSpec) (answer : BuildAnswer)
  | createOnchainTx (spec : TxSpec) (answer : BuildAnswer) (verify : BuiltTxFacts → Except OnchainSendError Unit)
      (mapBuildFailure : TxBuildFailure → OnchainSendError) (signing : Signing) (writeError : Option String)
  | restart (unreadable : Bool)

/-- The addresses a result carries: of a transaction, those of its change and reserve outputs. -/
def ownAddresses : Except OnchainSendError (Psbt × Transaction) → List AddressInfo
  | .ok (psbt, _) => psbt.ownIndexes.map (AddressInfo.mk .internal)
  | .error _ => []

namespace WalletOp

variable (keys : Descriptors)

/-- The addresses returned with `Ok`, and the wallet afterwards. -/
def run (w : OnchainWallet) : WalletOp → List AddressInfo × OnchainWallet
  | nextReceiveAddress writeError => (w.nextReceiveAddress keys writeError).map Option.toList id
  | nextUnusedAddressScript writeError => (w.nextUnusedAddressScript keys writeError).map Option.toList id
  | revealNextExternalScript writeError => (w.revealNextExternalScript writeError).map Option.toList id
  | getChangeDestinationScript writeError => (w.getChangeDestinationScript writeError).map Option.toList id
  | destinationScriptForIndex index writeError => (w.destinationScriptForIndex index writeError).map Option.toList id
  | revealDerivedDestinations indexes writeError => ([], (w.revealDerivedDestinations indexes writeError).2)
  | sync update stopGap writeError markerFails => ([], (w.sync update stopGap writeError markerFails).2)
  | applyUnconfirmedTx tx writeError => ([], (w.applyUnconfirmedTx tx writeError).2)
  | estimateOnchainTx spec answer => ([], (w.estimateOnchainTx keys spec answer).2)
  | createOnchainTx spec answer verify mapBuildFailure signing writeError =>
    (w.createOnchainTx keys spec answer verify mapBuildFailure signing writeError).map ownAddresses id
  | restart unreadable => ([], .new w.disk w.wideScanMarker unreadable)

def step (w : OnchainWallet) (op : WalletOp) : Option OnchainWallet := some (op.run keys w).2

/-- A wallet loaded from the file would track everything that is returned as revealed. -/
def Durable (w : OnchainWallet) (op : WalletOp) : Prop :=
  ∀ address ∈ (op.run keys w).1, address.index < (op.run keys w).2.disk.revealed address.keychain

instance (w : OnchainWallet) (op : WalletOp) : Decidable (op.Durable keys w) :=
  inferInstanceAs (Decidable (∀ address ∈ (op.run keys w).1, _))

end WalletOp

/-! ## Addresses handed out again -/

def TxSpec.paysChange : TxSpec → Bool
  | .recipient .. | .fundingOutput .. => true
  | .drainAll _ | .drainWithReserve .. => false

section

variable (keys : Descriptors)

/-- The address that is handed out again because it is revealed and not used yet. -/
def lowestUnused (w : BdkWallet) (k : KeychainKind) : List AddressInfo :=
  ((w.unusedKeychainSpks keys k).head?.map (AddressInfo.mk k)).toList

def reusedChange (w : BdkWallet) (spec : TxSpec) (answer : BuildAnswer) : List AddressInfo :=
  if spec.paysChange && answer.hasExcess then lowestUnused keys w .internal else []

/-- The addresses already revealed that the operation is about to return. -/
def WalletOp.reuses (w : OnchainWallet) : WalletOp → List AddressInfo
  | nextReceiveAddress _ | nextUnusedAddressScript _ => lowestUnused keys w.bdk .external
  | destinationScriptForIndex index _ => if index < w.live.revealed .external then [⟨.external, index⟩] else []
  | createOnchainTx spec answer verify mapBuildFailure signing _ =>
    if (OnchainWallet.approve (buildTxLocked keys w.bdk spec answer).1 verify mapBuildFailure signing).isOk then
      reusedChange keys w.bdk spec answer
    else []
  | _ => []

def WalletOp.writeError : WalletOp → Option String
  | nextReceiveAddress writeError | nextUnusedAddressScript writeError | revealNextExternalScript writeError
  | getChangeDestinationScript writeError | destinationScriptForIndex _ writeError
  | revealDerivedDestinations _ writeError | sync _ _ writeError _ | applyUnconfirmedTx _ writeError
  | createOnchainTx _ _ _ _ _ writeError => writeError
  | estimateOnchainTx .. | restart _ => none

/-- An address the operation hands out again is in the file, or staged to be written with it. -/
def WalletOp.Fresh (w : OnchainWallet) (op : WalletOp) : Prop :=
  w.persisted op.writeError = true →
    ∀ address ∈ op.reuses keys w, w.bdk.staged.Covered (.reveal address.keychain address.index)

end

/-! ## One operation -/

section Steps

variable {keys : Descriptors} {w : OnchainWallet}

theorem vend_durable_iff {vended : AddressInfo × BdkWallet} {writeError : Option String}
    (hSound : vended.2.staged.Sound) :
    (∀ address ∈ (w.vend vended writeError).1.toList,
        address.index < (w.vend vended writeError).2.disk.revealed address.keychain) ↔
      (vended.2.staged.persisted writeError.isSome = true →
        vended.2.staged.Covered (.reveal vended.1.keychain vended.1.index)) := by
  have hVended : (w.vend vended writeError).1 = if vended.2.staged.persisted writeError.isSome then some vended.1 else none :=
    rfl
  have hDisk : (w.vend vended writeError).2.disk = (vended.2.staged.persist writeError.isSome).disk := rfl
  rw [hVended, hDisk]
  by_cases hOk : vended.2.staged.persisted writeError.isSome = true
  · rw [if_pos hOk, ← Staged.le_persist_disk_iff hSound hOk, ChangeSet.reveal_le_iff]
    simp [hOk]
  · rw [if_neg hOk]
    simp [hOk]

theorem nextUnused_durable_iff {k : KeychainKind} {writeError : Option String} (hSound : w.bdk.staged.Sound) :
    (∀ address ∈ (w.vend (w.bdk.nextUnusedAddress keys k) writeError).1.toList,
        address.index < (w.vend (w.bdk.nextUnusedAddress keys k) writeError).2.disk.revealed address.keychain) ↔
      (w.persisted writeError = true → ∀ address ∈ lowestUnused keys w.bdk k,
        w.bdk.staged.Covered (.reveal address.keychain address.index)) := by
  rw [vend_durable_iff (BdkWallet.sound_nextUnusedAddress hSound k), lowestUnused, BdkWallet.nextUnusedAddress]
  cases (w.bdk.unusedKeychainSpks keys k).head? with
  | some index => simp [OnchainWallet.persisted]
  | none =>
    constructor
    · simp
    · intro _ _
      exact BdkWallet.covered_revealNextAddress w.bdk k

theorem revealNext_durable {k : KeychainKind} {writeError : Option String} (hSound : w.bdk.staged.Sound) :
    ∀ address ∈ (w.vend (w.bdk.revealNextAddress k) writeError).1.toList,
      address.index < (w.vend (w.bdk.revealNextAddress k) writeError).2.disk.revealed address.keychain :=
  (vend_durable_iff (BdkWallet.sound_apply hSound _)).mpr fun _ => BdkWallet.covered_revealNextAddress w.bdk k

theorem destination_durable_iff {index : Nat} {writeError : Option String} (hSound : w.bdk.staged.Sound) :
    WalletOp.Durable keys w (.destinationScriptForIndex index writeError) ↔
      WalletOp.Fresh keys w (.destinationScriptForIndex index writeError) := by
  refine (vend_durable_iff (w := w.watchDestinationIndexes [index]) (BdkWallet.sound_apply hSound _)).trans ?_
  by_cases hKnown : index < w.live.revealed .external
  · have hReuses : WalletOp.reuses keys w (.destinationScriptForIndex index writeError) = [⟨.external, index⟩] := if_pos hKnown
    rw [BdkWallet.revealAddressesTo_known hKnown, WalletOp.Fresh, hReuses]
    simp [OnchainWallet.persisted, WalletOp.writeError]
  · have hReuses : WalletOp.reuses keys w (.destinationScriptForIndex index writeError) = [] := if_neg hKnown
    rw [BdkWallet.revealAddressesTo_new hKnown, WalletOp.Fresh, hReuses]
    constructor
    · simp
    · intro _ _
      exact Staged.covered_grow (ChangeSet.reveal_ne_bot _ _) le_rfl

theorem nextUnusedAddress_some {bdk : BdkWallet} {k : KeychainKind} {index : Nat}
    (h : (bdk.unusedKeychainSpks keys k).head? = some index) : bdk.nextUnusedAddress keys k = (⟨k, index⟩, bdk) := by
  rw [BdkWallet.nextUnusedAddress, h]

theorem nextUnusedAddress_none {bdk : BdkWallet} {k : KeychainKind} (h : (bdk.unusedKeychainSpks keys k).head? = none) :
    bdk.nextUnusedAddress keys k = bdk.revealNextAddress k := by
  rw [BdkWallet.nextUnusedAddress, h]

/-- Of the wallet's own addresses a build pays none, one it has just revealed, or one it hands out again. -/
def PaysOwn (keys : Descriptors) (bdk : BdkWallet) (spec : TxSpec) (answer : BuildAnswer) (psbt : Psbt) : Prop :=
  psbt.ownIndexes = [] ∧ reusedChange keys bdk spec answer = [] ∨
  (∃ index, psbt.ownIndexes = [index] ∧ reusedChange keys bdk spec answer = [] ∧
    (buildTxLocked keys bdk spec answer).2.staged.Covered (.reveal .internal index)) ∨
  ∃ index, psbt.ownIndexes = [index] ∧ reusedChange keys bdk spec answer = [⟨.internal, index⟩] ∧
    (buildTxLocked keys bdk spec answer).2.staged = bdk.staged

theorem paysOwn_recipient {bdk : BdkWallet} {script : Script} {amountSats : Nat} {answer : BuildAnswer} {psbt : Psbt}
    {draft : Draft} (hDraft : answer.result = .ok draft)
    (h : (buildTxLocked keys bdk (.recipient script amountSats) answer).1 = .ok psbt) :
    PaysOwn keys bdk (.recipient script amountSats) answer psbt := by
  have hExcess : answer.hasExcess = draft.excess.isSome := by rw [BuildAnswer.hasExcess, hDraft]
  simp only [buildTxLocked, hDraft, Except.map, Except.ok.injEq] at h
  subst h
  rw [PaysOwn, reusedChange, TxSpec.paysChange, Bool.true_and, hExcess]
  cases hSome : draft.excess with
  | none => exact .inl ⟨by simp [Psbt.ownIndexes, OutputRole.ownIndex], rfl⟩
  | some sats =>
    have hTaken : answer.taken = true := by simp [BuildAnswer.taken, hExcess, hSome]
    cases hHead : (bdk.unusedKeychainSpks keys .internal).head? with
    | some index =>
      refine .inr (.inr ⟨index, ?_, ?_, ?_⟩)
      · simp [Psbt.ownIndexes, OutputRole.ownIndex, nextUnusedAddress_some hHead]
      · simp [lowestUnused, hHead]
      · simp [buildTxLocked, hTaken, nextUnusedAddress_some hHead, BdkWallet.markUsed]
    | none =>
      refine .inr (.inl ⟨bdk.live.revealed .internal, ?_, ?_, ?_⟩)
      · simp [Psbt.ownIndexes, OutputRole.ownIndex, nextUnusedAddress_none hHead, BdkWallet.revealNextAddress]
      · simp [lowestUnused, hHead]
      · have hCovered := BdkWallet.covered_revealNextAddress bdk .internal
        simpa [buildTxLocked, hTaken, nextUnusedAddress_none hHead, BdkWallet.markUsed] using hCovered

theorem paysOwn_of_built {bdk : BdkWallet} {spec : TxSpec} {answer : BuildAnswer} {psbt : Psbt}
    (h : (buildTxLocked keys bdk spec answer).1 = .ok psbt) : PaysOwn keys bdk spec answer psbt := by
  obtain ⟨draft, hDraft⟩ := buildTxLocked_draft h
  cases spec with
  | recipient script amountSats => exact paysOwn_recipient hDraft h
  | fundingOutput script amountSats => exact paysOwn_recipient hDraft h
  | drainAll script =>
    refine .inl ⟨?_, rfl⟩
    simp only [buildTxLocked, hDraft, Except.map, Except.ok.injEq] at h
    subst h
    cases draft.excess <;> rfl
  | drainWithReserve recipient reserveSats =>
    refine .inr (.inl ⟨bdk.live.revealed .internal, ?_, rfl, BdkWallet.covered_revealNextAddress bdk .internal⟩)
    simp only [buildTxLocked, hDraft, Except.map, Except.ok.injEq] at h
    subst h
    rw [Psbt.ownIndexes, BuildAnswer.filterMap_arrange]
    cases draft.excess <;> exact BuildAnswer.arrange_singleton _ _

theorem sound_buildTxLocked {bdk : BdkWallet} (h : bdk.staged.Sound) (spec : TxSpec) (answer : BuildAnswer) :
    (buildTxLocked keys bdk spec answer).2.staged.Sound := by
  have hChange : (if answer.taken then (bdk.nextUnusedAddress keys .internal).2.markUsed
      (bdk.nextUnusedAddress keys .internal).1 else bdk).staged.Sound := by
    split
    · exact BdkWallet.sound_nextUnusedAddress h .internal
    · exact h
  cases spec with
  | recipient script amountSats => exact hChange
  | fundingOutput script amountSats => exact hChange
  | drainAll script => exact h
  | drainWithReserve recipient reserveSats => exact BdkWallet.sound_apply h _

theorem create_durable_iff {spec : TxSpec} {answer : BuildAnswer} {verify : BuiltTxFacts → Except OnchainSendError Unit}
    {mapBuildFailure : TxBuildFailure → OnchainSendError} {signing : Signing} {writeError : Option String}
    (hSound : w.bdk.staged.Sound) :
    WalletOp.Durable keys w (.createOnchainTx spec answer verify mapBuildFailure signing writeError) ↔
      WalletOp.Fresh keys w (.createOnchainTx spec answer verify mapBuildFailure signing writeError) := by
  have hBuilt : (buildTxLocked keys w.bdk spec answer).2.staged.Sound := sound_buildTxLocked hSound spec answer
  rw [WalletOp.Durable, WalletOp.Fresh, WalletOp.run, WalletOp.reuses, OnchainWallet.createOnchainTx]
  cases hApproved : OnchainWallet.approve (buildTxLocked keys w.bdk spec answer).1 verify mapBuildFailure signing with
  | error rejection => simp [hApproved, ownAddresses, Except.isOk, Except.toBool]
  | ok signed =>
    have hOwn := paysOwn_of_built (OnchainWallet.approve_ok hApproved).1
    by_cases hOk : (buildTxLocked keys w.bdk spec answer).2.staged.persisted writeError.isSome = true
    · have hDurable : ∀ index, index < ((buildTxLocked keys w.bdk spec answer).2.staged.persist writeError.isSome).disk.revealed
          .internal ↔ (buildTxLocked keys w.bdk spec answer).2.staged.Covered (.reveal .internal index) := by
        intro index
        rw [← Staged.le_persist_disk_iff hBuilt hOk, ChangeSet.reveal_le_iff]
      obtain ⟨hOwn, hReused⟩ | ⟨index, hOwn, hReused, hCovered⟩ | ⟨index, hOwn, hReused, hSame⟩ := hOwn
      · simp [hApproved, OnchainWallet.persisted, hOk, ownAddresses, hOwn, hReused]
      · simp [hApproved, OnchainWallet.persisted, hOk, ownAddresses, hOwn, hReused, OnchainWallet.disk,
          OnchainWallet.persist, hDurable, hCovered]
      · rw [hSame] at hOk hDurable
        simp [hApproved, OnchainWallet.persisted, hSame, hOk, ownAddresses, hOwn, hReused, OnchainWallet.disk,
          OnchainWallet.persist, hDurable, Except.isOk, Except.toBool, WalletOp.writeError]
    · obtain ⟨-, hReused⟩ | ⟨index, -, hReused, -⟩ | ⟨index, -, -, hSame⟩ := hOwn
      · simp [hApproved, OnchainWallet.persisted, hOk, ownAddresses, hReused]
      · simp [hApproved, OnchainWallet.persisted, hOk, ownAddresses, hReused]
      · rw [hSame] at hOk
        simp [hApproved, OnchainWallet.persisted, hSame, hOk, ownAddresses, WalletOp.writeError]

theorem durable_iff_fresh (hSound : w.bdk.staged.Sound) (op : WalletOp) : op.Durable keys w ↔ op.Fresh keys w := by
  cases op with
  | nextReceiveAddress writeError => exact nextUnused_durable_iff hSound
  | nextUnusedAddressScript writeError => exact nextUnused_durable_iff hSound
  | revealNextExternalScript writeError | getChangeDestinationScript writeError =>
    exact iff_of_true (revealNext_durable hSound) (by simp [WalletOp.Fresh, WalletOp.reuses])
  | destinationScriptForIndex index writeError => exact destination_durable_iff hSound
  | createOnchainTx spec answer verify mapBuildFailure signing writeError => exact create_durable_iff hSound
  | revealDerivedDestinations | sync | applyUnconfirmedTx | estimateOnchainTx | restart =>
    simp [WalletOp.Durable, WalletOp.run, WalletOp.Fresh, WalletOp.reuses]

theorem sound_vend {vended : AddressInfo × BdkWallet} (h : vended.2.staged.Sound) (writeError : Option String) :
    (w.vend vended writeError).2.bdk.staged.Sound := h.persist _

theorem sound_applyUpdate (h : w.bdk.staged.Sound) (update : ChangeSet) (writeError : Option String) :
    (w.applyUpdate update writeError).2.bdk.staged.Sound := (BdkWallet.sound_apply h update).persist _

theorem sound_sync (h : w.bdk.staged.Sound) (update : ChangeSet) (stopGap : Nat) (writeError : Option String)
    (markerFails : Bool) : (w.sync update stopGap writeError markerFails).2.bdk.staged.Sound := by
  have hApplied := sound_applyUpdate h update writeError
  unfold OnchainWallet.sync OnchainWallet.recordWideScanRange
  dsimp only
  split
  · split <;> exact hApplied
  · exact hApplied

theorem sound_revealDerivedDestinations (h : w.bdk.staged.Sound) (indexes : List Nat) (writeError : Option String) :
    (w.revealDerivedDestinations indexes writeError).2.bdk.staged.Sound := by
  unfold OnchainWallet.revealDerivedDestinations
  dsimp only
  split
  · exact h
  · exact (BdkWallet.sound_apply h _).persist _

theorem sound_create (h : w.bdk.staged.Sound) (spec : TxSpec) (answer : BuildAnswer)
    (verify : BuiltTxFacts → Except OnchainSendError Unit) (mapBuildFailure : TxBuildFailure → OnchainSendError)
    (signing : Signing) (writeError : Option String) :
    (w.createOnchainTx keys spec answer verify mapBuildFailure signing writeError).2.bdk.staged.Sound := by
  have hBuilt : (buildTxLocked keys w.bdk spec answer).2.staged.Sound := sound_buildTxLocked h spec answer
  unfold OnchainWallet.createOnchainTx
  dsimp only
  split
  · exact hBuilt.discard
  · split <;> exact hBuilt.persist _

theorem sound_run (h : w.bdk.staged.Sound) (op : WalletOp) : (op.run keys w).2.bdk.staged.Sound := by
  cases op with
  | nextReceiveAddress writeError | nextUnusedAddressScript writeError =>
    exact sound_vend (BdkWallet.sound_nextUnusedAddress h .external) writeError
  | revealNextExternalScript writeError | getChangeDestinationScript writeError | destinationScriptForIndex _ writeError =>
    exact sound_vend (BdkWallet.sound_apply h _) writeError
  | revealDerivedDestinations indexes writeError => exact sound_revealDerivedDestinations h indexes writeError
  | sync update stopGap writeError markerFails => exact sound_sync h update stopGap writeError markerFails
  | applyUnconfirmedTx tx writeError => exact sound_applyUpdate h _ writeError
  | estimateOnchainTx spec answer => exact (sound_buildTxLocked h spec answer).discard
  | createOnchainTx spec answer verify mapBuildFailure signing writeError =>
    exact sound_create h spec answer verify mapBuildFailure signing writeError
  | restart unreadable => exact .load _

end Steps

/-! ## Whole runs -/

/-- In a run from any file, everything returned is durable exactly as long as no operation hands out
again an address that memory has revealed and the file and the stage have not. -/
theorem returned_durable_iff (keys : Descriptors) (disk : ChangeSet) (wideScanMarker unreadable : Bool)
    (ops : List WalletOp) :
    Along (WalletOp.step keys) (fun w op => op.Durable keys w) (.new disk wideScanMarker unreadable) ops ↔
      Along (WalletOp.step keys) (fun w op => op.Fresh keys w) (.new disk wideScanMarker unreadable) ops := by
  refine along_congr (P := fun w => w.bdk.staged.Sound) ?_ ?_ (.load disk) ops
  · rintro w op _ hSound - ⟨⟩
    exact sound_run hSound op
  · intro w op hSound
    exact durable_iff_fresh hSound op

def demoCoin : LocalOutput := ⟨⟨"receipt", 0⟩, ⟨100000, demoKeys.spk .external 0⟩, .external, true⟩

/-- One confirmed receipt. -/
def demoFunds : ChangeSet where
  revealed k := if k = .external then 1 else 0
  txs := {⟨"receipt", [⟨"payer", 0⟩], [demoCoin.txout]⟩}
  anchors := {"receipt"}
  tip := 1000

/-- A max-send estimate reveals an internal address for the reserve and discards the reveal. The next
build takes this address for its change, and a wallet loaded from the file does not know it. -/
theorem estimated_reserve_lost :
    ¬ Along (WalletOp.step demoKeys) (fun w op => op.Durable demoKeys w) (.new demoFunds false false)
      [.estimateOnchainTx (.drainWithReserve [7] 10000) ⟨false, false, .ok ⟨[demoCoin], some 89500, .ok 500⟩⟩,
        .createOnchainTx (.fundingOutput [8] 20000) ⟨false, false, .ok ⟨[demoCoin], some 79500, .ok 500⟩⟩ (fun _ => .ok ())
          (fun _ => .buildFailed "") ⟨.ok true, .ok "funding"⟩ none] := by
  decide +kernel

end WalletCore.Wallet
