import WalletCore.Wallet.Spending

/-! # The guards of a send

What is returned pays what was reviewed. A send of the whole balance pays the reserve to the wallet
itself. A send of an exact amount holds the reserve back by the fee of a build made for the check, and
the build that is returned may pick other coins and cost more.
-/

namespace WalletCore.Wallet

open Lib
open Restore (hexStr)

/-! ## What a send has to keep -/

/-- The reviewed amount is paid to the reviewed script, at the reviewed fee. -/
structure AsReviewed (expected : DriftGuard) (sent : Psbt × Transaction) : Prop where
  pays : ∃ out ∈ sent.2.outputs, hexStr out.scriptPubkey = expected.scriptHex ∧ out.value = expected.expectedAmountSats
  fee : sent.1.fee = .ok expected.expectedFeeSats
  ceiling : expected.expectedFeeSats ≤ maxFeeSats

/-- The change, and the reserve. -/
def Psbt.ownOutputs (psbt : Psbt) : List TxOut :=
  psbt.outputs.filterMap fun (role, out) => role.ownIndex.map fun _ => out

section

variable (keys : Descriptors)

/-- What is left of the trusted balance: the coins that are not spent, and what comes back. -/
def OnchainWallet.leftSats (w : OnchainWallet) (psbt : Psbt) : Nat :=
  ∑ coin ∈ w.spendable keys \ psbt.coins.toFinset, coin.txout.value + (psbt.ownOutputs.map (·.value)).sum

/-- One output of the wallet's own holds the reserve, nothing else is left, and whatever else is paid
goes to the recipient. -/
structure LeavesReserve (w after : OnchainWallet) (recipient : Script) (reserveSats : Nat) (sent : Psbt × Transaction) :
    Prop where
  own : ∃ out ∈ sent.2.outputs, sent.1.ownOutputs = [out] ∧ out.value = reserveSats ∧
    after.isMineScript keys out.scriptPubkey = true
  others : ∀ out ∈ sent.2.outputs, out ∈ sent.1.ownOutputs ∨ out.scriptPubkey = recipient
  left : w.leftSats keys sent.1 = reserveSats
  spendsAll : ∀ coin ∈ w.spendable keys, coin.outpoint ∈ sent.2.inputs

/-! ## What the libraries promise -/

/-- A reveal finds no coin in the transactions known already. -/
def OnchainWallet.RevealsNoCoin (w : OnchainWallet) : Prop :=
  ∀ view : BdkWallet, Grows w.live view.live ∅ → view.listUnspent keys = w.bdk.listUnspent keys

/-- Coins that may be spent are picked, each once, and what they hold is paid out. -/
structure BuildAnswer.Pays (answer : BuildAnswer) (w : OnchainWallet) (fixedSats : Nat) : Prop where
  distinct : ∀ draft, answer.result = .ok draft → draft.coins.Nodup
  picks : ∀ draft, answer.result = .ok draft → ∀ coin ∈ draft.coins, coin ∈ w.spendable keys
  pays : ∀ draft fee, answer.result = .ok draft → draft.fee = .ok fee →
    (draft.coins.map (·.txout.value)).sum = fixedSats + draft.excess.getD 0 + fee

/-- All of them are picked. -/
structure BuildAnswer.Drains (answer : BuildAnswer) (w : OnchainWallet) (fixedSats : Nat) : Prop
    extends answer.Pays keys w fixedSats where
  takesAll : ∀ draft, answer.result = .ok draft → ∀ coin ∈ w.spendable keys, coin ∈ draft.coins

def BuildAnswer.Costs (answer : BuildAnswer) (feeSats : Nat) : Prop :=
  ∃ draft, answer.result = .ok draft ∧ draft.fee = .ok feeSats

/-- No address has a script whose outputs are never dust. -/
def AddressLibrary.HasDustFloor (library : AddressLibrary) : Prop :=
  ∀ text unchecked, library.fromStr text = .ok unchecked → 0 < library.minimalNonDust unchecked.scriptPubkey

/-- The signer finalizes and the file is written. -/
structure BuildIo.GoesThrough (io : BuildIo) : Prop where
  signs : io.signing.sign = .ok true
  extracts : ∃ txid, io.signing.extract = .ok txid
  writes : io.writeError = none

/-- What was estimated is sent. Since the estimate the wallet has revealed addresses at most, and a
drain of the same coins costs the same each time. -/
structure MaxSendReviewed (library : AddressLibrary) (network : Network) (reviewed w : OnchainWallet) (address : String)
    (expected : DriftGuard) (reserveSats feeRateSatPerVb : Nat) (first estimate : BuildAnswer) (io : BuildIo) :
    Prop where
  estimated : ∃ est, (estimateMaxSendable keys library network reviewed address reserveSats feeRateSatPerVb first).1 =
    .ok est ∧ DriftGuard.forAddress library address network est.amountSats est.feeSats = .ok expected
  still : reviewed.RevealsNoCoin keys
  unchanged : Grows reviewed.live w.live ∅
  alike : ∀ feeSats, first.Costs feeSats → (0 < reserveSats → estimate.Costs feeSats) ∧ io.answer.Costs feeSats
  drains : io.answer.Drains keys reviewed reserveSats
  dustFloor : library.HasDustFloor
  goesThrough : io.GoesThrough

/-- The reserve output stands in front of the reviewed one, at the same script and with another amount. -/
def ReserveInFront (w : OnchainWallet) (expected : DriftGuard) (reserveSats : Nat) (answer : BuildAnswer) : Prop :=
  0 < reserveSats ∧ answer.reversed = false ∧ expected.expectedAmountSats ≠ reserveSats ∧
    expected.scriptHex = hexStr (keys.spk .internal (w.live.revealed .internal + 1))

end

/-! ## Coins -/

section

variable {keys : Descriptors} {w : OnchainWallet}

theorem OnchainWallet.RevealsNoCoin.spendable (h : w.RevealsNoCoin keys) {view : OnchainWallet}
    (hGrows : Grows w.live view.live ∅) : view.spendable keys = w.spendable keys := by
  rw [OnchainWallet.spendable, OnchainWallet.spendable, h view.bdk hGrows]

theorem OnchainWallet.RevealsNoCoin.trusted (h : w.RevealsNoCoin keys) {view : OnchainWallet}
    (hGrows : Grows w.live view.live ∅) : view.trustedSpendableSats keys = w.trustedSpendableSats keys := by
  change view.bdk.trustedSpendable keys = w.bdk.trustedSpendable keys
  rw [BdkWallet.trustedSpendable, BdkWallet.trustedSpendable, h view.bdk hGrows]

/-- So it is where every known output that belongs to the wallet is at a tracked address. -/
theorem revealsNoCoin_of_tracked
    (h : ∀ tx ∈ w.live.txs, ∀ out ∈ tx.outputs, ∀ k index, keys.spk k index = out.scriptPubkey →
      (w.bdk.indexOfSpk keys out.scriptPubkey).isSome = true) : w.RevealsNoCoin keys := by
  intro view hGrows
  ext coin
  constructor
  · intro hCoin
    obtain ⟨⟨tx, hTx, hOwn⟩, hUnspent⟩ := mem_listUnspent.mp hCoin
    obtain ⟨out, vout, found, hOut, hFound, rfl⟩ := mem_ownOutputs.mp hOwn
    rw [hGrows.txs_eq] at hTx
    have hMine : view.isMine keys out.scriptPubkey = true := by rw [BdkWallet.isMine, hFound, Option.isSome_some]
    obtain ⟨k, index, -, hScript⟩ := BdkWallet.isMine_iff.mp hMine
    obtain ⟨known, hKnown⟩ := Option.isSome_iff_exists.mp (h tx hTx out (List.fst_mem_of_mem_zipIdx hOut) k index hScript)
    have hSame : known = found := Option.some.inj ((indexOfSpk_mono hGrows.revealed hKnown).symm.trans hFound)
    refine mem_listUnspent.mpr ⟨⟨tx, hTx, mem_ownOutputs.mpr ⟨out, vout, known, hOut, hKnown, ?_⟩⟩, ?_⟩
    · rw [hSame, hGrows.anchors]
      rfl
    · rintro ⟨spender, hSpender, hSpends⟩
      exact hUnspent ⟨spender, hGrows.txs_eq ▸ hSpender, hSpends⟩
  · intro hCoin
    exact mem_listUnspent_of_grows hGrows hCoin (by simp)

theorem sum_left_add_picked {coins : List LocalOutput} (hDistinct : coins.Nodup)
    (hPicked : ∀ coin ∈ coins, coin ∈ w.spendable keys) :
    ∑ coin ∈ w.spendable keys \ coins.toFinset, coin.txout.value + (coins.map (·.txout.value)).sum =
      w.trustedSpendableSats keys := by
  have hSubset : coins.toFinset ⊆ w.spendable keys := by
    intro coin hCoin
    exact hPicked coin (List.mem_toFinset.mp hCoin)
  rw [← List.sum_toFinset _ hDistinct]
  exact Finset.sum_sdiff hSubset

theorem BuildAnswer.Drains.of_grows {answer : BuildAnswer} {fixedSats : Nat} {view : OnchainWallet}
    (h : answer.Drains keys w fixedSats) (hStill : w.RevealsNoCoin keys) (hGrows : Grows w.live view.live ∅) :
    answer.Drains keys view fixedSats := by
  have hSpendable := hStill.spendable hGrows
  constructor
  · exact ⟨h.distinct, hSpendable ▸ h.picks, h.pays⟩
  · rw [hSpendable]
    exact h.takesAll

theorem BuildAnswer.Drains.spendable_sdiff {answer : BuildAnswer} {fixedSats : Nat} {draft : Draft}
    (h : answer.Drains keys w fixedSats) (hDraft : answer.result = .ok draft) :
    w.spendable keys \ draft.coins.toFinset = ∅ := by
  rw [Finset.sdiff_eq_empty_iff_subset]
  intro coin hCoin
  exact List.mem_toFinset.mpr (h.takesAll draft hDraft coin hCoin)

end

/-! ## One build -/

section

variable {keys : Descriptors} {w : OnchainWallet} {bdk : BdkWallet} {spec : TxSpec} {answer : BuildAnswer}

theorem built_draft {psbt : Psbt} (h : (buildTxLocked keys bdk spec answer).1 = .ok psbt) :
    ∃ draft, answer.result = .ok draft ∧ psbt.coins = draft.coins ∧ psbt.fee = draft.fee ∧
      (psbt.ownOutputs.map (·.value)).sum = spec.ownSats draft := by
  obtain ⟨draft, -, hDraft, hCoins, hFee, -⟩ := built_ok h
  refine ⟨draft, hDraft, hCoins, hFee, ?_⟩
  cases spec <;> simp only [buildTxLocked, hDraft, Except.map, Except.ok.injEq] at h <;> subst h <;>
    cases hExcess : draft.excess <;>
    simp [Psbt.ownOutputs, OutputRole.ownIndex, TxSpec.ownSats, hExcess]

theorem exists_built {draft : Draft} (hDraft : answer.result = .ok draft) :
    ∃ psbt, (buildTxLocked keys bdk spec answer).1 = .ok psbt ∧ psbt.fee = draft.fee := by
  cases hBuilt : (buildTxLocked keys bdk spec answer).1 with
  | error failure => cases spec <;> simp [buildTxLocked, hDraft, Except.map] at hBuilt
  | ok psbt =>
    obtain ⟨found, hFound, -, hFee, -⟩ := built_draft hBuilt
    cases hDraft.symm.trans hFound
    exact ⟨psbt, rfl, hFee⟩

theorem BuildAnswer.Costs.unique {first second : Nat} (h : answer.Costs first) (h' : answer.Costs second) :
    first = second := by
  obtain ⟨draft, hDraft, hFee⟩ := h
  obtain ⟨found, hFound, hOther⟩ := h'
  cases hDraft.symm.trans hFound
  exact Except.ok.inj (hFee.symm.trans hOther)

/-- What a build leaves, what it pays for and what it costs add up to the balance. -/
theorem leftSats_add_paid {psbt : Psbt} {feeSats : Nat} (hPays : answer.Pays keys w spec.fixedSats)
    (hBuilt : (buildTxLocked keys bdk spec answer).1 = .ok psbt) (hFee : psbt.fee = .ok feeSats) :
    ∃ draft, answer.result = .ok draft ∧ w.leftSats keys psbt + spec.fixedSats + draft.excess.getD 0 + feeSats =
      w.trustedSpendableSats keys + spec.ownSats draft := by
  obtain ⟨draft, hDraft, hCoins, hPaid, hOwn⟩ := built_draft hBuilt
  refine ⟨draft, hDraft, ?_⟩
  have hLeft := sum_left_add_picked (hPays.distinct draft hDraft) (hPays.picks draft hDraft)
  have hSum := hPays.pays draft feeSats hDraft (hPaid ▸ hFee)
  rw [OnchainWallet.leftSats, hCoins, hOwn]
  omega

theorem factsFrom_of_fee {psbt : Psbt} {feeSats : Nat} (hFee : psbt.fee = .ok feeSats) :
    factsFrom psbt = .ok ⟨feeSats, psbt.outputs.map Prod.snd⟩ := by
  rw [factsFrom, hFee]

theorem exists_estimate {feeSats : Nat} (h : answer.Costs feeSats) :
    ∃ facts, (w.estimateOnchainTx keys spec answer).1 = .ok facts ∧ facts.feeSats = feeSats := by
  obtain ⟨draft, hDraft, hFee⟩ := h
  obtain ⟨psbt, hBuilt, hPaid⟩ : ∃ psbt, (buildTxLocked keys w.bdk spec answer).1 = .ok psbt ∧ _ := exists_built hDraft
  refine ⟨⟨feeSats, psbt.outputs.map Prod.snd⟩, ?_, rfl⟩
  change (buildTxLocked keys w.bdk spec answer).1.bind factsFrom = _
  rw [hBuilt]
  exact factsFrom_of_fee (hPaid.trans hFee)

/-! ## What is on file -/

theorem disk_buildTxLocked (bdk : BdkWallet) (spec : TxSpec) (answer : BuildAnswer) :
    (buildTxLocked keys bdk spec answer).2.staged.disk = bdk.staged.disk := by
  have hChange : (if answer.taken then (bdk.nextUnusedAddress keys .internal).2.markUsed
      (bdk.nextUnusedAddress keys .internal).1 else bdk).staged.disk = bdk.staged.disk := by
    split
    · change (bdk.nextUnusedAddress keys .internal).2.staged.disk = _
      rw [BdkWallet.nextUnusedAddress_snd]
      rfl
    · rfl
  cases spec with
  | recipient script amountSats => exact hChange
  | fundingOutput script amountSats => exact hChange
  | drainAll script => rfl
  | drainWithReserve recipient reserveSats => rfl

theorem disk_estimateOnchainTx (w : OnchainWallet) (spec : TxSpec) (answer : BuildAnswer) :
    (w.estimateOnchainTx keys spec answer).2.disk = w.disk := disk_buildTxLocked w.bdk spec answer

theorem disk_createOnchainTx {verify : BuiltTxFacts → Except OnchainSendError Unit}
    {mapBuildFailure : TxBuildFailure → OnchainSendError} {signing : Signing} {writeError : Option String}
    {e : OnchainSendError}
    (h : (w.createOnchainTx keys spec answer verify mapBuildFailure signing writeError).1 = .error e) :
    (w.createOnchainTx keys spec answer verify mapBuildFailure signing writeError).2.disk = w.disk := by
  have hBuilt : (buildTxLocked keys w.bdk spec answer).2.staged.disk = w.disk := disk_buildTxLocked w.bdk spec answer
  unfold OnchainWallet.createOnchainTx at h ⊢
  dsimp only at h ⊢
  split
  · exact hBuilt
  · next hApproved =>
    rw [hApproved] at h
    dsimp only at h
    split
    · next hPersisted =>
      rw [if_pos hPersisted] at h
      cases h
    · next hPersisted =>
      exact (Staged.persist_disk_of_not_persisted (Bool.eq_false_iff.mpr hPersisted)).trans hBuilt

end

/-! ## What is returned -/

section

variable {keys : Descriptors} {library : AddressLibrary} {network : Network} {w : OnchainWallet} {address : String}
  {amountSats reserveSats feeRateSatPerVb : Nat} {expected : DriftGuard} {estimate : BuildAnswer} {io : BuildIo}
  {sent : Psbt × Transaction}

theorem createOnchainTx_reviewed {spec : TxSpec} {mapBuildFailure : TxBuildFailure → OnchainSendError}
    (h : (w.createOnchainTx keys spec io.answer (verifySend expected) mapBuildFailure io.signing io.writeError).1 = .ok sent) :
    AsReviewed expected sent ∧ (buildTxLocked keys w.bdk spec io.answer).1 = .ok sent.1 ∧
      ∃ txid, sent.2 = sent.1.extractTx txid := by
  obtain ⟨hBuilt, ⟨facts, hFacts, hVerify⟩, txid, -, hTx⟩ := OnchainWallet.approve_ok (createOnchainTx_ok h)
  obtain ⟨hAmount, hFee, hCeiling⟩ := verifySend_ok_iff.mp hVerify
  have hPaid := factsFrom_ok hFacts
  rw [factsFrom_of_fee hPaid] at hFacts
  obtain ⟨out, hFound, hValue⟩ := Option.map_eq_some_iff.mp hAmount
  refine ⟨⟨⟨out, ?_, by simpa using List.find?_some hFound, hValue⟩, hFee ▸ hPaid, hFee ▸ hCeiling⟩, hBuilt, txid, hTx⟩
  have hMem := List.mem_of_find?_eq_some hFound
  rw [← Except.ok.inj hFacts] at hMem
  rw [hTx]
  exact hMem

theorem sendToAddress_ok
    (h : (sendToAddress keys library network w address amountSats expected reserveSats feeRateSatPerVb estimate io).1 =
      .ok sent) :
    ∃ script, (checkSendReserve keys library w script amountSats reserveSats estimate).1 = .ok () ∧
      ((checkSendReserve keys library w script amountSats reserveSats estimate).2.createOnchainTx keys
        (.recipient script amountSats) io.answer (verifySend expected) (fixedSendBuildError library script) io.signing
        io.writeError).1 = .ok sent := by
  unfold sendToAddress at h
  split at h
  · cases h
  · next script _ =>
    split at h
    · cases h
    · dsimp only at h
      split at h
      · cases h
      · next hChecked => exact ⟨script, hChecked, h⟩

theorem sendMax_ok
    (h : (sendMax keys library network w address expected reserveSats feeRateSatPerVb estimate io).1 = .ok sent) :
    ∃ script, parseAddress library address network = .ok script ∧
      sendMax keys library network w address expected reserveSats feeRateSatPerVb estimate io =
        (checkMaxSend keys library network w address reserveSats feeRateSatPerVb estimate).2.createOnchainTx keys
          (maxSendSpec script reserveSats) io.answer (verifySend expected) maxSendBuildError io.signing io.writeError := by
  unfold sendMax at h ⊢
  split at h
  · cases h
  · next script hScript =>
    split at h
    · cases h
    · next hRate =>
      dsimp only at h
      split at h
      · cases h
      · next hChecked =>
        refine ⟨script, hScript, ?_⟩
        simp only [hChecked]

/-- The check has held the reserve back by the fee of its own build. -/
theorem sendToAddress_checked (hStill : w.RevealsNoCoin keys) (hReserve : 0 < reserveSats)
    (h : (sendToAddress keys library network w address amountSats expected reserveSats feeRateSatPerVb estimate io).1 =
      .ok sent) :
    ∃ checkedSats, estimate.Costs checkedSats ∧
      amountSats + checkedSats + reserveSats ≤ w.trustedSpendableSats keys := by
  obtain ⟨script, hChecked, -⟩ := sendToAddress_ok h
  have hTrusted := hStill.trusted (grows_checkSendReserve keys w library script amountSats reserveSats estimate)
  obtain ⟨draft, feeSats, hDraft, hFee, hLeft⟩ := checkSendReserve_ok hReserve hChecked
  exact ⟨feeSats, ⟨draft, hDraft, hFee⟩, hTrusted ▸ hLeft⟩

/-- Only the fee that is paid counts. -/
theorem sendToAddress_left_iff (hPays : io.answer.Pays keys w amountSats)
    (h : (sendToAddress keys library network w address amountSats expected reserveSats feeRateSatPerVb estimate io).1 =
      .ok sent) :
    reserveSats ≤ w.leftSats keys sent.1 ↔
      amountSats + expected.expectedFeeSats + reserveSats ≤ w.trustedSpendableSats keys := by
  obtain ⟨script, -, hSent⟩ := sendToAddress_ok h
  obtain ⟨hReviewed, hBuilt, -⟩ := createOnchainTx_reviewed hSent
  obtain ⟨draft, -, hSum⟩ := leftSats_add_paid hPays hBuilt hReviewed.fee
  change _ + amountSats + draft.excess.getD 0 + _ = _ + draft.excess.getD 0 at hSum
  omega

/-! ## The drain -/

theorem built_drain {bdk : BdkWallet} {recipient : Script} {answer : BuildAnswer} {psbt : Psbt}
    (h : (buildTxLocked keys bdk (.drainAll recipient) answer).1 = .ok psbt) :
    ∃ draft, answer.result = .ok draft ∧
      psbt = ⟨draft.coins, (draft.excess.map fun sats => (.drain, ⟨sats, recipient⟩)).toList, draft.fee⟩ := by
  obtain ⟨draft, hDraft, -⟩ := built_draft h
  simp only [buildTxLocked, hDraft, Except.map, Except.ok.injEq] at h
  exact ⟨draft, hDraft, h.symm⟩

theorem built_reserve {bdk : BdkWallet} {recipient : Script} {answer : BuildAnswer} {psbt : Psbt}
    (h : (buildTxLocked keys bdk (.drainWithReserve recipient reserveSats) answer).1 = .ok psbt) :
    ∃ draft, answer.result = .ok draft ∧ psbt = ⟨draft.coins, answer.arrange
      ((.reserve (bdk.live.revealed .internal), ⟨reserveSats, keys.spk .internal (bdk.live.revealed .internal)⟩) ::
        (draft.excess.map fun sats => (.drain, ⟨sats, recipient⟩)).toList), draft.fee⟩ := by
  obtain ⟨draft, hDraft, -⟩ := built_draft h
  simp only [buildTxLocked, hDraft, Except.map, Except.ok.injEq] at h
  exact ⟨draft, hDraft, h.symm⟩

theorem sendMax_leavesReserve (hReserve : 0 < reserveSats) (hDrains : io.answer.Drains keys w reserveSats)
    (h : (sendMax keys library network w address expected reserveSats feeRateSatPerVb estimate io).1 = .ok sent) :
    ∃ script, parseAddress library address network = .ok script ∧ LeavesReserve keys w
      (sendMax keys library network w address expected reserveSats feeRateSatPerVb estimate io).2 script reserveSats
      sent := by
  obtain ⟨script, hScript, hSend⟩ := sendMax_ok h
  rw [hSend, maxSendSpec, if_neg hReserve.ne'] at h
  rw [hSend, maxSendSpec, if_neg hReserve.ne']
  generalize (checkMaxSend keys library network w address reserveSats feeRateSatPerVb estimate).2 = before at h ⊢
  obtain ⟨hReviewed, hBuilt, txid, hTx⟩ := createOnchainTx_reviewed h
  obtain ⟨draft, hDraft, hPsbt⟩ := built_reserve hBuilt
  let reserve : TxOut := ⟨reserveSats, keys.spk .internal (before.live.revealed .internal)⟩
  have hOwn : sent.1.ownOutputs = [reserve] := by
    rw [hPsbt, Psbt.ownOutputs, BuildAnswer.filterMap_arrange]
    cases draft.excess <;> exact BuildAnswer.arrange_singleton _ _
  have hOutputs (out : TxOut) : out ∈ sent.2.outputs ↔ out = reserve ∨ ∃ sats ∈ draft.excess, out = ⟨sats, script⟩ := by
    rw [hTx, hPsbt]
    simp only [Psbt.extractTx, List.mem_map, BuildAnswer.mem_arrange, List.mem_cons, Option.mem_toList, Option.mem_def,
      Option.map_eq_some_iff]
    constructor
    · rintro ⟨_, rfl | ⟨sats, hSats, rfl⟩, rfl⟩
      · exact .inl rfl
      · exact .inr ⟨sats, hSats, rfl⟩
    · rintro (rfl | ⟨sats, hSats, rfl⟩)
      · exact ⟨_, .inl rfl, rfl⟩
      · exact ⟨_, .inr ⟨sats, hSats, rfl⟩, rfl⟩
  have hLive := live_createOnchainTx keys before (.drainWithReserve script reserveSats) io.answer (verifySend expected)
    maxSendBuildError io.signing io.writeError
  refine ⟨script, hScript, ⟨reserve, (hOutputs reserve).mpr (.inl rfl), hOwn, rfl, ?_⟩, ?_, ?_, ?_⟩
  · refine BdkWallet.isMine_iff.mpr ⟨.internal, before.live.revealed .internal, ?_, rfl⟩
    change _ < (OnchainWallet.live _).revealed .internal + lookahead
    rw [hLive]
    change _ < (before.bdk.apply (.reveal .internal (before.live.revealed .internal))).live.revealed .internal + lookahead
    rw [BdkWallet.live_apply]
    have hRevealed : before.live.revealed .internal < _ := ChangeSet.reveal_le_iff.mp (le_sup_right (a := before.bdk.live)
      (b := ChangeSet.reveal .internal (before.live.revealed .internal)))
    omega
  · intro out hOut
    obtain rfl | ⟨sats, -, rfl⟩ := (hOutputs out).mp hOut
    · exact .inl (hOwn ▸ List.mem_singleton_self _)
    · exact .inr rfl
  · have hCoins : sent.1.coins = draft.coins := by rw [hPsbt]
    rw [OnchainWallet.leftSats, hCoins, hDrains.spendable_sdiff hDraft, hOwn]
    exact Nat.zero_add _
  · intro coin hCoin
    rw [hTx, hPsbt]
    exact List.mem_map_of_mem (hDrains.takesAll draft hDraft coin hCoin)

/-- The amount that is estimated is what the balance holds beyond the fee and the reserve. -/
theorem estimateMaxSendable_ok_iff (hStill : w.RevealsNoCoin keys) {est : MaxSendEstimate} :
    (estimateMaxSendable keys library network w address reserveSats feeRateSatPerVb estimate).1 = .ok est ↔
      ∃ script feeSats, parseAddress library address network = .ok script ∧
        (∃ rate, feeRateFrom feeRateSatPerVb = .ok rate) ∧ estimate.Costs feeSats ∧ feeSats ≤ maxFeeSats ∧
        library.minimalNonDust script + feeSats + reserveSats ≤ w.trustedSpendableSats keys ∧
        est = ⟨w.trustedSpendableSats keys - feeSats - reserveSats, feeSats, feeRateSatPerVb, reserveSats⟩ := by
  unfold estimateMaxSendable
  cases hScript : parseAddress library address network with
  | error e => simp
  | ok script =>
    cases hRate : feeRateFrom feeRateSatPerVb with
    | error e => simp
    | ok rate =>
      dsimp only
      rw [hStill.trusted (grows_estimateOnchainTx keys w (maxSendSpec script reserveSats) estimate)]
      cases hFacts : (w.estimateOnchainTx keys (maxSendSpec script reserveSats) estimate).1 with
      | error failure =>
        constructor
        · intro h
          cases h
        · rintro ⟨_, feeSats, _, _, hCosts, _⟩
          obtain ⟨facts, hOk, -⟩ : ∃ facts, (w.estimateOnchainTx keys (maxSendSpec script reserveSats) estimate).1 =
            .ok facts ∧ _ := exists_estimate hCosts
          cases hFacts.symm.trans hOk
      | ok facts =>
        have hCosts : estimate.Costs facts.feeSats := estimateOnchainTx_ok hFacts
        let amountSats : Int := w.trustedSpendableSats keys - facts.feeSats - reserveSats
        have hGuards : checkMaxSendGuards amountSats facts.feeSats (library.minimalNonDust script) = .ok () ↔ _ :=
          checkMaxSendGuards_ok_iff
        have hEnough : library.minimalNonDust script ≤ amountSats ↔
            library.minimalNonDust script + facts.feeSats + reserveSats ≤ w.trustedSpendableSats keys := by omega
        have hWhole : amountSats.toNat = w.trustedSpendableSats keys - facts.feeSats - reserveSats := by omega
        rw [hEnough] at hGuards
        change (do
          checkMaxSendGuards amountSats facts.feeSats (library.minimalNonDust script)
          return (⟨amountSats.toNat, facts.feeSats, feeRateSatPerVb, reserveSats⟩ : MaxSendEstimate)) = .ok est ↔ _
        rw [hWhole]
        constructor
        · intro h
          cases hChecked : checkMaxSendGuards amountSats facts.feeSats (library.minimalNonDust script) with
          | error e => simp [hChecked, bind, Except.bind] at h
          | ok =>
            rw [hChecked] at h
            obtain ⟨hCeiling, hDust⟩ := hGuards.mp hChecked
            exact ⟨script, facts.feeSats, rfl, ⟨rate, rfl⟩, hCosts, hCeiling, hDust, (Except.ok.inj h).symm⟩
        · rintro ⟨_, feeSats, ⟨⟩, -, hOther, hCeiling, hDust, rfl⟩
          obtain rfl := hCosts.unique hOther
          rw [hGuards.mpr ⟨hCeiling, hDust⟩]
          rfl

/-! ## A reviewed max send -/

theorem OnchainWallet.RevealsNoCoin.of_grows {view : OnchainWallet} (h : w.RevealsNoCoin keys)
    (hGrows : Grows w.live view.live ∅) : view.RevealsNoCoin keys := by
  intro later hLater
  rw [h later (hGrows.reveals hLater), h view.bdk hGrows]

theorem parseAddress_ok {script : Script} (h : parseAddress library address network = .ok script) :
    ∃ unchecked, library.fromStr (trim address) = .ok unchecked ∧ unchecked.scriptPubkey = script := by
  unfold parseAddress at h
  split at h
  · cases h
  · next unchecked hRead =>
    split at h
    · cases h
      exact ⟨unchecked, hRead, rfl⟩
    · cases h

theorem checkMaxSend_ok (h : 0 < reserveSats → ∃ est,
      (estimateMaxSendable keys library network w address reserveSats feeRateSatPerVb estimate).1 = .ok est) :
    (checkMaxSend keys library network w address reserveSats feeRateSatPerVb estimate).1 = .ok () := by
  unfold checkMaxSend
  split
  · next hReserve =>
    obtain ⟨est, hEst⟩ := h hReserve
    rw [Prod.map_fst, hEst]
    rfl
  · rfl

/-- The guards of the estimate have used up an address. -/
theorem revealed_checkMaxSend {script : Script} {rate : Nat} (hScript : parseAddress library address network = .ok script)
    (hRate : feeRateFrom feeRateSatPerVb = .ok rate) (hReserve : 0 < reserveSats) :
    (checkMaxSend keys library network w address reserveSats feeRateSatPerVb estimate).2.live.revealed .internal =
      w.live.revealed .internal + 1 := by
  have hReveal : (w.estimateOnchainTx keys (maxSendSpec script reserveSats) estimate).2.live.revealed .internal =
      w.live.revealed .internal + 1 := by
    rw [maxSendSpec, if_neg hReserve.ne']
    change (w.bdk.apply (.reveal .internal (w.live.revealed .internal))).live.revealed .internal = _
    rw [BdkWallet.live_apply, ChangeSet.sup_revealed, ChangeSet.reveal_revealed, if_pos rfl]
    exact max_eq_right (Nat.le_succ _)
  unfold checkMaxSend
  rw [if_pos hReserve, Prod.map_snd, id_eq]
  unfold estimateMaxSendable
  simp only [hScript, hRate]
  split <;> exact hReveal

theorem createOnchainTx_ok_iff {spec : TxSpec} {verify : BuiltTxFacts → Except OnchainSendError Unit}
    {mapBuildFailure : TxBuildFailure → OnchainSendError} (hIo : io.GoesThrough) :
    (∃ sent, (w.createOnchainTx keys spec io.answer verify mapBuildFailure io.signing io.writeError).1 = .ok sent) ↔
      ∃ psbt facts, (buildTxLocked keys w.bdk spec io.answer).1 = .ok psbt ∧ factsFrom psbt = .ok facts ∧
        verify facts = .ok () := by
  constructor
  · rintro ⟨sent, hSent⟩
    obtain ⟨hBuilt, ⟨facts, hFacts, hVerify⟩, -⟩ := OnchainWallet.approve_ok (createOnchainTx_ok hSent)
    exact ⟨sent.1, facts, hBuilt, hFacts, hVerify⟩
  · rintro ⟨psbt, facts, hBuilt, hFacts, hVerify⟩
    obtain ⟨txid, hExtract⟩ := hIo.extracts
    have hApproved : OnchainWallet.approve (buildTxLocked keys w.bdk spec io.answer).1 verify mapBuildFailure io.signing =
        .ok (psbt, psbt.extractTx txid) := by
      simp [OnchainWallet.approve, hBuilt, hFacts, hVerify, hIo.signs, hExtract, Except.bind, Except.map, bind]
    refine ⟨(psbt, psbt.extractTx txid), ?_⟩
    simp [OnchainWallet.createOnchainTx, hApproved, hIo.writes, OnchainWallet.persisted, Staged.persisted]

/-- The first output at the script counts. -/
theorem valueForScript_arrange (answer : BuildAnswer) (reserve drain : TxOut) (feeSats : Nat) :
    (BuiltTxFacts.mk feeSats (answer.arrange [reserve, drain])).outputValueForScriptHex (hexStr drain.scriptPubkey) =
      some (if answer.reversed = false ∧ hexStr drain.scriptPubkey = hexStr reserve.scriptPubkey then reserve.value
        else drain.value) := by
  rw [BuiltTxFacts.outputValueForScriptHex, BuildAnswer.arrange]
  cases answer.reversed with
  | true => simp
  | false =>
    by_cases hSame : hexStr reserve.scriptPubkey = hexStr drain.scriptPubkey
    · simp [hSame]
    · simp [hSame, Ne.symm hSame]

theorem drained_excess {draft : Draft} {feeSats : Nat} (hDrains : io.answer.Drains keys w reserveSats)
    (hDraft : io.answer.result = .ok draft) (hFee : draft.fee = .ok feeSats)
    (hSome : feeSats + reserveSats < w.trustedSpendableSats keys) :
    draft.excess = some (w.trustedSpendableSats keys - feeSats - reserveSats) := by
  have hAll := sum_left_add_picked (hDrains.distinct draft hDraft) (hDrains.picks draft hDraft)
  have hPays := hDrains.pays draft feeSats hDraft hFee
  rw [hDrains.spendable_sdiff hDraft, Finset.sum_empty, Nat.zero_add, hPays] at hAll
  cases hExcess : draft.excess with
  | none =>
    rw [hExcess, Option.getD_none] at hAll
    omega
  | some sats =>
    rw [hExcess, Option.getD_some] at hAll
    rw [← hAll]
    congr 1
    omega

theorem sendMax_eq {script : Script} {rate : Nat} (hScript : parseAddress library address network = .ok script)
    (hRate : feeRateFrom feeRateSatPerVb = .ok rate)
    (hChecked : (checkMaxSend keys library network w address reserveSats feeRateSatPerVb estimate).1 = .ok ()) :
    sendMax keys library network w address expected reserveSats feeRateSatPerVb estimate io =
      (checkMaxSend keys library network w address reserveSats feeRateSatPerVb estimate).2.createOnchainTx keys
        (maxSendSpec script reserveSats) io.answer (verifySend expected) maxSendBuildError io.signing io.writeError := by
  unfold sendMax
  simp only [hScript, hRate, hChecked]

/-- The drain is accepted unless the reserve output is mistaken for it. -/
theorem verify_drained_iff {bdk : BdkWallet} {script : Script} {draft : Draft} {amountSats feeSats : Nat}
    (hDraft : io.answer.result = .ok draft) (hFee : draft.fee = .ok feeSats) (hExcess : draft.excess = some amountSats)
    (hCeiling : feeSats ≤ maxFeeSats) :
    (∃ psbt facts, (buildTxLocked keys bdk (maxSendSpec script reserveSats) io.answer).1 = .ok psbt ∧
      factsFrom psbt = .ok facts ∧ verifySend ⟨hexStr script, amountSats, feeSats⟩ facts = .ok ()) ↔
      ¬ (0 < reserveSats ∧ io.answer.reversed = false ∧ amountSats ≠ reserveSats ∧
        hexStr script = hexStr (keys.spk .internal (bdk.live.revealed .internal))) := by
  obtain ⟨psbt, hBuilt, hPaid⟩ :
    ∃ psbt, (buildTxLocked keys bdk (maxSendSpec script reserveSats) io.answer).1 = .ok psbt ∧ _ := exists_built hDraft
  have hFacts := factsFrom_of_fee (hPaid.trans hFee)
  have hOnly : (∃ found facts, (buildTxLocked keys bdk (maxSendSpec script reserveSats) io.answer).1 = .ok found ∧
      factsFrom found = .ok facts ∧ verifySend ⟨hexStr script, amountSats, feeSats⟩ facts = .ok ()) ↔
        verifySend ⟨hexStr script, amountSats, feeSats⟩ ⟨feeSats, psbt.outputs.map Prod.snd⟩ = .ok () := by
    constructor
    · rintro ⟨found, facts, hFound, hFoundFacts, hVerify⟩
      cases hBuilt.symm.trans hFound
      cases hFacts.symm.trans hFoundFacts
      exact hVerify
    · intro hVerify
      exact ⟨psbt, _, hBuilt, hFacts, hVerify⟩
  rw [hOnly, verifySend_ok_iff, and_iff_left (show _ ∧ _ from ⟨rfl, hCeiling⟩)]
  dsimp only
  by_cases hReserve : reserveSats = 0
  · rw [maxSendSpec, if_pos hReserve] at hBuilt
    obtain ⟨found, hFound, rfl⟩ := built_drain hBuilt
    cases hDraft.symm.trans hFound
    simp [BuiltTxFacts.outputValueForScriptHex, hExcess, hReserve]
  · rw [maxSendSpec, if_neg hReserve] at hBuilt
    obtain ⟨found, hFound, rfl⟩ := built_reserve hBuilt
    cases hDraft.symm.trans hFound
    have hValue := valueForScript_arrange io.answer ⟨reserveSats, keys.spk .internal (bdk.live.revealed .internal)⟩
      ⟨amountSats, script⟩ feeSats
    rw [BuildAnswer.map_arrange, hExcess]
    refine (Eq.congr_left hValue).trans ?_
    dsimp only
    rw [Option.some_inj]
    split
    · next hFront =>
      simp [hFront, Nat.pos_of_ne_zero hReserve, eq_comm]
    · next hBehind =>
      refine iff_of_true rfl ?_
      rintro ⟨-, hOrder, -, hSame⟩
      exact hBehind ⟨hOrder, hSame⟩

/-- A reviewed max send is refused only where the reserve output stands in front at the same script. -/
theorem sendMax_reviewed_iff {reviewed : OnchainWallet} {first : BuildAnswer}
    (h : MaxSendReviewed keys library network reviewed w address expected reserveSats feeRateSatPerVb first estimate io) :
    (∃ sent, (sendMax keys library network w address expected reserveSats feeRateSatPerVb estimate io).1 = .ok sent) ↔
      ¬ ReserveInFront keys w expected reserveSats io.answer := by
  obtain ⟨est, hEst, hExpected⟩ := h.estimated
  obtain ⟨script, feeSats, hScript, ⟨rate, hRate⟩, hCosts, hCeiling, hDust, rfl⟩ :=
    (estimateMaxSendable_ok_iff h.still).mp hEst
  obtain ⟨hEstimate, draft, hDraft, hFee⟩ := h.alike feeSats hCosts
  have hGuard : expected = ⟨hexStr script, reviewed.trustedSpendableSats keys - feeSats - reserveSats, feeSats⟩ := by
    simp only [DriftGuard.forAddress, hScript, Except.map, Except.ok.injEq] at hExpected
    exact hExpected.symm
  subst hGuard
  -- The guards of the estimate pass again on the same balance.
  have hTrusted := h.still.trusted h.unchanged
  have hChecked : (checkMaxSend keys library network w address reserveSats feeRateSatPerVb estimate).1 = .ok () := by
    refine checkMaxSend_ok fun hReserve => ⟨_, (estimateMaxSendable_ok_iff (h.still.of_grows h.unchanged)).mpr
      ⟨script, feeSats, hScript, ⟨rate, hRate⟩, hEstimate hReserve, hCeiling, ?_, rfl⟩⟩
    rwa [hTrusted]
  obtain ⟨unchecked, hRead, rfl⟩ := parseAddress_ok hScript
  have hPositive := h.dustFloor _ unchecked hRead
  have hExcess := drained_excess h.drains hDraft hFee (by omega)
  rw [sendMax_eq hScript hRate hChecked, createOnchainTx_ok_iff h.goesThrough,
    verify_drained_iff hDraft hFee hExcess hCeiling, ReserveInFront]
  by_cases hReserve : 0 < reserveSats
  · have hRevealed : (checkMaxSend keys library network w address reserveSats feeRateSatPerVb estimate).2.bdk.live.revealed
        .internal = w.live.revealed .internal + 1 := revealed_checkMaxSend hScript hRate hReserve
    rw [hRevealed]
  · simp [hReserve]

/-! ## Errors -/

theorem disk_checkSendReserve (script : Script) :
    (checkSendReserve keys library w script amountSats reserveSats estimate).2.disk = w.disk := by
  have hEstimate : (w.estimateOnchainTx keys (.recipient script amountSats) estimate).2.disk = w.disk :=
    disk_estimateOnchainTx w (.recipient script amountSats) estimate
  unfold checkSendReserve
  split
  · dsimp only
    split <;> exact hEstimate
  · rfl

theorem disk_checkMaxSend :
    (checkMaxSend keys library network w address reserveSats feeRateSatPerVb estimate).2.disk = w.disk := by
  unfold checkMaxSend
  split
  · rw [Prod.map_snd, id_eq]
    unfold estimateMaxSendable
    split
    · rfl
    · next script _ =>
      split
      · rfl
      · dsimp only
        split <;> exact disk_estimateOnchainTx w (maxSendSpec script reserveSats) estimate
  · rfl

theorem sendToAddress_error {e : OnchainSendError}
    (h : (sendToAddress keys library network w address amountSats expected reserveSats feeRateSatPerVb estimate io).1 =
      .error e) :
    (sendToAddress keys library network w address amountSats expected reserveSats feeRateSatPerVb estimate io).2.disk =
      w.disk := by
  unfold sendToAddress at h ⊢
  split at h
  · rfl
  · next script _ =>
    split at h
    · rfl
    · have hChecked : (checkSendReserve keys library w script amountSats reserveSats estimate).2.disk = w.disk :=
        disk_checkSendReserve script
      dsimp only at h ⊢
      split at h
      · exact hChecked
      · exact (disk_createOnchainTx h).trans hChecked

theorem sendMax_error {e : OnchainSendError}
    (h : (sendMax keys library network w address expected reserveSats feeRateSatPerVb estimate io).1 = .error e) :
    (sendMax keys library network w address expected reserveSats feeRateSatPerVb estimate io).2.disk = w.disk := by
  unfold sendMax at h ⊢
  split at h
  · rfl
  · split at h
    · rfl
    · have hChecked :
          (checkMaxSend keys library network w address reserveSats feeRateSatPerVb estimate).2.disk = w.disk :=
        disk_checkMaxSend
      dsimp only at h ⊢
      split at h
      · exact hChecked
      · exact (disk_createOnchainTx h).trans hChecked

theorem sendToAddress_reviewed
    (h : (sendToAddress keys library network w address amountSats expected reserveSats feeRateSatPerVb estimate io).1 =
      .ok sent) : AsReviewed expected sent := by
  obtain ⟨script, -, hSent⟩ := sendToAddress_ok h
  exact (createOnchainTx_reviewed hSent).1

theorem sendMax_reviewed
    (h : (sendMax keys library network w address expected reserveSats feeRateSatPerVb estimate io).1 = .ok sent) :
    AsReviewed expected sent := by
  obtain ⟨script, -, hSend⟩ := sendMax_ok h
  rw [hSend] at h
  exact (createOnchainTx_reviewed h).1

end

/-- What is returned is what was reviewed, and an error leaves the file as it was. A max send leaves exactly the
reserve. A send of an exact amount has left it by the fee of another build, and leaves it where the reviewed
fee does too. A reviewed max send goes through unless the reserve output is mistaken for it. -/
theorem send_guards_exact (keys : Descriptors) (library : AddressLibrary) (network : Network) (w : OnchainWallet)
    (address : String) (expected : DriftGuard) (reserveSats feeRateSatPerVb : Nat) (estimate : BuildAnswer)
    (io : BuildIo) :
    (∀ amountSats,
      let send := sendToAddress keys library network w address amountSats expected reserveSats feeRateSatPerVb estimate io
      (∀ sent, send.1 = .ok sent → AsReviewed expected sent ∧
        (0 < reserveSats → w.RevealsNoCoin keys → io.answer.Pays keys w amountSats →
          (∃ checkedSats, estimate.Costs checkedSats ∧
            amountSats + checkedSats + reserveSats ≤ w.trustedSpendableSats keys) ∧
          (reserveSats ≤ w.leftSats keys sent.1 ↔
            amountSats + expected.expectedFeeSats + reserveSats ≤ w.trustedSpendableSats keys))) ∧
      ∀ e, send.1 = .error e → send.2.disk = w.disk) ∧
    let send := sendMax keys library network w address expected reserveSats feeRateSatPerVb estimate io
    (∀ sent, send.1 = .ok sent → AsReviewed expected sent ∧
      (0 < reserveSats → io.answer.Drains keys w reserveSats → ∃ script, parseAddress library address network =
        .ok script ∧ LeavesReserve keys w send.2 script reserveSats sent)) ∧
    (∀ e, send.1 = .error e → send.2.disk = w.disk) ∧
    ∀ reviewed first,
      MaxSendReviewed keys library network reviewed w address expected reserveSats feeRateSatPerVb first estimate io →
      ((∃ sent, send.1 = .ok sent) ↔ ¬ ReserveInFront keys w expected reserveSats io.answer) := by
  refine ⟨fun amountSats => ⟨?_, fun e => sendToAddress_error⟩, ?_, fun e => sendMax_error, fun reviewed first =>
    sendMax_reviewed_iff⟩
  · intro sent hSent
    refine ⟨sendToAddress_reviewed hSent, fun hReserve hStill hPays => ⟨?_, ?_⟩⟩
    · exact sendToAddress_checked hStill hReserve hSent
    · exact sendToAddress_left_iff hPays hSent
  · intro sent hSent
    exact ⟨sendMax_reviewed hSent, fun hReserve hDrains => sendMax_leavesReserve hReserve hDrains hSent⟩

/-! ## A large coin and a small one -/

def demoLarge : LocalOutput := ⟨⟨"receipts", 0⟩, ⟨130000, demoPrograms.spk .external 0⟩, .external, true⟩

def demoSmall : LocalOutput := ⟨⟨"receipts", 1⟩, ⟨1000, demoPrograms.spk .external 1⟩, .external, true⟩

def demoGuarded : OnchainWallet := .new {
  revealed := fun k => if k = .external then 2 else 0
  txs := {⟨"receipts", [⟨"payer", 0⟩], [demoLarge.txout, demoSmall.txout]⟩}
  anchors := {"receipts"}
  tip := 1000 } false false

/-- What one input costs, and two. -/
def demoPicks (coins : List LocalOutput) (excessSats feeSats : Nat) : BuildAnswer :=
  ⟨false, false, .ok ⟨coins, some excessSats, .ok feeSats⟩⟩

def demoSigned (answer : BuildAnswer) : BuildIo := ⟨answer, ⟨.ok true, .ok "payment"⟩, none⟩

/-- A send to an address outside of the wallet, with a channel open, at the reviewed fee. -/
def demoSendOf (amountSats feeSats : Nat) (estimate answer : BuildAnswer) :
    Except OnchainSendError (Psbt × Transaction) × OnchainWallet :=
  sendToAddress demoPrograms demoLibrary .signet demoGuarded demoAddress amountSats
    ⟨hexStr demoScript, amountSats, feeSats⟩ 10000 2 estimate (demoSigned answer)

def demoDrain : BuildAnswer := demoPicks [demoLarge, demoSmall] 120600 400

def demoReviewed : OnchainWallet :=
  (estimateMaxSendable demoPrograms demoLibrary .signet demoGuarded demoAddress 10000 2 demoDrain).2

theorem demoGuarded_revealsNoCoin : demoGuarded.RevealsNoCoin demoPrograms := by
  apply revealsNoCoin_of_tracked
  have hTracked : ∀ tx ∈ demoGuarded.live.txs, ∀ out ∈ tx.outputs,
      (demoGuarded.bdk.indexOfSpk demoPrograms out.scriptPubkey).isSome = true := by decide +kernel
  intro tx hTx out hOut _ _ _
  exact hTracked tx hTx out hOut

theorem demoPicks_pays {coins : List LocalOutput} {excessSats feeSats fixedSats : Nat} (hDistinct : coins.Nodup)
    (hPicks : ∀ coin ∈ coins, coin ∈ demoGuarded.spendable demoPrograms)
    (hSum : (coins.map (·.txout.value)).sum = fixedSats + excessSats + feeSats) :
    (demoPicks coins excessSats feeSats).Pays demoPrograms demoGuarded fixedSats := by
  constructor
  · rintro _ ⟨⟩
    exact hDistinct
  · rintro _ ⟨⟩
    exact hPicks
  · rintro _ _ ⟨⟩ ⟨⟩
    exact hSum

/-- Both coins are picked where the check has picked the large one, and the fee of the second input comes
out of the reserve. -/
theorem costlier_build_breaks_reserve :
    demoGuarded.RevealsNoCoin demoPrograms ∧ (demoPicks [demoLarge] 9068 282).Pays demoPrograms demoGuarded 120650 ∧
      (demoPicks [demoLarge, demoSmall] 9932 418).Pays demoPrograms demoGuarded 120650 ∧
      ∃ sent, (demoSendOf 120650 418 (demoPicks [demoLarge] 9068 282)
        (demoPicks [demoLarge, demoSmall] 9932 418)).1 = .ok sent ∧
        demoGuarded.leftSats demoPrograms sent.1 < 10000 := by
  have hLeft : ((demoSendOf 120650 418 (demoPicks [demoLarge] 9068 282)
      (demoPicks [demoLarge, demoSmall] 9932 418)).1.map fun sent => demoGuarded.leftSats demoPrograms sent.1).toOption =
        some 9932 := by decide +kernel
  refine ⟨demoGuarded_revealsNoCoin, demoPicks_pays (by decide +kernel) (by decide +kernel) rfl,
    demoPicks_pays (by decide +kernel) (by decide +kernel) rfl, ?_⟩
  cases hSent : (demoSendOf 120650 418 (demoPicks [demoLarge] 9068 282) (demoPicks [demoLarge, demoSmall] 9932 418)).1 with
  | error e =>
    rw [hSent] at hLeft
    cases hLeft
  | ok sent =>
    rw [hSent] at hLeft
    refine ⟨sent, rfl, ?_⟩
    rw [show demoGuarded.leftSats demoPrograms sent.1 = 9932 from Option.some.inj hLeft]
    decide

theorem demoDrain_drains : demoDrain.Drains demoPrograms demoGuarded 10000 where
  toPays := demoPicks_pays (by decide +kernel) (by decide +kernel) rfl
  takesAll := by
    rintro _ ⟨⟩
    decide +kernel

theorem demoReviewed_grows : Grows demoGuarded.live demoReviewed.live ∅ := grows_estimateMaxSendable ..

theorem demoReviewed_reviewed : MaxSendReviewed demoPrograms demoLibrary .signet demoGuarded demoReviewed demoAddress
    ⟨hexStr demoScript, 120600, 400⟩ 10000 2 demoDrain demoDrain (demoSigned demoDrain) where
  estimated := ⟨⟨120600, 400, 2, 10000⟩, by decide +kernel, rfl⟩
  still := demoGuarded_revealsNoCoin
  unchanged := demoReviewed_grows
  alike _ hCosts := ⟨fun _ => hCosts, hCosts⟩
  drains := demoDrain_drains
  dustFloor _ _ _ := Nat.succ_pos 293
  goesThrough := ⟨rfl, ⟨"payment", rfl⟩, rfl⟩

/-- A send whose builds pick the same coin, one that is refused, and the max send that was reviewed. -/
theorem reviewed_sends_pay_and_leave :
    (∃ sent, (demoSendOf 100000 282 (demoPicks [demoLarge] 29718 282) (demoPicks [demoLarge] 29718 282)).1 = .ok sent ∧
      AsReviewed ⟨hexStr demoScript, 100000, 282⟩ sent ∧ 10000 ≤ demoGuarded.leftSats demoPrograms sent.1) ∧
    ((demoSendOf 125000 282 (demoPicks [demoLarge] 4718 282) (demoPicks [demoLarge] 4718 282)).1 =
        .error (.insufficientFunds 10000) ∧
      (demoSendOf 125000 282 (demoPicks [demoLarge] 4718 282) (demoPicks [demoLarge] 4718 282)).2.disk =
        demoGuarded.disk) ∧
    ∃ sent, (sendMax demoPrograms demoLibrary .signet demoReviewed demoAddress ⟨hexStr demoScript, 120600, 400⟩ 10000 2
      demoDrain (demoSigned demoDrain)).1 = .ok sent ∧ AsReviewed ⟨hexStr demoScript, 120600, 400⟩ sent ∧
      demoReviewed.leftSats demoPrograms sent.1 = 10000 := by
  refine ⟨?_, ?_, ?_⟩
  · obtain ⟨hSends, -⟩ := send_guards_exact demoPrograms demoLibrary .signet demoGuarded demoAddress
      ⟨hexStr demoScript, 100000, 282⟩ 10000 2 (demoPicks [demoLarge] 29718 282)
      (demoSigned (demoPicks [demoLarge] 29718 282))
    have hOk : (demoSendOf 100000 282 (demoPicks [demoLarge] 29718 282) (demoPicks [demoLarge] 29718 282)).1.isOk = true := by
      decide +kernel
    cases hSent : (demoSendOf 100000 282 (demoPicks [demoLarge] 29718 282) (demoPicks [demoLarge] 29718 282)).1 with
    | error e =>
      rw [hSent] at hOk
      cases hOk
    | ok sent =>
      obtain ⟨hReviewed, hLeft⟩ := (hSends 100000).1 sent hSent
      obtain ⟨-, hEnough⟩ := hLeft (by decide) demoGuarded_revealsNoCoin
        (demoPicks_pays (by decide +kernel) (by decide +kernel) rfl)
      exact ⟨sent, rfl, hReviewed, hEnough.mpr (by decide +kernel)⟩
  · obtain ⟨hSends, -⟩ := send_guards_exact demoPrograms demoLibrary .signet demoGuarded demoAddress
      ⟨hexStr demoScript, 125000, 282⟩ 10000 2 (demoPicks [demoLarge] 4718 282)
      (demoSigned (demoPicks [demoLarge] 4718 282))
    have hRefused : (demoSendOf 125000 282 (demoPicks [demoLarge] 4718 282) (demoPicks [demoLarge] 4718 282)).1 =
        .error (.insufficientFunds 10000) := rfl
    exact ⟨hRefused, (hSends 125000).2 _ hRefused⟩
  · obtain ⟨-, hSends, -, hGoes⟩ := send_guards_exact demoPrograms demoLibrary .signet demoReviewed demoAddress
      ⟨hexStr demoScript, 120600, 400⟩ 10000 2 demoDrain (demoSigned demoDrain)
    have hBehind : ¬ ReserveInFront demoPrograms demoReviewed ⟨hexStr demoScript, 120600, 400⟩ 10000 demoDrain := by
      rintro ⟨-, -, -, hSame⟩
      revert hSame
      decide +kernel
    obtain ⟨sent, hSent⟩ := (hGoes demoGuarded demoDrain demoReviewed_reviewed).mpr hBehind
    obtain ⟨hReviewed, hLeaves⟩ := hSends sent hSent
    obtain ⟨script, -, hReserve⟩ := hLeaves (by decide) (demoDrain_drains.of_grows demoGuarded_revealsNoCoin
      demoReviewed_grows)
    exact ⟨sent, hSent, hReviewed, hReserve.left⟩

end WalletCore.Wallet
