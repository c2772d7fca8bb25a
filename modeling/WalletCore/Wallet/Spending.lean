import WalletCore.Lib.Transition
import WalletCore.Sweep.Pass
import WalletCore.Wallet.Balance
import WalletCore.Wallet.Durable
import WalletCore.Wallet.Send

/-! # Coins between two syncs

Sends, channel funding and subsidized sweeps build from one view of the wallet. Of these only the
subsidized sweep tells the wallet what it spent. The others wait for the next sync to do so, and until
then a coin may be picked again and the reserve counted twice.
-/

namespace WalletCore.Wallet

open Lib Sweep
open Sweep (totalSats)

/-! ## Operations -/

inductive SpendOp where
  | sendOnchain (node : NodeView) (address : String) (amountSats expectedAmountSats expectedFeeSats : Nat)
      (estimate : BuildAnswer) (io : BuildIo)
  | sendOnchainMax (node : NodeView) (address : String) (expectedAmountSats expectedFeeSats : Nat)
      (estimate : BuildAnswer) (io : BuildIo)
  | fund (channelCount feeRateSatPerVb channelValueSatoshis : Nat) (outputScript : Script) (io : FundingIo)
  | subsidize (channelCount : Nat) (env : PassEnv) (descriptors : List SpendableOutputDescriptor) (destination : Script)

/-- The channels that are open when the operation is called. -/
def SpendOp.channelCount : SpendOp → Nat
  | sendOnchain node .. | sendOnchainMax node .. => node.channelCount
  | fund channelCount .. | subsidize channelCount .. => channelCount

/-- The wallet, the coins of subsidized sweeps, and the transactions returned with `Ok` since the last
sync. -/
structure Window where
  wallet : OnchainWallet
  reserved : Finset OutPoint
  handed : List Transaction

/-- The view once the wallet knows every transaction it has handed out. -/
def Window.settled (s : Window) : BdkWallet := s.wallet.bdk.apply { (⊥ : ChangeSet) with txs := s.handed.toFinset }

/-- What an operation leaves behind, and the transaction it returned with `Ok`. -/
structure Spent where
  wallet : OnchainWallet
  reserved : Finset OutPoint
  returned : Option Transaction

def returnedTx {ε : Type} : Except ε (Psbt × Transaction) → Option Transaction
  | .ok (_, tx) => some tx
  | .error _ => none

section

variable (signer : Signer) (keys : Descriptors) (library : AddressLibrary) (network : Network)

/-- The reserve of a sweep is read like that of a send. -/
def subsidizedAttempt (s : Window) (channelCount : Nat) (env : PassEnv) (descriptors : List SpendableOutputDescriptor)
    (destination : Script) : SubsidizedAttempt :=
  attemptSubsidized signer keys { env with reserveSats := anchorReserveSats channelCount } s.wallet s.reserved
    descriptors destination

def SpendOp.run (s : Window) : SpendOp → Spent
  | sendOnchain node address amountSats expectedAmountSats expectedFeeSats estimate io =>
    let (sent, wallet) := Wallet.sendOnchain keys library network s.wallet node address amountSats expectedAmountSats
      expectedFeeSats estimate io
    ⟨wallet, s.reserved, returnedTx sent⟩
  | sendOnchainMax node address expectedAmountSats expectedFeeSats estimate io =>
    let (sent, wallet) := Wallet.sendOnchainMax keys library network s.wallet node address expectedAmountSats
      expectedFeeSats estimate io
    ⟨wallet, s.reserved, returnedTx sent⟩
  | fund _ feeRateSatPerVb channelValueSatoshis outputScript io =>
    let (funded, wallet) := handleFundingGenerationReady keys s.wallet feeRateSatPerVb channelValueSatoshis outputScript io
    ⟨wallet, s.reserved, returnedTx funded⟩
  | subsidize channelCount env descriptors destination =>
    let attempt := subsidizedAttempt signer keys s channelCount env descriptors destination
    ⟨attempt.wallet, attempt.reserved,
      match attempt.outcome with
      | .broadcast .. => attempt.submitted
      | _ => none⟩

def SpendOp.step (s : Window) (op : SpendOp) : Option Window :=
  let spent := op.run signer keys library network s
  some ⟨spent.wallet, spent.reserved, spent.returned.toList ++ s.handed⟩

/-! ## What the libraries promise -/

/-- The outputs whose value the code fixes. -/
def TxSpec.fixedSats : TxSpec → Nat
  | recipient _ amountSats | fundingOutput _ amountSats => amountSats
  | drainAll _ => 0
  | drainWithReserve _ reserveSats => reserveSats

/-- Only coins that the build may spend are picked, their sum is paid out, and the txid is a new one. -/
structure BuildIo.Lawful (io : BuildIo) (w : OnchainWallet) (spec : TxSpec) : Prop where
  picks : ∀ draft, io.answer.result = .ok draft → ∀ coin ∈ draft.coins, coin ∈ w.spendable keys
  pays : ∀ draft fee, io.answer.result = .ok draft → draft.fee = .ok fee →
    (draft.coins.map (·.txout.value)).sum = spec.fixedSats + draft.excess.getD 0 + fee
  fresh : ∀ txid, io.signing.extract = .ok txid → w.live.FreshId txid

/-- Each build by the view it starts from. -/
def SpendOp.Lawful (s : Window) : SpendOp → Prop
  | sendOnchain node address amountSats _ _ estimate io =>
    ∀ script, parseAddress library address network = .ok script →
      io.Lawful keys (checkSendReserve keys library s.wallet script amountSats (anchorReserveSats node.channelCount)
        estimate).2 (.recipient script amountSats)
  | sendOnchainMax node address _ _ estimate io =>
    ∀ script, parseAddress library address network = .ok script →
      io.Lawful keys (checkMaxSend keys library network s.wallet address (anchorReserveSats node.channelCount)
        node.feeRateSatPerVb estimate).2 (maxSendSpec script (anchorReserveSats node.channelCount))
  | fund _ _ channelValueSatoshis outputScript io =>
    io.build.Lawful keys s.wallet (.fundingOutput outputScript channelValueSatoshis)
  | subsidize channelCount env descriptors destination =>
    ∀ tx, (subsidizedAttempt signer keys s channelCount env descriptors destination).submitted = some tx →
      s.wallet.live.FreshId tx.txid ∧ ∀ descriptor ∈ descriptors, descriptor.previousOutput.txid ≠ tx.txid

/-! ## When nothing is spent twice -/

/-- The checks made before a transaction is built let the operation pass, and a build answers. -/
def SpendOp.Admitted (s : Window) : SpendOp → Prop
  | sendOnchain node address amountSats _ _ estimate io =>
    node.running = true ∧ ∃ script, parseAddress library address network = .ok script ∧
      (checkSendReserve keys library s.wallet script amountSats (anchorReserveSats node.channelCount) estimate).1 =
        .ok () ∧ ∃ draft, io.answer.result = .ok draft
  | sendOnchainMax node address _ _ estimate io =>
    node.running = true ∧ (∃ script, parseAddress library address network = .ok script) ∧
      (checkMaxSend keys library network s.wallet address (anchorReserveSats node.channelCount) node.feeRateSatPerVb
        estimate).1 = .ok () ∧ ∃ draft, io.answer.result = .ok draft
  | fund _ _ _ _ io => ∃ draft, io.build.answer.result = .ok draft
  | subsidize channelCount env descriptors destination =>
    ∃ plan, planSubsidy signer descriptors destination env.sweepRateSatPerVb
      (confirmedP2wpkhCandidates keys s.wallet s.reserved env.coins) (anchorReserveSats channelCount) = .ok plan

/-- The reserve of an exact send is checked at the fee of an estimate. That of a funding is not checked. -/
def SpendOp.FeeHeld (w : OnchainWallet) : SpendOp → Prop
  | sendOnchain _ _ _ _ expectedFeeSats estimate _ =>
    ∀ draft fee, estimate.result = .ok draft → draft.fee = .ok fee → expectedFeeSats ≤ fee
  | fund _ _ channelValueSatoshis _ io =>
    ∀ draft fee, io.build.answer.result = .ok draft → draft.fee = .ok fee →
      channelValueSatoshis + fee + anchorReserve ≤ w.trustedSpendableSats keys
  | sendOnchainMax .. | subsidize .. => True

/-- The outputs of closed channels, none of them a coin of the wallet or swept already. -/
def SpendOp.SweepsNew (w : OnchainWallet) : SpendOp → Prop
  | subsidize _ _ descriptors _ => ∀ descriptor ∈ descriptors, ¬ w.live.Spends descriptor.previousOutput ∧
      ∀ coin ∈ w.bdk.listUnspent keys, coin.outpoint ≠ descriptor.previousOutput
  | sendOnchain .. | sendOnchainMax .. | fund .. => True

/-- The wallet knows what it has handed out. -/
structure SpendOp.Clear (s : Window) (op : SpendOp) : Prop where
  known : ∀ tx ∈ s.handed, tx ∈ s.wallet.live.txs
  feeHeld : 0 < op.channelCount → op.FeeHeld keys s.wallet
  sweepsNew : op.SweepsNew keys s.wallet

end

/-! ## One build -/

section

variable {keys : Descriptors} {w : OnchainWallet}

theorem grows_buildTxLocked (bdk : BdkWallet) (spec : TxSpec) (answer : BuildAnswer) :
    Grows bdk.live (buildTxLocked keys bdk spec answer).2.live ∅ := by
  have hChange : Grows bdk.live (if answer.taken then (bdk.nextUnusedAddress keys .internal).2.markUsed
      (bdk.nextUnusedAddress keys .internal).1 else bdk).live ∅ := by
    split
    · change Grows bdk.live (bdk.nextUnusedAddress keys .internal).2.live ∅
      rw [BdkWallet.nextUnusedAddress_snd, BdkWallet.live_apply]
      split
      · exact grows_reveal _ _ _
      · rw [sup_bot_eq]
        exact .refl _
    · exact .refl _
  cases spec with
  | recipient script amountSats => exact hChange
  | fundingOutput script amountSats => exact hChange
  | drainAll script => exact .refl _
  | drainWithReserve recipient reserveSats =>
    change Grows bdk.live (bdk.apply _).live ∅
    rw [BdkWallet.live_apply]
    exact grows_reveal _ _ _

variable (keys w) in
theorem grows_estimateOnchainTx (spec : TxSpec) (answer : BuildAnswer) :
    Grows w.live (w.estimateOnchainTx keys spec answer).2.live ∅ := grows_buildTxLocked _ _ _

variable (keys w) in
theorem live_createOnchainTx (spec : TxSpec) (answer : BuildAnswer)
    (verify : BuiltTxFacts → Except OnchainSendError Unit) (mapBuildFailure : TxBuildFailure → OnchainSendError)
    (signing : Signing) (writeError : Option String) :
    (w.createOnchainTx keys spec answer verify mapBuildFailure signing writeError).2.live =
      (buildTxLocked keys w.bdk spec answer).2.live := by
  unfold OnchainWallet.createOnchainTx
  dsimp only
  split
  · rfl
  · split
    · exact OnchainWallet.live_persist _ _
    · exact OnchainWallet.live_persist _ _

variable (keys w) in
theorem grows_createOnchainTx (spec : TxSpec) (answer : BuildAnswer)
    (verify : BuiltTxFacts → Except OnchainSendError Unit) (mapBuildFailure : TxBuildFailure → OnchainSendError)
    (signing : Signing) (writeError : Option String) :
    Grows w.live (w.createOnchainTx keys spec answer verify mapBuildFailure signing writeError).2.live ∅ := by
  rw [live_createOnchainTx]
  exact grows_buildTxLocked _ _ _

variable (keys w) in
theorem grows_checkSendReserve (library : AddressLibrary) (script : Script) (amountSats reserveSats : Nat)
    (estimate : BuildAnswer) :
    Grows w.live (checkSendReserve keys library w script amountSats reserveSats estimate).2.live ∅ := by
  have hEstimate := grows_estimateOnchainTx keys w (.recipient script amountSats) estimate
  unfold checkSendReserve
  split
  · dsimp only
    split <;> exact hEstimate
  · exact .refl _

variable (keys w) in
theorem grows_estimateMaxSendable (library : AddressLibrary) (network : Network) (address : String)
    (reserveSats feeRateSatPerVb : Nat) (estimate : BuildAnswer) :
    Grows w.live (estimateMaxSendable keys library network w address reserveSats feeRateSatPerVb estimate).2.live ∅ := by
  unfold estimateMaxSendable
  split
  · exact .refl _
  · split
    · exact .refl _
    · dsimp only
      split <;> exact grows_estimateOnchainTx keys w _ _

variable (keys w) in
theorem grows_checkMaxSend (library : AddressLibrary) (network : Network) (address : String)
    (reserveSats feeRateSatPerVb : Nat) (estimate : BuildAnswer) :
    Grows w.live (checkMaxSend keys library network w address reserveSats feeRateSatPerVb estimate).2.live ∅ := by
  unfold checkMaxSend
  split
  · exact grows_estimateMaxSendable keys w library network address reserveSats feeRateSatPerVb estimate
  · exact .refl _

/-- The sats a build pays to the wallet itself. -/
def TxSpec.ownSats (spec : TxSpec) (draft : Draft) : Nat :=
  match spec with
  | recipient .. | fundingOutput .. => draft.excess.getD 0
  | drainAll _ => 0
  | drainWithReserve _ reserveSats => reserveSats

theorem built_toAmount {bdk : BdkWallet} {script : Script} {amountSats : Nat} {answer : BuildAnswer} {psbt : Psbt}
    {draft : Draft} (hDraft : answer.result = .ok draft)
    (h : (buildTxLocked keys bdk (.recipient script amountSats) answer).1 = .ok psbt) :
    ∃ change : Option TxOut, psbt.coins = draft.coins ∧ psbt.fee = draft.fee ∧
      (change.map (·.value)).getD 0 = draft.excess.getD 0 ∧
      ∀ out ∈ change, out ∈ psbt.outputs.map Prod.snd ∧
        ∃ index < (buildTxLocked keys bdk (.recipient script amountSats) answer).2.tracked .internal,
          keys.spk .internal index = out.scriptPubkey := by
  have hTaken (sats : Nat) (hSome : draft.excess = some sats) : answer.taken = true := by
    simp [BuildAnswer.taken, BuildAnswer.hasExcess, hDraft, hSome]
  simp only [buildTxLocked, hDraft, Except.map, Except.ok.injEq] at h ⊢
  subst h
  obtain ⟨hKeychain, hIndex⟩ := BdkWallet.lt_revealed_nextUnusedAddress keys bdk .internal
  refine ⟨draft.excess.map fun sats => ⟨sats, (bdk.nextUnusedAddress keys .internal).1.script keys⟩, rfl, rfl, ?_, ?_⟩
  · cases draft.excess <;> rfl
  · intro out hOut
    obtain ⟨sats, hSome, rfl⟩ := Option.map_eq_some_iff.mp hOut
    refine ⟨by simp [hSome], (bdk.nextUnusedAddress keys .internal).1.index, ?_, ?_⟩
    · rw [if_pos (hTaken sats hSome)]
      exact hIndex.trans_le (Nat.le_add_right _ _)
    · rw [AddressInfo.script, hKeychain]

theorem built_ok {bdk : BdkWallet} {spec : TxSpec} {answer : BuildAnswer} {psbt : Psbt}
    (h : (buildTxLocked keys bdk spec answer).1 = .ok psbt) :
    ∃ draft, ∃ change : Option TxOut, answer.result = .ok draft ∧ psbt.coins = draft.coins ∧ psbt.fee = draft.fee ∧
      (change.map (·.value)).getD 0 = spec.ownSats draft ∧
      ∀ out ∈ change, out ∈ psbt.outputs.map Prod.snd ∧
        ∃ index < (buildTxLocked keys bdk spec answer).2.tracked .internal,
          keys.spk .internal index = out.scriptPubkey := by
  obtain ⟨draft, hDraft⟩ := buildTxLocked_draft h
  cases spec with
  | recipient script amountSats | fundingOutput script amountSats =>
    obtain ⟨change, hBuilt⟩ := built_toAmount hDraft h
    exact ⟨draft, change, hDraft, hBuilt⟩
  | drainAll script =>
    simp only [buildTxLocked, hDraft, Except.map, Except.ok.injEq] at h
    subst h
    exact ⟨draft, none, hDraft, rfl, rfl, rfl, by simp⟩
  | drainWithReserve recipient reserveSats =>
    simp only [buildTxLocked, hDraft, Except.map, Except.ok.injEq] at h
    subst h
    refine ⟨draft, some ⟨reserveSats, (bdk.revealNextAddress .internal).1.script keys⟩, hDraft, rfl, rfl, rfl, ?_⟩
    rintro _ ⟨⟩
    refine ⟨by simp, bdk.live.revealed .internal, ?_, rfl⟩
    change _ < (bdk.apply (.reveal .internal _)).live.revealed .internal + lookahead
    rw [BdkWallet.live_apply]
    have hRevealed := ChangeSet.reveal_le_iff.mp (le_sup_right (a := bdk.live)
      (b := ChangeSet.reveal .internal (bdk.live.revealed .internal)))
    omega

end

/-! ## What is handed out -/

/-- A new transaction that spends nothing known to be spent and, where a channel is open, leaves the reserve. -/
structure Handover (keys : Descriptors) (isOpen : Prop) (w w' : OnchainWallet) (tx : Transaction) : Prop where
  fresh : w.live.FreshId tx.txid
  unspent : ∀ outpoint ∈ tx.inputs, ¬ w.live.Spends outpoint
  grows : ∃ added ⊆ {tx}, Grows w.live w'.live added
  reserve : isOpen → anchorReserve ≤ w.trustedSpendableSats keys → ∀ view : BdkWallet, Grows w.live view.live {tx} →
    w'.live.revealed ≤ view.live.revealed → anchorReserve ≤ view.trustedSpendable keys

/-- Nothing, or one transaction. -/
def HandsOver (keys : Descriptors) (isOpen : Prop) (w w' : OnchainWallet) (returned : Option Transaction) : Prop :=
  returned = none ∧ Grows w.live w'.live ∅ ∨ ∃ tx, returned = some tx ∧ Handover keys isOpen w w' tx

section

variable {keys : Descriptors} {isOpen : Prop} {w w₁ w' : OnchainWallet} {tx : Transaction}

theorem Grows.txs_eq {a b : ChangeSet} (h : Grows a b ∅) : b.txs = a.txs := by rw [h.txs, Finset.union_empty]

theorem Handover.of_grows (hGrows : Grows w.live w₁.live ∅) (h : Handover keys isOpen w₁ w' tx) :
    Handover keys isOpen w w' tx := by
  have hTxs := hGrows.txs_eq
  obtain ⟨added, hAdded, hAfter⟩ := h.grows
  constructor
  · intro known hKnown
    exact h.fresh known (hTxs ▸ hKnown)
  · rintro outpoint hInput ⟨spender, hSpender, hSpends⟩
    exact h.unspent outpoint hInput ⟨spender, hTxs ▸ hSpender, hSpends⟩
  · refine ⟨added, hAdded, ?_⟩
    have hBoth := hGrows.trans hAfter
    rwa [Finset.empty_union] at hBoth
  · intro hOpen hReserve view hView hRevealed
    refine h.reserve hOpen (hReserve.trans (trustedSpendable_mono hGrows)) view ⟨?_, ?_, ?_⟩ hRevealed
    · exact hAfter.revealed.trans hRevealed
    · rw [hView.txs, hTxs]
    · rw [hView.anchors, hGrows.anchors]

theorem createOnchainTx_ok {spec : TxSpec} {answer : BuildAnswer} {verify : BuiltTxFacts → Except OnchainSendError Unit}
    {mapBuildFailure : TxBuildFailure → OnchainSendError} {signing : Signing} {writeError : Option String}
    {signed : Psbt × Transaction}
    (h : (w.createOnchainTx keys spec answer verify mapBuildFailure signing writeError).1 = .ok signed) :
    OnchainWallet.approve (buildTxLocked keys w.bdk spec answer).1 verify mapBuildFailure signing = .ok signed := by
  unfold OnchainWallet.createOnchainTx at h
  dsimp only at h
  split at h
  · cases h
  · next hApproved =>
    split at h
    · cases h
      exact hApproved
    · cases h

theorem factsFrom_ok {psbt : Psbt} {facts : BuiltTxFacts} (h : factsFrom psbt = .ok facts) :
    psbt.fee = .ok facts.feeSats := by
  unfold factsFrom at h
  split at h
  · next hFee =>
    cases h
    exact hFee
  · cases h

theorem estimateOnchainTx_ok {spec : TxSpec} {answer : BuildAnswer} {facts : BuiltTxFacts}
    (h : (w.estimateOnchainTx keys spec answer).1 = .ok facts) :
    ∃ draft, answer.result = .ok draft ∧ draft.fee = .ok facts.feeSats := by
  change (buildTxLocked keys w.bdk spec answer).1.bind factsFrom = .ok facts at h
  cases hBuilt : (buildTxLocked keys w.bdk spec answer).1 with
  | error failure => simp [hBuilt, Except.bind] at h
  | ok psbt =>
    rw [hBuilt] at h
    obtain ⟨draft, -, hDraft, -, hFee, -⟩ := built_ok hBuilt
    exact ⟨draft, hDraft, hFee ▸ factsFrom_ok h⟩

/-- A send that passes leaves the reserve at the fee of the estimate. -/
theorem checkSendReserve_ok {library : AddressLibrary} {script : Script} {amountSats reserveSats : Nat}
    {estimate : BuildAnswer} (hPositive : 0 < reserveSats)
    (h : (checkSendReserve keys library w script amountSats reserveSats estimate).1 = .ok ()) :
    ∃ draft fee, estimate.result = .ok draft ∧ draft.fee = .ok fee ∧ amountSats + fee + reserveSats ≤
      (checkSendReserve keys library w script amountSats reserveSats estimate).2.trustedSpendableSats keys := by
  unfold checkSendReserve at h ⊢
  rw [if_pos hPositive] at h ⊢
  dsimp only at h ⊢
  split at h
  · cases h
  · next facts hFacts =>
    obtain ⟨draft, hDraft, hFee⟩ := estimateOnchainTx_ok hFacts
    obtain hNone | hLeft := checkReserve_ok_iff.mp h
    · omega
    · exact ⟨draft, facts.feeSats, hDraft, hFee, hLeft⟩

theorem sum_spentBy_le (hKeyed : w.live.Keyed) {coins : List LocalOutput} (hPicked : ∀ coin ∈ coins, coin ∈ w.spendable keys)
    (hInputs : tx.inputs = coins.map (·.outpoint)) :
    ∑ coin ∈ w.bdk.spentBy keys tx, coin.txout.value ≤ (coins.map (·.txout.value)).sum := by
  refine sum_value_le id (·.txout.value) (Set.injOn_id _) ?_ (fun _ _ => rfl)
  intro coin hCoin
  rw [BdkWallet.spentBy, Finset.mem_filter, Finset.mem_filter, hInputs] at hCoin
  obtain ⟨picked, hMem, hSame⟩ := List.mem_map.mp hCoin.2
  obtain rfl := outpoint_injective hKeyed (Finset.mem_filter.mp (hPicked picked hMem)).1 hCoin.1.1 hSame
  exact hMem

variable (w tx) in
theorem spentBy_le_trusted : ∑ coin ∈ w.bdk.spentBy keys tx, coin.txout.value ≤ w.trustedSpendableSats keys :=
  Finset.sum_le_sum_of_subset (Finset.filter_subset _ _)

/-- The reserve is left when the build itself pays it back, or when what it pays out leaves it. -/
theorem createOnchainTx_handsOver {spec : TxSpec} {io : BuildIo} {verify : BuiltTxFacts → Except OnchainSendError Unit}
    {mapBuildFailure : TxBuildFailure → OnchainSendError} (hKeyed : w.live.Keyed) (hLawful : io.Lawful keys w spec)
    (hReserve : isOpen → ∀ draft facts, io.answer.result = .ok draft → draft.fee = .ok facts.feeSats →
      verify facts = .ok () → anchorReserve ≤ spec.ownSats draft ∨
        spec.fixedSats + draft.excess.getD 0 + facts.feeSats + anchorReserve ≤
          w.trustedSpendableSats keys + spec.ownSats draft) :
    HandsOver keys isOpen w (w.createOnchainTx keys spec io.answer verify mapBuildFailure io.signing io.writeError).2
      (returnedTx (w.createOnchainTx keys spec io.answer verify mapBuildFailure io.signing io.writeError).1) := by
  have hLive := live_createOnchainTx keys w spec io.answer verify mapBuildFailure io.signing io.writeError
  have hGrows := grows_createOnchainTx keys w spec io.answer verify mapBuildFailure io.signing io.writeError
  cases hResult : (w.createOnchainTx keys spec io.answer verify mapBuildFailure io.signing io.writeError).1 with
  | error rejection => exact .inl ⟨rfl, hGrows⟩
  | ok signed =>
    obtain ⟨hBuilt, ⟨facts, hFacts, hVerify⟩, txid, hExtract, hTx⟩ := OnchainWallet.approve_ok (createOnchainTx_ok hResult)
    obtain ⟨draft, change, hDraft, hCoins, hFee, hOwn, hChange⟩ := built_ok hBuilt
    have hInputs : signed.2.inputs = draft.coins.map (·.outpoint) := by rw [hTx, Psbt.extractTx, hCoins]
    have hPicked := hLawful.picks draft hDraft
    have hFresh : w.live.FreshId signed.2.txid := by
      rw [hTx]
      exact hLawful.fresh txid hExtract
    refine .inr ⟨signed.2, rfl, hFresh, ?_, ⟨∅, Finset.empty_subset _, hGrows⟩, ?_⟩
    · intro outpoint hInput
      obtain ⟨coin, hMem, rfl⟩ := List.mem_map.mp (hInputs ▸ hInput)
      exact (mem_listUnspent.mp (Finset.mem_filter.mp (hPicked coin hMem)).1).2
    · intro hOpen _ view hView hRevealed
      have hOwnInputs : ∀ outpoint ∈ signed.2.inputs, outpoint.txid ≠ signed.2.txid := by
        intro outpoint hInput
        obtain ⟨coin, hMem, rfl⟩ := List.mem_map.mp (hInputs ▸ hInput)
        obtain ⟨known, hKnown, hSame⟩ := outpoint_txid_known (Finset.mem_filter.mp (hPicked coin hMem)).1
        exact hSame ▸ (hFresh known hKnown).1
      have hPaidBack : ∀ out ∈ change, out ∈ signed.2.outputs ∧ ∃ index < view.tracked .internal,
          keys.spk .internal index = out.scriptPubkey := by
        intro out hOut
        obtain ⟨hMem, index, hIndex, hScript⟩ := hChange out hOut
        rw [hLive] at hRevealed
        refine ⟨?_, index, hIndex.trans_le (Nat.add_le_add_right (hRevealed .internal) _), hScript⟩
        rw [hTx]
        exact hMem
      have hBalance := trustedSpendable_le_of_grows hView hFresh hOwnInputs hPaidBack
      have hSpent := sum_spentBy_le hKeyed hPicked hInputs
      have hAll : _ ≤ w.trustedSpendableSats keys := spentBy_le_trusted w signed.2
      have hPaid : draft.fee = .ok facts.feeSats := hFee ▸ factsFrom_ok hFacts
      have hPays := hLawful.pays draft facts.feeSats hDraft hPaid
      have hTrusted : w.trustedSpendableSats keys = w.bdk.trustedSpendable keys := rfl
      obtain hPaysBack | hLeft := hReserve hOpen draft facts hDraft hPaid hVerify
      · omega
      · omega

/-! ## Sends and funding -/

theorem HandsOver.of_grows {returned : Option Transaction} (hGrows : Grows w.live w₁.live ∅)
    (h : HandsOver keys isOpen w₁ w' returned) : HandsOver keys isOpen w w' returned := by
  obtain ⟨hNone, hAfter⟩ | ⟨tx, hSome, hHandover⟩ := h
  · exact .inl ⟨hNone, hGrows.reveals hAfter⟩
  · exact .inr ⟨tx, hSome, hHandover.of_grows hGrows⟩

variable {library : AddressLibrary} {network : Network} {address : String} {expectedAmountSats expectedFeeSats : Nat}

theorem forAddress_fee {expected : DriftGuard}
    (h : DriftGuard.forAddress library address network expectedAmountSats expectedFeeSats = .ok expected) :
    expected.expectedFeeSats = expectedFeeSats := by
  unfold DriftGuard.forAddress at h
  cases hParse : parseAddress library address network with
  | error e => simp [hParse, Except.map] at h
  | ok script =>
    simp only [hParse, Except.map, Except.ok.injEq] at h
    rw [← h]

theorem ChangeSet.Keyed.of_grows {a b : ChangeSet} (h : a.Keyed) (hGrows : Grows a b ∅) : b.Keyed := by
  rw [ChangeSet.Keyed, hGrows.txs_eq]
  exact h

theorem sendToAddress_handsOver {amountSats channelCount feeRateSatPerVb : Nat} {expected : DriftGuard}
    {estimate : BuildAnswer} {io : BuildIo} (hKeyed : w.live.Keyed)
    (hLawful : ∀ script, parseAddress library address network = .ok script → io.Lawful keys
      (checkSendReserve keys library w script amountSats (anchorReserveSats channelCount) estimate).2
      (.recipient script amountSats))
    (hOpen : isOpen → 0 < channelCount ∧
      ∀ draft fee, estimate.result = .ok draft → draft.fee = .ok fee → expected.expectedFeeSats ≤ fee) :
    let sent := sendToAddress keys library network w address amountSats expected (anchorReserveSats channelCount)
      feeRateSatPerVb estimate io
    HandsOver keys isOpen w sent.2 (returnedTx sent.1) := by
  dsimp only [sendToAddress]
  split
  · exact .inl ⟨rfl, .refl _⟩
  · next script hScript =>
    split
    · exact .inl ⟨rfl, .refl _⟩
    · have hGrows := grows_checkSendReserve keys w library script amountSats (anchorReserveSats channelCount) estimate
      split
      · exact .inl ⟨rfl, hGrows⟩
      · next hChecked =>
        refine .of_grows hGrows (createOnchainTx_handsOver (hKeyed.of_grows hGrows) (hLawful script hScript) ?_)
        intro hIsOpen draft facts _ _ hVerify
        obtain ⟨hChannel, hHeld⟩ := hOpen hIsOpen
        have hReserve : anchorReserveSats channelCount = anchorReserve := if_pos hChannel
        have hPositive : 0 < anchorReserveSats channelCount := by rw [hReserve]; decide
        obtain ⟨checked, checkedFee, hEstimate, hCheckedFee, hLeft⟩ := checkSendReserve_ok hPositive hChecked
        obtain ⟨-, hFee, -⟩ := verifySend_ok_iff.mp hVerify
        have hCovered := hHeld checked checkedFee hEstimate hCheckedFee
        refine .inr ?_
        change amountSats + draft.excess.getD 0 + facts.feeSats + anchorReserve ≤ _ + draft.excess.getD 0
        omega

theorem sendMax_handsOver {channelCount feeRateSatPerVb : Nat} {expected : DriftGuard} {estimate : BuildAnswer}
    {io : BuildIo} (hKeyed : w.live.Keyed)
    (hLawful : ∀ script, parseAddress library address network = .ok script → io.Lawful keys
      (checkMaxSend keys library network w address (anchorReserveSats channelCount) feeRateSatPerVb estimate).2
      (maxSendSpec script (anchorReserveSats channelCount)))
    (hOpen : isOpen → 0 < channelCount) :
    let sent := sendMax keys library network w address expected (anchorReserveSats channelCount) feeRateSatPerVb estimate io
    HandsOver keys isOpen w sent.2 (returnedTx sent.1) := by
  dsimp only [sendMax]
  split
  · exact .inl ⟨rfl, .refl _⟩
  · next script hScript =>
    split
    · exact .inl ⟨rfl, .refl _⟩
    · have hGrows := grows_checkMaxSend keys w library network address (anchorReserveSats channelCount) feeRateSatPerVb
        estimate
      split
      · exact .inl ⟨rfl, hGrows⟩
      · refine .of_grows hGrows (createOnchainTx_handsOver (hKeyed.of_grows hGrows) (hLawful script hScript) ?_)
        -- The reserve comes back as an output of its own.
        intro hIsOpen draft _ _ _ _
        rw [anchorReserveSats, if_pos (hOpen hIsOpen)]
        exact .inl le_rfl

theorem handleFundingGenerationReady_handsOver {feeRateSatPerVb channelValueSatoshis : Nat} {outputScript : Script}
    {io : FundingIo} (hKeyed : w.live.Keyed)
    (hLawful : io.build.Lawful keys w (.fundingOutput outputScript channelValueSatoshis))
    (hReserve : isOpen → ∀ draft fee, io.build.answer.result = .ok draft → draft.fee = .ok fee →
      channelValueSatoshis + fee + anchorReserve ≤ w.trustedSpendableSats keys) :
    let funded := handleFundingGenerationReady keys w feeRateSatPerVb channelValueSatoshis outputScript io
    HandsOver keys isOpen w funded.2 (returnedTx funded.1) := by
  let created := w.createOnchainTx keys (.fundingOutput outputScript channelValueSatoshis) io.build.answer
    (fun _ => .ok ()) (fun failure => .buildFailed (failure.debug io.quoted)) io.build.signing io.build.writeError
  have hGrows : Grows w.live created.2.live ∅ := grows_createOnchainTx keys w _ _ _ _ _ _
  have hCreated : HandsOver keys isOpen w created.2 (returnedTx created.1) := by
    refine createOnchainTx_handsOver hKeyed hLawful ?_
    intro hOpen draft facts hDraft hFee _
    have hLeft := hReserve hOpen draft facts.feeSats hDraft hFee
    refine .inr ?_
    change channelValueSatoshis + draft.excess.getD 0 + facts.feeSats + anchorReserve ≤ _ + draft.excess.getD 0
    omega
  dsimp only [handleFundingGenerationReady]
  split
  · exact .inl ⟨rfl, .refl _⟩
  · split
    · exact .inl ⟨rfl, hGrows⟩
    · next signed hSigned =>
      split
      · exact .inl ⟨rfl, hGrows⟩
      · split
        · exact .inl ⟨rfl, hGrows⟩
        · rwa [show created.1 = .ok signed from hSigned] at hCreated

end

/-! ## Subsidized sweeps -/

section

variable {signer : Signer} {keys : Descriptors} {env : PassEnv} {w : OnchainWallet} {reserved : Finset OutPoint}
  {descriptors : List SpendableOutputDescriptor} {destination : Script} {plan : SubsidyPlan} {change : Option TxOut}
  {tx : Transaction}

variable (keys w reserved) in
/-- The candidates count no more than the balance. -/
theorem totalSats_candidates_le (listing : List LocalOutput) :
    totalSats (confirmedP2wpkhCandidates keys w reserved listing) ≤ w.trustedSpendableSats keys := by
  let coins := (listing.dedup.filter (· ∈ w.confirmedUtxos keys)).filter fun coin =>
    coin.outpoint ∉ reserved && isP2wpkh coin.txout.scriptPubkey
  have hNodup : coins.Nodup := ((List.nodup_dedup listing).filter _).filter _
  have hSum : totalSats (confirmedP2wpkhCandidates keys w reserved listing) = ∑ coin ∈ coins.toFinset, coin.txout.value := by
    rw [List.sum_toFinset _ hNodup]
    have hPerm := List.mergeSort_perm (coins.map .ofCoin) fun first second : SubsidyInput => second.valueSats ≤ first.valueSats
    rw [totalSats, confirmedP2wpkhCandidates, (hPerm.map _).sum_eq, List.map_map]
    rfl
  rw [hSum]
  apply Finset.sum_le_sum_of_subset
  intro coin hCoin
  simp only [coins, List.mem_toFinset, List.mem_filter, decide_eq_true_eq, OnchainWallet.confirmedUtxos,
    Finset.mem_filter] at hCoin
  exact Finset.mem_filter.mpr ⟨hCoin.1.2.1, by simp [LocalOutput.trusted, hCoin.1.2.2]⟩

variable (keys w) in
theorem grows_subsidyChange (changeSats : Option Nat) (changeError : Option String) :
    Grows w.live (subsidyChange keys w changeSats changeError).2.live ∅ := by
  unfold subsidyChange
  split
  · exact .refl _
  · have hReveal : Grows w.live (w.getChangeDestinationScript changeError).2.live ∅ := by
      rw [OnchainWallet.live_getChangeDestinationScript]
      exact grows_reveal _ _ _
    dsimp only
    split <;> exact hReveal

/-- An attempt that is given up has revealed a change address at most. -/
theorem grows_attemptSubsidized
    (h : ∀ txid sats, (attemptSubsidized signer keys env w reserved descriptors destination).outcome ≠
      .broadcast txid sats) :
    Grows w.live (attemptSubsidized signer keys env w reserved descriptors destination).wallet.live ∅ := by
  unfold attemptSubsidized at h ⊢
  split
  · exact .refl _
  · next plan hPlan =>
    have hChange := grows_subsidyChange keys w plan.selection.changeSats env.changeError
    dsimp only at h ⊢
    split
    · exact hChange
    · next hSigned =>
      split
      · exact hChange
      · next hConfirmed =>
        simp only [hPlan, hSigned, hConfirmed] at h
        exact absurd rfl (h _ _)

theorem subsidyChange_ok {changeSats : Option Nat} {changeError : Option String}
    (h : (subsidyChange keys w changeSats changeError).1 = .ok change) :
    change.map (·.value) = changeSats ∧ ∀ out ∈ change,
      ∃ index < (subsidyChange keys w changeSats changeError).2.live.revealed .internal,
        keys.spk .internal index = out.scriptPubkey := by
  unfold subsidyChange at h ⊢
  split at h
  · cases h
    exact ⟨rfl, by simp⟩
  · dsimp only at h ⊢
    split at h
    · cases h
    · next script hScript =>
      split_ifs at h
      cases h
      obtain ⟨address, hAddress, rfl⟩ := Option.map_eq_some_iff.mp hScript
      dsimp only [OnchainWallet.getChangeDestinationScript, OnchainWallet.vend] at hAddress
      split_ifs at hAddress
      cases hAddress
      refine ⟨rfl, ?_⟩
      rintro _ ⟨⟩
      refine ⟨w.live.revealed .internal, ?_, rfl⟩
      change _ < (w.getChangeDestinationScript changeError).2.live.revealed .internal
      rw [OnchainWallet.live_getChangeDestinationScript]
      exact ChangeSet.reveal_le_iff.mp le_sup_right

theorem sum_spentBy_subsidized_le (hLawful : signer.Lawful) (hKeyed : w.live.Keyed)
    (h : Subsidized signer keys env w reserved descriptors destination plan change tx)
    (hNew : ∀ descriptor ∈ descriptors, ∀ coin ∈ w.bdk.listUnspent keys, coin.outpoint ≠ descriptor.previousOutput) :
    ∑ coin ∈ w.bdk.spentBy keys tx, coin.txout.value ≤ totalSats plan.selection.selected := by
  have hCoin : ∀ coin ∈ w.bdk.spentBy keys tx, coin ∈ w.bdk.listUnspent keys ∧ coin.outpoint ∈ tx.inputs := by
    intro coin hCoin
    rw [BdkWallet.spentBy, Finset.mem_filter, Finset.mem_filter] at hCoin
    exact ⟨hCoin.1.1, hCoin.2⟩
  refine sum_value_le SubsidyInput.ofCoin (·.valueSats) ?_ ?_ (fun _ _ => rfl)
  · intro first hFirst second hSecond hSame
    exact outpoint_injective hKeyed (hCoin first hFirst).1 (hCoin second hSecond).1 (congrArg (·.outpoint) hSame)
  · intro coin hSpent
    obtain ⟨hUnspent, hInput⟩ := hCoin coin hSpent
    obtain ⟨descriptor, hDescriptor, hSame⟩ | ⟨input, hSelected, hSame⟩ := h.inputs hLawful hInput
    · exact absurd hSame.symm (hNew descriptor hDescriptor coin hUnspent)
    · obtain ⟨picked, -, hPicked, rfl⟩ := h.selected hSelected
      obtain rfl := outpoint_injective hKeyed (Finset.mem_filter.mp hPicked).1 hUnspent hSame
      exact hSelected

theorem grows_registered (plan : SubsidyPlan) (tx : Transaction) :
    Grows w.live ((subsidyChange keys w plan.selection.changeSats env.changeError).2.applyUnconfirmedTx tx
      env.registerError).2.live {tx} := by
  rw [OnchainWallet.applyUnconfirmedTx, OnchainWallet.live_applyUpdate]
  have hGrows := (grows_subsidyChange keys w plan.selection.changeSats env.changeError).trans (grows_txs _ {tx})
  rwa [Finset.empty_union] at hGrows

/-- A selected coin comes from a known transaction and is not spent. -/
theorem subsidized_selected (h : Subsidized signer keys env w reserved descriptors destination plan change tx)
    {input : SubsidyInput} (hInput : input ∈ plan.selection.selected) :
    ¬ w.live.Spends input.outpoint ∧ ∃ known ∈ w.live.txs, known.txid = input.outpoint.txid := by
  obtain ⟨coin, -, hCoin, rfl⟩ := h.selected hInput
  have hUnspent := (Finset.mem_filter.mp hCoin).1
  exact ⟨(mem_listUnspent.mp hUnspent).2, outpoint_txid_known hUnspent⟩

/-- The subsidy leaves the reserve, and the rest of the selected coins comes back as change. -/
theorem subsidized_reserve {channelCount : Nat} (hLawful : signer.Lawful) (hKeyed : w.live.Keyed)
    (hReserve : env.reserveSats = anchorReserveSats channelCount) (hOpen : 0 < channelCount)
    (h : Subsidized signer keys env w reserved descriptors destination plan change tx)
    (hFresh : w.live.FreshId tx.txid) (hOwnInputs : ∀ outpoint ∈ tx.inputs, outpoint.txid ≠ tx.txid)
    (hNew : ∀ descriptor ∈ descriptors, ∀ coin ∈ w.bdk.listUnspent keys, coin.outpoint ≠ descriptor.previousOutput)
    (hAtLeast : anchorReserve ≤ w.trustedSpendableSats keys) {view : BdkWallet} (hView : Grows w.live view.live {tx})
    (hRevealed : (subsidyChange keys w plan.selection.changeSats env.changeError).2.live.revealed ≤ view.live.revealed) :
    anchorReserve ≤ view.trustedSpendable keys := by
  obtain ⟨-, ldkFeeSats, hSelect⟩ := planSubsidy_ok h.planned
  have hSound := selectSubsidyInputs_sound hSelect
  obtain ⟨hChange, hScripts⟩ := subsidyChange_ok h.change_ok
  have hPaidBack : ∀ out ∈ change, out ∈ tx.outputs ∧ ∃ index < view.tracked .internal,
      keys.spk .internal index = out.scriptPubkey := by
    intro out hOut
    obtain ⟨index, hIndex, hScript⟩ := hScripts out hOut
    refine ⟨?_, index, ?_, hScript⟩
    · rw [(signSubsidized_ok hLawful h.signed).2]
      exact List.mem_append_right _ (Option.mem_toList.mpr hOut)
    · exact hIndex.trans_le ((hRevealed .internal).trans (Nat.le_add_right _ _))
  have hBalance := trustedSpendable_le_of_grows hView hFresh hOwnInputs hPaidBack
  have hSpent := sum_spentBy_subsidized_le hLawful hKeyed h hNew
  have hCandidates := totalSats_candidates_le keys w reserved env.coins
  have hTotal := hSound.subsidy_add_change
  have hLeft := hSound.subsidy_le
  have hTrusted : w.trustedSpendableSats keys = w.bdk.trustedSpendable keys := rfl
  rw [hReserve, anchorReserveSats, if_pos hOpen] at hLeft
  rw [hChange] at hBalance
  dsimp only at hLeft
  omega

theorem subsidized_handover {isOpen : Prop} {channelCount : Nat} (hLawful : signer.Lawful) (hKeyed : w.live.Keyed)
    (hReserve : env.reserveSats = anchorReserveSats channelCount)
    (h : Subsidized signer keys env w reserved descriptors destination plan change tx)
    (hFresh : w.live.FreshId tx.txid)
    (hIds : ∀ descriptor ∈ descriptors, descriptor.previousOutput.txid ≠ tx.txid)
    (hNew : ∀ descriptor ∈ descriptors, ¬ w.live.Spends descriptor.previousOutput ∧
      ∀ coin ∈ w.bdk.listUnspent keys, coin.outpoint ≠ descriptor.previousOutput) (hOpen : isOpen → 0 < channelCount) :
    Handover keys isOpen w
      ((subsidyChange keys w plan.selection.changeSats env.changeError).2.applyUnconfirmedTx tx env.registerError).2 tx := by
  refine ⟨hFresh, ?_, ⟨{tx}, subset_rfl, grows_registered plan tx⟩, ?_⟩
  · intro outpoint hInput
    obtain ⟨descriptor, hDescriptor, rfl⟩ | ⟨input, hMem, rfl⟩ := h.inputs hLawful hInput
    · exact (hNew descriptor hDescriptor).1
    · exact (subsidized_selected h hMem).1
  · intro hIsOpen hAtLeast view hView hRevealed
    have hOwnInputs : ∀ outpoint ∈ tx.inputs, outpoint.txid ≠ tx.txid := by
      intro outpoint hInput
      obtain ⟨descriptor, hDescriptor, rfl⟩ | ⟨input, hMem, rfl⟩ := h.inputs hLawful hInput
      · exact hIds descriptor hDescriptor
      · obtain ⟨known, hKnown, hTxid⟩ := (subsidized_selected h hMem).2
        exact hTxid ▸ (hFresh known hKnown).1
    have hNotCoins : ∀ descriptor ∈ descriptors, ∀ coin ∈ w.bdk.listUnspent keys,
        coin.outpoint ≠ descriptor.previousOutput := fun descriptor hDescriptor => (hNew descriptor hDescriptor).2
    refine subsidized_reserve hLawful hKeyed hReserve (hOpen hIsOpen) h hFresh hOwnInputs hNotCoins hAtLeast hView ?_
    rw [OnchainWallet.applyUnconfirmedTx, OnchainWallet.live_applyUpdate] at hRevealed
    intro k
    exact (le_max_left _ _).trans (hRevealed k)

end

/-! ## Whole windows -/

section

variable {signer : Signer} {keys : Descriptors} {library : AddressLibrary} {network : Network} {s : Window}

theorem sendToAddress_returned {w w' : OnchainWallet} {address : String} {amountSats reserveSats feeRateSatPerVb : Nat}
    {expected : DriftGuard} {estimate : BuildAnswer} {io : BuildIo} {signed : Psbt × Transaction}
    (h : sendToAddress keys library network w address amountSats expected reserveSats feeRateSatPerVb estimate io =
      (.ok signed, w')) :
    ∃ script, parseAddress library address network = .ok script ∧
      (checkSendReserve keys library w script amountSats reserveSats estimate).1 = .ok () ∧
      ∃ draft, io.answer.result = .ok draft := by
  dsimp only [sendToAddress] at h
  split at h
  · cases h
  · next script hScript =>
    split at h
    · cases h
    · split at h
      · cases h
      · next hChecked =>
        obtain ⟨hBuilt, -⟩ := OnchainWallet.approve_ok (createOnchainTx_ok (congrArg Prod.fst h))
        exact ⟨script, hScript, hChecked, buildTxLocked_draft hBuilt⟩

theorem sendMax_returned {w w' : OnchainWallet} {address : String} {reserveSats feeRateSatPerVb : Nat}
    {expected : DriftGuard} {estimate : BuildAnswer} {io : BuildIo} {signed : Psbt × Transaction}
    (h : sendMax keys library network w address expected reserveSats feeRateSatPerVb estimate io = (.ok signed, w')) :
    (∃ script, parseAddress library address network = .ok script) ∧
      (checkMaxSend keys library network w address reserveSats feeRateSatPerVb estimate).1 = .ok () ∧
      ∃ draft, io.answer.result = .ok draft := by
  dsimp only [sendMax] at h
  split at h
  · cases h
  · next script hScript =>
    split at h
    · cases h
    · split at h
      · cases h
      · next hChecked =>
        obtain ⟨hBuilt, -⟩ := OnchainWallet.approve_ok (createOnchainTx_ok (congrArg Prod.fst h))
        exact ⟨⟨script, hScript⟩, hChecked, buildTxLocked_draft hBuilt⟩

theorem handleFundingGenerationReady_returned {w w' : OnchainWallet} {feeRateSatPerVb channelValueSatoshis : Nat}
    {outputScript : Script} {io : FundingIo} {signed : Psbt × Transaction}
    (h : handleFundingGenerationReady keys w feeRateSatPerVb channelValueSatoshis outputScript io = (.ok signed, w')) :
    ∃ draft, io.build.answer.result = .ok draft := by
  dsimp only [handleFundingGenerationReady] at h
  split at h
  · cases h
  · split at h
    · cases h
    · next hSigned =>
      obtain ⟨hBuilt, -⟩ := OnchainWallet.approve_ok (createOnchainTx_ok hSigned)
      exact buildTxLocked_draft hBuilt

theorem returnedTx_some {ε : Type} {result : Except ε (Psbt × Transaction)} {tx : Transaction}
    (h : returnedTx result = some tx) : ∃ signed, result = .ok signed := by
  cases result with
  | error e => cases h
  | ok signed => exact ⟨signed, rfl⟩

/-- What is refused before it is built is not handed out. -/
theorem SpendOp.admitted_of_returned {op : SpendOp} {tx : Transaction}
    (h : (op.run signer keys library network s).returned = some tx) : op.Admitted signer keys library network s := by
  cases op with
  | sendOnchain node address amountSats expectedAmountSats expectedFeeSats estimate io =>
    have hSent : ∃ signed, (Wallet.sendOnchain keys library network s.wallet node address amountSats expectedAmountSats
        expectedFeeSats estimate io).1 = .ok signed := returnedTx_some h
    obtain ⟨signed, hSigned⟩ := hSent
    unfold Wallet.sendOnchain at hSigned
    split at hSigned
    · next hRunning =>
      split at hSigned
      · cases hSigned
      · exact ⟨hRunning, sendToAddress_returned (Prod.ext hSigned rfl)⟩
    · cases hSigned
  | sendOnchainMax node address expectedAmountSats expectedFeeSats estimate io =>
    have hSent : ∃ signed, (Wallet.sendOnchainMax keys library network s.wallet node address expectedAmountSats
        expectedFeeSats estimate io).1 = .ok signed := returnedTx_some h
    obtain ⟨signed, hSigned⟩ := hSent
    unfold Wallet.sendOnchainMax at hSigned
    split at hSigned
    · next hRunning =>
      split at hSigned
      · cases hSigned
      · exact ⟨hRunning, sendMax_returned (Prod.ext hSigned rfl)⟩
    · cases hSigned
  | fund channelCount feeRateSatPerVb channelValueSatoshis outputScript io =>
    obtain ⟨signed, hSigned⟩ := returnedTx_some h
    exact handleFundingGenerationReady_returned (Prod.ext hSigned rfl)
  | subsidize channelCount env descriptors destination =>
    dsimp only [SpendOp.run] at h
    obtain ⟨-, ⟨hRefused, -⟩ | ⟨plan, change, tx, hSubsidized, -⟩⟩ :=
      attemptSubsidized_cases signer keys { env with reserveSats := anchorReserveSats channelCount } s.wallet s.reserved
        descriptors destination
    · split at h
      · next txid sats hBroadcast => exact absurd hBroadcast (hRefused txid sats)
      · cases h
    · exact ⟨plan, hSubsidized.planned⟩

theorem SpendOp.run_handsOver {isOpen : Prop} (hSigner : signer.Lawful) {op : SpendOp} (hKeyed : s.wallet.live.Keyed)
    (hLawful : op.Lawful signer keys library network s)
    (hClear : op.Admitted signer keys library network s → op.SweepsNew keys s.wallet)
    (hOpen : isOpen → 0 < op.channelCount ∧ op.FeeHeld keys s.wallet) :
    HandsOver keys isOpen s.wallet (op.run signer keys library network s).wallet
      (op.run signer keys library network s).returned := by
  cases op with
  | sendOnchain node address amountSats expectedAmountSats expectedFeeSats estimate io =>
    dsimp only [SpendOp.run, Wallet.sendOnchain]
    split
    · split
      · exact .inl ⟨rfl, .refl _⟩
      · next expected hExpected =>
        refine sendToAddress_handsOver hKeyed hLawful ?_
        rw [forAddress_fee hExpected]
        exact hOpen
    · exact .inl ⟨rfl, .refl _⟩
  | sendOnchainMax node address expectedAmountSats expectedFeeSats estimate io =>
    dsimp only [SpendOp.run, Wallet.sendOnchainMax]
    split
    · split
      · exact .inl ⟨rfl, .refl _⟩
      · exact sendMax_handsOver hKeyed hLawful fun hIsOpen => (hOpen hIsOpen).1
    · exact .inl ⟨rfl, .refl _⟩
  | fund channelCount feeRateSatPerVb channelValueSatoshis outputScript io =>
    exact handleFundingGenerationReady_handsOver hKeyed hLawful fun hIsOpen => (hOpen hIsOpen).2
  | subsidize channelCount env descriptors destination =>
    dsimp only [SpendOp.run]
    obtain ⟨-, ⟨hRefused, -⟩ | ⟨plan, change, tx, hSubsidized, hOutcome, hSubmitted, -, hWallet⟩⟩ :=
      attemptSubsidized_cases signer keys { env with reserveSats := anchorReserveSats channelCount } s.wallet s.reserved
        descriptors destination
    · refine .inl ⟨?_, grows_attemptSubsidized hRefused⟩
      split
      · next txid sats hBroadcast => exact absurd hBroadcast (hRefused txid sats)
      · rfl
    · obtain ⟨hFresh, hIds⟩ := hLawful tx hSubmitted
      have hNew := hClear ⟨plan, hSubsidized.planned⟩
      have hHandover := subsidized_handover hSigner hKeyed rfl hSubsidized hFresh hIds hNew fun hIsOpen => (hOpen hIsOpen).1
      refine .inr ⟨tx, ?_, ?_⟩
      · rw [subsidizedAttempt, hOutcome]
        exact hSubmitted
      · rw [subsidizedAttempt, hWallet]
        exact hHandover

structure Window.Inv (keys : Descriptors) (isOpen : Prop) (s : Window) : Prop where
  keyed : s.settled.live.Keyed
  disjoint : s.handed.Pairwise fun first second => first.inputs.Disjoint second.inputs
  reserve : isOpen → anchorReserve ≤ s.settled.trustedSpendable keys

theorem Window.settled_live (hKnown : ∀ tx ∈ s.handed, tx ∈ s.wallet.live.txs) : s.settled.live = s.wallet.live := by
  rw [Window.settled, BdkWallet.live_apply]
  refine sup_eq_left.mpr ⟨fun _ => Nat.zero_le _, ?_, Finset.empty_subset _, Nat.zero_le _⟩
  intro tx hTx
  exact hKnown tx (List.mem_toFinset.mp hTx)

theorem Window.settled_grows (hKnown : ∀ tx ∈ s.handed, tx ∈ s.wallet.live.txs) {w' : OnchainWallet}
    {added : Finset Transaction} (returned : List Transaction) (hGrows : Grows s.wallet.live w'.live added)
    (hAdded : added ⊆ returned.toFinset) (reserved : Finset OutPoint) :
    Grows s.wallet.live (Window.settled ⟨w', reserved, returned ++ s.handed⟩).live returned.toFinset ∧
      w'.live.revealed ≤ (Window.settled ⟨w', reserved, returned ++ s.handed⟩).live.revealed := by
  have hSettled : Grows w'.live (Window.settled ⟨w', reserved, returned ++ s.handed⟩).live
      (returned ++ s.handed).toFinset := by
    rw [Window.settled, BdkWallet.live_apply]
    exact grows_txs _ _
  refine ⟨⟨hGrows.revealed.trans hSettled.revealed, ?_, hSettled.anchors.trans hGrows.anchors⟩, hSettled.revealed⟩
  rw [hSettled.txs, hGrows.txs, List.toFinset_append]
  ext tx
  have hHanded : tx ∈ s.handed.toFinset → tx ∈ s.wallet.live.txs := fun h => hKnown tx (List.mem_toFinset.mp h)
  have hReturned : tx ∈ added → tx ∈ returned.toFinset := fun h => hAdded h
  simp only [Finset.mem_union]
  tauto

/-- A refused operation leaves the balance as it was, whatever the wallet knows. -/
theorem Window.settled_refused {w' : OnchainWallet} (hGrows : Grows s.wallet.live w'.live ∅) (reserved : Finset OutPoint) :
    Grows s.settled.live (Window.settled ⟨w', reserved, s.handed⟩).live ∅ := by
  rw [Window.settled, Window.settled, BdkWallet.live_apply, BdkWallet.live_apply]
  refine ⟨sup_le_sup_right hGrows.revealed _, ?_, ?_⟩
  · rw [Finset.union_empty]
    exact congrArg (· ∪ s.handed.toFinset) hGrows.txs_eq
  · exact congrArg (· ∪ (⊥ : ChangeSet).anchors) hGrows.anchors

theorem Window.wallet_keyed (h : s.settled.live.Keyed) : s.wallet.live.Keyed := by
  have hKnown : s.wallet.live.txs ⊆ s.settled.live.txs := by
    rw [Window.settled, BdkWallet.live_apply]
    exact Finset.subset_union_left
  intro first hFirst second hSecond hSame
  exact h first (hKnown hFirst) second (hKnown hSecond) hSame

theorem Window.Inv.step_refused {isOpen : Prop} (hSigner : signer.Lawful) {op : SpendOp} (h : s.Inv keys isOpen)
    (hLawful : op.Lawful signer keys library network s) (hRefused : ¬ op.Admitted signer keys library network s) :
    (Window.mk (op.run signer keys library network s).wallet (op.run signer keys library network s).reserved
      ((op.run signer keys library network s).returned.toList ++ s.handed)).Inv keys isOpen := by
  have hRun := op.run_handsOver hSigner (Window.wallet_keyed h.keyed) hLawful (fun hAdmitted => absurd hAdmitted hRefused)
    False.elim
  obtain ⟨hNone, hGrows⟩ | ⟨tx, hSome, -⟩ := hRun
  · rw [hNone]
    have hSettled := Window.settled_refused hGrows (op.run signer keys library network s).reserved
    refine ⟨h.keyed.of_grows hSettled, h.disjoint, ?_⟩
    intro hIsOpen
    exact (h.reserve hIsOpen).trans (trustedSpendable_mono hSettled)
  · exact absurd (SpendOp.admitted_of_returned hSome) hRefused

theorem Window.Inv.step_clear {isOpen : Prop} (hSigner : signer.Lawful) {op : SpendOp} (h : s.Inv keys isOpen)
    (hLawful : op.Lawful signer keys library network s) (hClear : op.Clear keys s) (hOpen : isOpen → 0 < op.channelCount) :
    (Window.mk (op.run signer keys library network s).wallet (op.run signer keys library network s).reserved
      ((op.run signer keys library network s).returned.toList ++ s.handed)).Inv keys isOpen := by
  have hLive := Window.settled_live hClear.known
  have hKeyed : s.wallet.live.Keyed := hLive ▸ h.keyed
  have hReserve : isOpen → anchorReserve ≤ s.wallet.trustedSpendableSats keys := by
    intro hIsOpen
    refine (h.reserve hIsOpen).trans (trustedSpendable_mono ?_)
    rw [hLive]
    exact .refl _
  have hRun : HandsOver keys isOpen s.wallet (op.run signer keys library network s).wallet
      (op.run signer keys library network s).returned := by
    apply op.run_handsOver hSigner hKeyed hLawful fun _ => hClear.sweepsNew
    intro hIsOpen
    exact ⟨hOpen hIsOpen, hClear.feeHeld (hOpen hIsOpen)⟩
  obtain ⟨hNone, hGrows⟩ | ⟨tx, hSome, hHandover⟩ := hRun
  · rw [hNone]
    obtain ⟨hSettled, -⟩ := Window.settled_grows hClear.known [] hGrows (Finset.empty_subset _)
      (op.run signer keys library network s).reserved
    exact ⟨hKeyed.of_grows hSettled, h.disjoint, fun hIsOpen => (hReserve hIsOpen).trans (trustedSpendable_mono hSettled)⟩
  · obtain ⟨added, hAdded, hGrows⟩ := hHandover.grows
    rw [hSome]
    obtain ⟨hSettled, hRevealed⟩ := Window.settled_grows hClear.known [tx] hGrows hAdded
      (op.run signer keys library network s).reserved
    refine ⟨hKeyed.insert hHandover.fresh hSettled, List.pairwise_cons.mpr ⟨?_, h.disjoint⟩, ?_⟩
    · intro other hOther outpoint hInput hSpent
      exact hHandover.unspent outpoint hInput ⟨other, hClear.known other hOther, hSpent⟩
    · intro hIsOpen
      exact hHandover.reserve hIsOpen (hReserve hIsOpen) _ hSettled hRevealed

theorem Window.Inv.step {isOpen : Prop} (hSigner : signer.Lawful) {op : SpendOp} {t : Window} (h : s.Inv keys isOpen)
    (hLawful : op.Lawful signer keys library network s)
    (hClear : op.Admitted signer keys library network s → op.Clear keys s) (hOpen : isOpen → 0 < op.channelCount)
    (hStep : op.step signer keys library network s = some t) : t.Inv keys isOpen := by
  cases hStep
  by_cases hAdmitted : op.Admitted signer keys library network s
  · exact h.step_clear hSigner hLawful (hClear hAdmitted) hOpen
  · exact h.step_refused hSigner hLawful hAdmitted

/-- As long as the wallet knows what it has handed out before it builds again, no coin is spent twice. The
reserve is left as well if exact sends pay no more than the fee it is checked at and a funding leaves it. -/
theorem window_spends_once (signer : Signer) (keys : Descriptors) (library : AddressLibrary) (network : Network)
    (hSigner : signer.Lawful) (w : OnchainWallet) (hKeyed : w.live.Keyed) (reserved : Finset OutPoint)
    (ops : List SpendOp) (t : Window)
    (hLawful : Along (SpendOp.step signer keys library network) (fun s op => op.Lawful signer keys library network s)
      ⟨w, reserved, []⟩ ops)
    (hClear : Along (SpendOp.step signer keys library network)
      (fun s op => op.Admitted signer keys library network s → op.Clear keys s) ⟨w, reserved, []⟩ ops)
    (hRun : exec (SpendOp.step signer keys library network) ⟨w, reserved, []⟩ ops = some t) :
    (t.handed.Pairwise fun first second => first.inputs.Disjoint second.inputs) ∧
      ((∀ op ∈ ops, 0 < op.channelCount) → anchorReserve ≤ w.trustedSpendableSats keys →
        anchorReserve ≤ t.settled.trustedSpendable keys) := by
  let start : Window := ⟨w, reserved, []⟩
  have hLive : start.settled.live = w.live := Window.settled_live (by simp [start])
  have hInv (isOpen : Prop) (hReserve : isOpen → anchorReserve ≤ w.trustedSpendableSats keys)
      (hOpen : isOpen → ∀ op ∈ ops, 0 < op.channelCount) : t.Inv keys isOpen := by
    have hStart : start.Inv keys isOpen := by
      refine ⟨hLive ▸ hKeyed, .nil, ?_⟩
      intro hIsOpen
      refine (hReserve hIsOpen).trans (trustedSpendable_mono ?_)
      rw [hLive]
      exact .refl _
    have hChannels : Along (SpendOp.step signer keys library network) (fun _ op => isOpen → 0 < op.channelCount) start ops :=
      along_of_forall (fun op hOp hIsOpen => hOpen hIsOpen op hOp) start
    refine exec_inv ?_ hStart (along_and hLawful (along_and hClear hChannels)) hRun
    rintro s op s' hInv ⟨hLawful, hClear, hOpen⟩ hStep
    exact hInv.step hSigner hLawful hClear hOpen hStep
  constructor
  · exact (hInv False False.elim False.elim).disjoint
  · intro hOpen hReserve
    exact (hInv True (fun _ => hReserve) (fun _ => hOpen)).reserve trivial

end

/-! ## A small window -/

/-- Witness programs of 22 bytes. -/
def demoPrograms : Descriptors where
  spk k index := [0x00, 0x14, (match k with | .external => 0 | .internal => 1), .ofNat index] ++ List.replicate 18 0
  distinct := by simp

def demoCoinAt (vout : Nat) : LocalOutput :=
  ⟨⟨"receipts", vout⟩, ⟨60000, demoPrograms.spk .external vout⟩, .external, true⟩

/-- Two confirmed coins of the same value. -/
def demoWindow : Window where
  wallet := .new {
    revealed := fun k => if k = .external then 2 else 0
    txs := {⟨"receipts", [⟨"payer", 0⟩], [(demoCoinAt 0).txout, (demoCoinAt 1).txout]⟩}
    anchors := {"receipts"}
    tip := 1000 } false false
  reserved := ∅
  handed := []

def demoAddress : String := "tb1qw508d6qejxtdg4y5r3zarvary0c5xw7kxpjzsx"

def demoScript : Script :=
  [0x00, 0x14, 0x75, 0x1e, 0x76, 0xe8, 0x19, 0x91, 0x96, 0xd4, 0x54, 0x94, 0x1c, 0x45, 0xd1, 0xb3, 0xa3, 0x23, 0xf1,
    0x43, 0x3b, 0xd6]

/-- Reads this one address, which belongs to the test networks. -/
def demoLibrary : AddressLibrary where
  fromStr text :=
    if text = demoAddress then .ok ⟨demoScript, fun network => network ∉ [.bitcoin, .regtest]⟩
    else .error "base58 error"
  minimalNonDust _ := 294

/-- A send with a channel open; the estimate finds the same coins. -/
def demoSend (coins : List LocalOutput) (amountSats excessSats feeSats : Nat) (txid : String) : SpendOp :=
  let answer : BuildAnswer := ⟨false, false, .ok ⟨coins, some excessSats, .ok feeSats⟩⟩
  .sendOnchain ⟨true, 2, 1⟩ demoAddress amountSats amountSats feeSats answer ⟨answer, ⟨.ok true, .ok txid⟩, none⟩

theorem demoSend_lawful {s : Window} {coins : List LocalOutput} {amountSats excessSats feeSats : Nat} {txid : String}
    (hCoins : ∀ coin ∈ coins, coin ∈ (checkSendReserve demoPrograms demoLibrary s.wallet demoScript amountSats 10000
      ⟨false, false, .ok ⟨coins, some excessSats, .ok feeSats⟩⟩).2.spendable demoPrograms)
    (hSum : (coins.map (·.txout.value)).sum = amountSats + excessSats + feeSats)
    (hFresh : (checkSendReserve demoPrograms demoLibrary s.wallet demoScript amountSats 10000
      ⟨false, false, .ok ⟨coins, some excessSats, .ok feeSats⟩⟩).2.live.FreshId txid) :
    (demoSend coins amountSats excessSats feeSats txid).Lawful demoSigner demoPrograms demoLibrary .signet s := by
  have hParse : parseAddress demoLibrary demoAddress .signet = .ok demoScript := rfl
  intro script hScript
  cases hParse.symm.trans hScript
  constructor
  · rintro _ ⟨⟩ picked hPicked
    exact hCoins picked hPicked
  · rintro _ _ ⟨⟩ ⟨⟩
    simpa [TxSpec.fixedSats] using hSum
  · rintro _ ⟨⟩
    exact hFresh

def demoClosed : SpendableOutputDescriptor := .delayedPaymentOutput ⟨"closed", 0⟩ ⟨100000, [1]⟩ 144 []

def demoSubsidyEnv : PassEnv := { demoEnv [] .ok with sendRateSatPerVb := 10, coins := [demoCoinAt 0, demoCoinAt 1] }

/-- A closed channel's output whose fee a coin of the wallet helps to pay. -/
def demoSubsidy : SpendOp := .subsidize 1 demoSubsidyEnv [demoClosed] [7]

def demoSweepTx : Transaction :=
  ⟨"subsidized", [⟨"closed", 0⟩, ⟨"receipts", 0⟩], [⟨99000, [7]⟩, ⟨59010, demoPrograms.spk .internal 0⟩]⟩

def demoSwept : Window where
  wallet := ((subsidyChange demoPrograms demoWindow.wallet (some 59010) none).2.applyUnconfirmedTx demoSweepTx none).2
  reserved := {⟨"receipts", 0⟩}
  handed := [demoSweepTx]

theorem demoWindow_candidates : confirmedP2wpkhCandidates demoPrograms demoWindow.wallet ∅ demoSubsidyEnv.coins =
    [.ofCoin (demoCoinAt 0), .ofCoin (demoCoinAt 1)] := by
  have hCoins : (demoSubsidyEnv.coins.dedup.filter (· ∈ demoWindow.wallet.confirmedUtxos demoPrograms)).filter
      (fun coin => coin.outpoint ∉ (∅ : Finset OutPoint) && isP2wpkh coin.txout.scriptPubkey) =
        [demoCoinAt 0, demoCoinAt 1] := by decide +kernel
  rw [confirmedP2wpkhCandidates, hCoins]
  exact List.mergeSort_of_pairwise (by decide +kernel)

theorem demoSubsidy_attempt : subsidizedAttempt demoSigner demoPrograms demoWindow 1 demoSubsidyEnv [demoClosed] [7] =
    ⟨.broadcast "subsidized" 990, demoSwept.wallet, demoSwept.reserved, some demoSweepTx⟩ := by
  rw [subsidizedAttempt, attemptSubsidized, show demoWindow.reserved = ∅ from rfl, demoWindow_candidates]
  rfl

theorem demoSubsidy_step : demoSubsidy.step demoSigner demoPrograms demoLibrary .signet demoWindow = some demoSwept := by
  rw [SpendOp.step, demoSubsidy, SpendOp.run, demoSubsidy_attempt]
  rfl

theorem demoWindow_keyed : demoWindow.wallet.live.Keyed := by
  have hTxs : demoWindow.wallet.live.txs =
      {⟨"receipts", [⟨"payer", 0⟩], [(demoCoinAt 0).txout, (demoCoinAt 1).txout]⟩} := rfl
  intro first hFirst second hSecond _
  rw [hTxs, Finset.mem_singleton] at hFirst hSecond
  rw [hFirst, hSecond]

def demoChange : LocalOutput := ⟨⟨"subsidized", 1⟩, ⟨59010, demoPrograms.spk .internal 0⟩, .internal, false⟩

/-- A sweep that takes one coin, a send from the other one, and one that would not leave the reserve. -/
def demoOps : List SpendOp :=
  [demoSubsidy, demoSend [demoCoinAt 1] 40000 19500 500 "payment",
    demoSend [demoCoinAt 1, demoChange] 110000 8510 500 "refused"]

/-- The last send is refused. -/
theorem sweep_and_send_spend_once :
    ∃ t, exec (SpendOp.step demoSigner demoPrograms demoLibrary .signet) demoWindow demoOps = some t ∧
      t.handed.map (·.txid) = ["payment", "subsidized"] ∧
      (t.handed.Pairwise fun first second => first.inputs.Disjoint second.inputs) ∧
      anchorReserve ≤ t.settled.trustedSpendable demoPrograms := by
  have hRun : exec (SpendOp.step demoSigner demoPrograms demoLibrary .signet) demoWindow demoOps =
      exec (SpendOp.step demoSigner demoPrograms demoLibrary .signet) demoSwept demoOps.tail := by
    rw [demoOps, exec, demoSubsidy_step]
    rfl
  have hLawful : Along (SpendOp.step demoSigner demoPrograms demoLibrary .signet)
      (fun s op => op.Lawful demoSigner demoPrograms demoLibrary .signet s) demoWindow demoOps := by
    refine ⟨?_, fun t hStep => ?_⟩
    · intro tx hTx
      rw [demoSubsidy_attempt] at hTx
      cases hTx
      decide +kernel
    · cases demoSubsidy_step.symm.trans hStep
      refine ⟨demoSend_lawful (by decide +kernel) rfl (by decide +kernel), ?_⟩
      rintro _ ⟨⟩
      exact ⟨demoSend_lawful (by decide +kernel) rfl (by decide +kernel), fun _ _ => trivial⟩
  have hClear : Along (SpendOp.step demoSigner demoPrograms demoLibrary .signet)
      (fun s op => op.Admitted demoSigner demoPrograms demoLibrary .signet s → op.Clear demoPrograms s) demoWindow
      demoOps := by
    refine ⟨fun _ => ⟨by simp [demoWindow], fun _ => trivial, ?_⟩, fun t hStep => ?_⟩
    · intro descriptor hDescriptor
      rw [List.mem_singleton.mp hDescriptor]
      decide +kernel
    · cases demoSubsidy_step.symm.trans hStep
      refine ⟨fun _ => ⟨by decide +kernel, ?_, trivial⟩, ?_⟩
      · rintro - _ _ ⟨⟩ ⟨⟩
        exact le_rfl
      · rintro _ ⟨⟩
        refine ⟨?_, fun _ _ => trivial⟩
        rintro ⟨-, script, hScript, hChecked, -⟩
        have hParse : parseAddress demoLibrary demoAddress .signet = .ok demoScript := rfl
        cases hParse.symm.trans hScript
        obtain ⟨_, _, ⟨⟩, ⟨⟩, hLeft⟩ := checkSendReserve_ok (by decide) hChecked
        exact absurd hLeft (by decide +kernel)
  obtain ⟨hOnce, hReserve⟩ := window_spends_once demoSigner demoPrograms demoLibrary .signet demoSigner_lawful
    demoWindow.wallet demoWindow_keyed ∅ _ _ hLawful hClear hRun
  refine ⟨_, hRun, by decide +kernel, hOnce, hReserve ?_ (by decide +kernel)⟩
  simp [demoOps, demoSubsidy, demoSend, SpendOp.channelCount]

/-- Two sends take the same coin. From a coin each, two sends leave less than the reserve. -/
theorem sends_spend_twice :
    (∃ t, Along (SpendOp.step demoSigner demoPrograms demoLibrary .signet)
        (fun s op => op.Lawful demoSigner demoPrograms demoLibrary .signet s) demoWindow
        [demoSend [demoCoinAt 0] 40000 19500 500 "first", demoSend [demoCoinAt 0] 30000 29500 500 "second"] ∧
      exec (SpendOp.step demoSigner demoPrograms demoLibrary .signet) demoWindow
        [demoSend [demoCoinAt 0] 40000 19500 500 "first", demoSend [demoCoinAt 0] 30000 29500 500 "second"] = some t ∧
      ¬ t.handed.Pairwise fun first second => first.inputs.Disjoint second.inputs) ∧
    ∃ t, Along (SpendOp.step demoSigner demoPrograms demoLibrary .signet)
        (fun s op => op.Lawful demoSigner demoPrograms demoLibrary .signet s) demoWindow
        [demoSend [demoCoinAt 0] 55000 4000 1000 "first", demoSend [demoCoinAt 1] 55000 4000 1000 "second"] ∧
      exec (SpendOp.step demoSigner demoPrograms demoLibrary .signet) demoWindow
        [demoSend [demoCoinAt 0] 55000 4000 1000 "first", demoSend [demoCoinAt 1] 55000 4000 1000 "second"] = some t ∧
      anchorReserve ≤ demoWindow.wallet.trustedSpendableSats demoPrograms ∧
      t.settled.trustedSpendable demoPrograms < anchorReserve := by
  refine ⟨?_, ?_⟩
  · have hHanded : (exec (SpendOp.step demoSigner demoPrograms demoLibrary .signet) demoWindow
        [demoSend [demoCoinAt 0] 40000 19500 500 "first", demoSend [demoCoinAt 0] 30000 29500 500 "second"]).map
          (·.handed.map (·.inputs)) = some [[⟨"receipts", 0⟩], [⟨"receipts", 0⟩]] := by decide +kernel
    obtain ⟨t, hRun, hInputs⟩ := Option.map_eq_some_iff.mp hHanded
    refine ⟨t, ?_, hRun, fun hPairwise => ?_⟩
    · refine ⟨demoSend_lawful (by decide +kernel) rfl (by decide +kernel), ?_⟩
      rintro _ ⟨⟩
      exact ⟨demoSend_lawful (by decide +kernel) rfl (by decide +kernel), fun _ _ => trivial⟩
    · have hDisjoint : (t.handed.map (·.inputs)).Pairwise List.Disjoint := List.pairwise_map.mpr hPairwise
      rw [hInputs] at hDisjoint
      simp at hDisjoint
  · refine ⟨_, ?_, rfl, by decide +kernel, by decide +kernel⟩
    refine ⟨demoSend_lawful (by decide +kernel) rfl (by decide +kernel), ?_⟩
    rintro _ ⟨⟩
    exact ⟨demoSend_lawful (by decide +kernel) rfl (by decide +kernel), fun _ _ => trivial⟩

end WalletCore.Wallet
