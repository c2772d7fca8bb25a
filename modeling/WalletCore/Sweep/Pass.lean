import WalletCore.Sweep.Engine

/-! # What a pass can do

A pass leaves the files as the prune and the removal of members left them, or it commits one transaction
that it broadcast.
-/

namespace WalletCore.Sweep

open CloseRecords Lib
open Restore (hexStr)
open Wallet hiding Psbt

/-! ## The subsidized path -/

section

variable {signer : Signer} {keys : Descriptors} {env : PassEnv} {wallet : OnchainWallet} {reserved : Finset OutPoint}
  {descriptors : List SpendableOutputDescriptor} {destination : Script} {plan : SubsidyPlan} {tx : Transaction}

theorem planSubsidy_ok {rate reserveSats : Nat} {candidates : List SubsidyInput}
    (h : planSubsidy signer descriptors destination rate candidates reserveSats = .ok plan) :
    signer.createSpendableOutputsPsbt descriptors destination floorFeerateSatPerKw =
      some (plan.psbt, plan.ldkWeightWu) ∧
    ∃ ldkFeeSats, selectSubsidyInputs candidates plan.ldkWeightWu ldkFeeSats rate reserveSats =
      .selected plan.selection := by
  unfold planSubsidy at h
  split at h
  · cases h
  · next psbt weight hCreate =>
    dsimp only at h
    split_ifs at h
    split at h
    · cases h
    · next selection hSelect =>
      split_ifs at h
      cases h
      exact ⟨hCreate, _, hSelect⟩

theorem signSubsidized_ok {change : Option TxOut} {urgentSatPerKw : Nat} (hLawful : signer.Lawful)
    (h : signSubsidized signer descriptors plan change urgentSatPerKw = .ok tx) :
    tx.inputs = (plan.complete change).outpoints ∧ tx.outputs = (plan.complete change).outputs := by
  unfold signSubsidized at h
  dsimp only at h
  split at h
  · cases h
  · split_ifs at h
    split at h
    · cases h
    · split at h
      · cases h
      · next signed hSigned =>
        split at h
        · cases h
        · cases h
        · next final hFinal =>
          split_ifs at h
          split at h
          · cases h
          · next extracted hExtract =>
            cases h
            obtain ⟨hInputs, hOutputs⟩ := hLawful.extracts hExtract
            obtain ⟨hInputs', hOutputs'⟩ := hLawful.signsTrusted hFinal
            obtain ⟨hInputs'', hOutputs''⟩ := hLawful.signs hSigned
            exact ⟨hInputs.trans (hInputs'.trans hInputs''), hOutputs.trans (hOutputs'.trans hOutputs'')⟩

def PassEnv.Truth (env : PassEnv) (tx : Transaction) : Prop := env.broadcast tx = .ok ∨ env.chainKnows tx.txid = true

theorem confirmSubsidized_ok (h : confirmSubsidized env tx = .ok ()) : env.Truth tx := by
  unfold confirmSubsidized at h
  split at h
  · next hAccepted => exact .inl (broadcastTransaction_accepted hAccepted)
  · split_ifs at h with hKnown
    rw [PassEnv.txKnown, Bool.and_eq_true] at hKnown
    exact .inr hKnown.2
  · cases h

/-- What a subsidized broadcast was made of. -/
structure Subsidized (signer : Signer) (keys : Descriptors) (env : PassEnv) (wallet : OnchainWallet)
    (reserved : Finset OutPoint) (descriptors : List SpendableOutputDescriptor) (destination : Script)
    (plan : SubsidyPlan) (change : Option TxOut) (tx : Transaction) : Prop where
  planned : planSubsidy signer descriptors destination env.sweepRateSatPerVb
    (confirmedP2wpkhCandidates keys wallet reserved env.coins) env.reserveSats = .ok plan
  change_ok : (subsidyChange keys wallet plan.selection.changeSats env.changeError).1 = .ok change
  signed : signSubsidized signer descriptors plan change env.urgentSatPerKw = .ok tx
  truth : env.Truth tx

/-- The rescue spends the outputs of its descriptors and the selected coins. -/
theorem Subsidized.mem_inputs {change : Option TxOut} (hLawful : signer.Lawful)
    (h : Subsidized signer keys env wallet reserved descriptors destination plan change tx) {outpoint : OutPoint} :
    outpoint ∈ tx.inputs ↔
      outpoint ∈ descriptors.map (·.previousOutput) ∨ outpoint ∈ plan.selection.selected.map (·.outpoint) := by
  rw [(signSubsidized_ok hLawful h.signed).1, SweepPsbt.outpoints, SubsidyPlan.complete, List.map_append,
    List.mem_append, List.map_map]
  exact or_congr_left (hLawful.creates (planSubsidy_ok h.planned).1 outpoint)

theorem Subsidized.inputs {change : Option TxOut} (hLawful : signer.Lawful)
    (h : Subsidized signer keys env wallet reserved descriptors destination plan change tx) {outpoint : OutPoint}
    (hInput : outpoint ∈ tx.inputs) : (∃ descriptor ∈ descriptors, descriptor.previousOutput = outpoint) ∨
      ∃ input ∈ plan.selection.selected, input.outpoint = outpoint := by
  obtain hCreated | hSelected := (h.mem_inputs hLawful).mp hInput
  · exact .inl (List.mem_map.mp hCreated)
  · exact .inr (List.mem_map.mp hSelected)

theorem Subsidized.selected {change : Option TxOut}
    (h : Subsidized signer keys env wallet reserved descriptors destination plan change tx) {input : SubsidyInput}
    (hInput : input ∈ plan.selection.selected) :
    ∃ coin ∈ env.coins, coin ∈ wallet.confirmedUtxos keys ∧ SubsidyInput.ofCoin coin = input := by
  obtain ⟨-, ldkFeeSats, hSelect⟩ := planSubsidy_ok h.planned
  have hCandidate := (selectSubsidyInputs_sound hSelect).fromFront.subset hInput
  obtain ⟨coin, hListed, hCoin, -, -, hSame⟩ := mem_confirmedP2wpkhCandidates.mp hCandidate
  exact ⟨coin, hListed, hCoin, hSame⟩

theorem planSubsidy_error {rate reserveSats sats : Nat} {candidates : List SubsidyInput} {txid : String} :
    planSubsidy signer descriptors destination rate candidates reserveSats ≠ .error (.broadcast txid sats) := by
  unfold planSubsidy
  split
  · simp
  · dsimp only
    split_ifs
    · simp
    · simp
    · simp
    · simp
    · split
      · simp
      · split_ifs <;> simp

theorem subsidyChange_error {changeSats : Option Nat} {changeError : Option String} {txid : String} {sats : Nat} :
    (subsidyChange keys wallet changeSats changeError).1 ≠ .error (.broadcast txid sats) := by
  unfold subsidyChange
  split
  · simp
  · dsimp only
    split
    · simp
    · split_ifs <;> simp

theorem signSubsidized_error {change : Option TxOut} {urgentSatPerKw sats : Nat} {txid : String} :
    signSubsidized signer descriptors plan change urgentSatPerKw ≠ .error (.broadcast txid sats) := by
  unfold signSubsidized
  dsimp only
  split
  · simp
  · split_ifs
    · simp
    · split
      · simp
      · split
        · simp
        · split
          · simp
          · simp
          · split_ifs
            · simp
            · split <;> simp

theorem live_le_subsidyChange (changeSats : Option Nat) (changeError : Option String) :
    wallet.live ≤ (subsidyChange keys wallet changeSats changeError).2.live := by
  unfold subsidyChange
  split
  · exact le_rfl
  · have hReveal : wallet.live ≤ (wallet.getChangeDestinationScript changeError).2.live := by
      rw [OnchainWallet.live_getChangeDestinationScript]
      exact le_sup_left
    dsimp only
    split <;> exact hReveal

theorem attemptSubsidized_cases (signer : Signer) (keys : Descriptors) (env : PassEnv) (wallet : OnchainWallet)
    (reserved : Finset OutPoint) (descriptors : List SpendableOutputDescriptor) (destination : Script) :
    let attempt := attemptSubsidized signer keys env wallet reserved descriptors destination
    wallet.live ≤ attempt.wallet.live ∧
    ((∀ txid sats, attempt.outcome ≠ .broadcast txid sats) ∧ attempt.reserved = reserved ∨
      ∃ plan change tx, Subsidized signer keys env wallet reserved descriptors destination plan change tx ∧
        attempt.outcome = .broadcast tx.txid plan.selection.subsidySats ∧ attempt.submitted = some tx ∧
        attempt.reserved = reserved ∪ (plan.selection.selected.map (·.outpoint)).toFinset ∧
        attempt.wallet = ((subsidyChange keys wallet plan.selection.changeSats env.changeError).2.applyUnconfirmedTx tx
          env.registerError).2) := by
  intro attempt
  dsimp only [attempt, attemptSubsidized]
  split
  · next outcome hPlan =>
    refine ⟨le_rfl, .inl ⟨?_, rfl⟩⟩
    rintro txid sats rfl
    exact planSubsidy_error hPlan
  · next plan hPlan =>
    have hLive : wallet.live ≤ (subsidyChange keys wallet plan.selection.changeSats env.changeError).2.live :=
      live_le_subsidyChange _ _
    split
    · next outcome hSign =>
      refine ⟨hLive, .inl ⟨?_, rfl⟩⟩
      rintro txid sats rfl
      cases hChange : (subsidyChange keys wallet plan.selection.changeSats env.changeError).1 with
      | error outcome =>
        rw [hChange] at hSign
        cases hSign
        exact subsidyChange_error hChange
      | ok change =>
        rw [hChange] at hSign
        exact signSubsidized_error hSign
    · next tx hSign =>
      split
      · exact ⟨hLive, .inl ⟨by simp, rfl⟩⟩
      · next hConfirm =>
        obtain ⟨change, hChange, hSigned⟩ : ∃ change,
            (subsidyChange keys wallet plan.selection.changeSats env.changeError).1 = .ok change ∧
              signSubsidized signer descriptors plan change env.urgentSatPerKw = .ok tx := by
          cases hChange : (subsidyChange keys wallet plan.selection.changeSats env.changeError).1 with
          | error outcome =>
            rw [hChange] at hSign
            cases hSign
          | ok change =>
            rw [hChange] at hSign
            exact ⟨change, rfl, hSign⟩
        refine ⟨?_, .inr ⟨plan, change, tx, ⟨hPlan, hChange, hSigned, confirmSubsidized_ok hConfirm⟩, rfl, rfl, rfl, rfl⟩⟩
        rw [OnchainWallet.applyUnconfirmedTx, OnchainWallet.live_applyUpdate]
        exact hLive.trans le_sup_left

end

/-! ## The members that are left -/

/-- The entries and members a pass sends: as gathered, or without what cannot be signed. -/
def Reached (signer : Signer) (env : PassEnv) (destination : Script) (stored : SweepStore) (gathered : List BatchMember)
    (store : SweepStore) (batch : List BatchMember) : Prop :=
  store = stored ∧ batch = gathered ∧ ((spendBatch signer env gathered destination).isSome = true ∨
    ∀ m ∈ gathered, signer.descriptorIsUnsignable m.descriptor destination = false) ∨
  ∃ poisoned, poisoned = gathered.filter (signer.descriptorIsUnsignable ·.descriptor destination) ∧ poisoned ≠ [] ∧
    spendBatch signer env gathered destination = none ∧ store = removeMembers stored env poisoned ∧
    batch = gathered.filter fun m => !signer.descriptorIsUnsignable m.descriptor destination

section

variable {signer : Signer} {keys : Descriptors} {env : PassEnv} {destination : Script}

variable (signer env destination) in
theorem spendSignable_cases (stored : SweepStore) (gathered : List BatchMember) :
    let spent := spendSignable signer env stored gathered destination
    Reached signer env destination stored gathered spent.1 spent.2.1 ∧
      (spent.2.1 ≠ [] → spent.2.2 = spendBatch signer env spent.2.1 destination) := by
  dsimp only [spendSignable]
  split
  · next tx hSpend => exact ⟨.inl ⟨rfl, rfl, .inl (by rw [hSpend, Option.isSome_some])⟩, fun _ => hSpend.symm⟩
  · next hSpend =>
    rw [List.partition_eq_filter_filter]
    dsimp only
    split_ifs with hNone hLeft
    · exact ⟨.inl ⟨rfl, rfl, .inr (by simpa [List.filter_eq_nil_iff] using hNone)⟩, fun _ => hSpend.symm⟩
    · exact ⟨.inr ⟨_, rfl, hNone, hSpend, rfl, rfl⟩, fun hSome => absurd hLeft hSome⟩
    · exact ⟨.inr ⟨_, rfl, hNone, hSpend, rfl, rfl⟩, fun _ => rfl⟩

variable (signer keys env destination) in
/-- How a transaction came to be committed: as a plain spend, or with coins of the wallet where a plain
spend has no output. -/
inductive Sent (wallet : OnchainWallet) (reserved : Finset OutPoint) (batch : List BatchMember) (tx : Transaction) :
    Prop where
  | plain (hSpend : spendBatch signer env batch destination = some tx) (hOutputs : tx.outputs ≠ [])
      (hOutcome : env.broadcast tx = .ok ∨ (env.broadcast tx).benign = true)
  | subsidized (plan : SubsidyPlan) (change : Option TxOut)
      (hBare : (spendBatch signer env batch destination).filter (·.outputs ≠ []) = none)
      (h : Subsidized signer keys env wallet reserved (batch.map (·.descriptor)) destination plan change tx)

variable (signer keys env destination) in
/-- The coins of the wallet that a spend of the members takes: those of its subsidy, where it needs one. -/
def addedCoins (wallet : OnchainWallet) (reserved : Finset OutPoint) (batch : List BatchMember) : List OutPoint :=
  match (spendBatch signer env batch destination).filter (·.outputs ≠ []) with
  | some _ => []
  | none =>
    match planSubsidy signer (batch.map (·.descriptor)) destination env.sweepRateSatPerVb
        (confirmedP2wpkhCandidates keys wallet reserved env.coins) env.reserveSats with
    | .error _ => []
    | .ok plan => plan.selection.selected.map (·.outpoint)

/-- An output of a member, or one of the coins. -/
def Covered (batch : List BatchMember) (coins : List OutPoint) (outpoint : OutPoint) : Prop :=
  (∃ m ∈ batch, m.descriptor.previousOutput = outpoint) ∨ outpoint ∈ coins

instance (batch : List BatchMember) (coins : List OutPoint) (outpoint : OutPoint) :
    Decidable (Covered batch coins outpoint) :=
  inferInstanceAs (Decidable (_ ∨ _))

theorem mem_previousOutputs {batch : List BatchMember} {outpoint : OutPoint} :
    outpoint ∈ (batch.map (·.descriptor)).map (·.previousOutput) ↔
      ∃ m ∈ batch, m.descriptor.previousOutput = outpoint := by
  rw [List.map_map, List.mem_map]
  exact Iff.rfl

theorem Sent.mem_inputs {wallet : OnchainWallet} {reserved : Finset OutPoint} {batch : List BatchMember}
    {tx : Transaction} (hLawful : signer.Lawful) (h : Sent signer keys env destination wallet reserved batch tx)
    (outpoint : OutPoint) : outpoint ∈ tx.inputs ↔
      Covered batch (addedCoins signer keys env destination wallet reserved batch) outpoint := by
  rw [Covered, ← mem_previousOutputs, addedCoins]
  cases h with
  | plain hSpend hOutputs _ =>
    rw [Option.filter_eq_some_iff.mpr ⟨hSpend, decide_eq_true hOutputs⟩, hLawful.spends hSpend]
    exact (or_iff_left List.not_mem_nil).symm
  | subsidized plan change hBare h =>
    rw [hBare, h.planned]
    exact h.mem_inputs hLawful

theorem Sent.spends {wallet : OnchainWallet} {reserved : Finset OutPoint} {batch : List BatchMember}
    {tx : Transaction} (hLawful : signer.Lawful) (h : Sent signer keys env destination wallet reserved batch tx)
    {m : BatchMember} (hm : m ∈ batch) : m.descriptor.previousOutput ∈ tx.inputs :=
  (h.mem_inputs hLawful _).mpr (.inl ⟨m, hm, rfl⟩)

/-- Nothing of the batch is deleted or recorded. -/
structure KeptAll (e : SweepEngine) (store : SweepStore) (r : PassResult) : Prop where
  files : r.engine.store.files = store.files
  records : r.engine.closeRecords = e.closeRecords
  txid : ∀ summary ∈ r.summary, summary.txid = none

variable (env) in
structure Committed (e : SweepEngine) (g : Gathered) (store : SweepStore) (tx : Transaction) (r : PassResult) : Prop where
  submitted : r.submitted = some tx
  files : r.engine.store.files = (store.removeEntries g.batchKeys (env.storeFails .commit)).files
  records : r.engine.closeRecords = recordSweepTx e.closeRecords tx.txid g.channels.dedup env.nowMs
  txid : ∃ summary ∈ r.summary, summary.txid = some tx.txid

variable (keys) in
theorem sendPlain_cases (e : SweepEngine) (g : Gathered) (batch : List BatchMember) {tx : Transaction}
    (hSpend : spendBatch signer env batch destination = some tx) (hOutputs : tx.outputs ≠ []) :
    let r := sendPlain signer env e g batch tx
    r.engine.wallet = e.wallet ∧ (KeptAll e e.store r ∨
      Sent signer keys env destination e.wallet e.spentSubsidyOutpoints batch tx ∧ Committed env e g e.store tx r) := by
  intro r
  dsimp only [r, sendPlain]
  split
  · exact ⟨rfl, .inl ⟨rfl, rfl, by rintro _ ⟨⟩; rfl⟩⟩
  · split
    · next hAccepted =>
      have hSent : Sent signer keys env destination e.wallet e.spentSubsidyOutpoints batch tx :=
        .plain hSpend hOutputs (.inl (broadcastTransaction_accepted hAccepted))
      exact ⟨rfl, .inr ⟨hSent, rfl, rfl, rfl, _, rfl, rfl⟩⟩
    · next hKnown =>
      have hSent : Sent signer keys env destination e.wallet e.spentSubsidyOutpoints batch tx :=
        .plain hSpend hOutputs (.inr (broadcastTransaction_alreadyKnown.mp hKnown))
      exact ⟨rfl, .inr ⟨hSent, rfl, rfl, rfl, _, rfl, rfl⟩⟩
    · exact ⟨rfl, .inl ⟨rfl, rfl, by rintro _ ⟨⟩; rfl⟩⟩

variable (signer keys env destination) in
theorem sendSubsidized_cases (e : SweepEngine) (g : Gathered) (batch : List BatchMember)
    (hBare : (spendBatch signer env batch destination).filter (·.outputs ≠ []) = none) :
    let r := sendSubsidized signer keys env e g batch destination
    e.wallet.live ≤ r.engine.wallet.live ∧ (KeptAll e e.store r ∨
      ∃ tx, Sent signer keys env destination e.wallet e.spentSubsidyOutpoints batch tx ∧ Committed env e g e.store tx r) := by
  intro r
  obtain ⟨hLive, ⟨hRefused, -⟩ | ⟨plan, change, tx, hSubsidized, hOutcome, hSubmitted, -⟩⟩ :=
    attemptSubsidized_cases signer keys env e.wallet e.spentSubsidyOutpoints (batch.map (·.descriptor)) destination
  · dsimp only [r, sendSubsidized]
    split
    · next txid sats hBroadcast => exact absurd hBroadcast (hRefused txid sats)
    · exact ⟨hLive, .inl ⟨rfl, rfl, by rintro _ ⟨⟩; rfl⟩⟩
    · exact ⟨hLive, .inl ⟨rfl, rfl, by rintro _ ⟨⟩; rfl⟩⟩
    · exact ⟨hLive, .inl ⟨rfl, rfl, by rintro _ ⟨⟩; rfl⟩⟩
  · dsimp only [r, sendSubsidized]
    rw [hOutcome]
    exact ⟨hLive, .inr ⟨tx, .subsidized plan change hBare hSubsidized, hSubmitted, rfl, rfl, _, rfl, rfl⟩⟩

theorem revealNextExternalScript_some {w : OnchainWallet} {writeError : Option String} {address : AddressInfo}
    (h : (w.revealNextExternalScript writeError).1 = some address) :
    address = ⟨.external, w.live.revealed .external⟩ := by
  dsimp only [OnchainWallet.revealNextExternalScript, OnchainWallet.vend] at h
  split_ifs at h
  exact (Option.some.inj h).symm

variable (signer keys env) in
/-- A pass over what was gathered deletes and records nothing, or commits one transaction. -/
theorem sweepGathered_cases (e : SweepEngine) (g : Gathered) :
    let r := sweepGathered signer keys env e g
    let destination := keys.spk .external (e.wallet.live.revealed .external)
    let spent := spendSignable signer env e.store g.batch destination
    let wallet := (e.wallet.revealNextExternalScript env.destinationError).2
    e.wallet.live ≤ r.engine.wallet.live ∧ (KeptAll e e.store r ∨ KeptAll e spent.1 r ∨
      ∃ tx, spent.2.1 ≠ [] ∧ Sent signer keys env destination wallet e.spentSubsidyOutpoints spent.2.1 tx ∧
        Committed env e g spent.1 tx r) := by
  intro r destination spent wallet
  dsimp only [r, sweepGathered]
  split_ifs with hEmpty
  · exact ⟨le_rfl, .inl ⟨rfl, rfl, by rintro _ ⟨⟩; rfl⟩⟩
  · have hReveal : e.wallet.live ≤ (e.wallet.revealNextExternalScript env.destinationError).2.live := by
      rw [OnchainWallet.live_revealNextExternalScript]
      exact le_sup_left
    split
    · exact ⟨hReveal, .inl ⟨rfl, rfl, by rintro _ ⟨⟩; rfl⟩⟩
    · next script hScript =>
      obtain ⟨address, hAddress, rfl⟩ := Option.map_eq_some_iff.mp hScript
      obtain rfl := revealNextExternalScript_some hAddress
      have hDestination : AddressInfo.script keys ⟨.external, e.wallet.live.revealed .external⟩ = destination := rfl
      have hSpend : spent.2.1 ≠ [] → spent.2.2 = spendBatch signer env spent.2.1 destination :=
        (spendSignable_cases signer env destination e.store g.batch).2
      rw [hDestination]
      change _ ∧ (_ ∨ _)
      generalize hResult : spent = result at hSpend ⊢
      rw [show spendSignable signer env e.store g.batch destination = result from hResult]
      obtain ⟨store, batch, sent⟩ := result
      dsimp only at hSpend ⊢
      split_ifs with hNone
      · exact ⟨hReveal, .inr (.inl ⟨rfl, rfl, by rintro _ ⟨⟩; rfl⟩)⟩
      · rw [hSpend hNone]
        split
        · next tx hTx =>
          obtain ⟨hBatch, hOutputs⟩ := Option.filter_eq_some_iff.mp hTx
          obtain ⟨hWallet, hSent⟩ := sendPlain_cases keys
            { e with wallet := (e.wallet.revealNextExternalScript env.destinationError).2, store } g batch hBatch
            (of_decide_eq_true hOutputs)
          refine ⟨hWallet ▸ hReveal, .inr ?_⟩
          obtain ⟨hFiles, hRecords, hTxid⟩ | ⟨hSent, hSubmitted, hFiles, hRecords, hTxid⟩ := hSent
          · exact .inl ⟨hFiles, hRecords, hTxid⟩
          · exact .inr ⟨tx, hNone, hSent, hSubmitted, hFiles, hRecords, hTxid⟩
        · next hBare =>
          obtain ⟨hLive, hSent⟩ := sendSubsidized_cases signer keys env destination
            { e with wallet := (e.wallet.revealNextExternalScript env.destinationError).2, store } g batch hBare
          refine ⟨hReveal.trans hLive, .inr ?_⟩
          obtain ⟨hFiles, hRecords, hTxid⟩ | ⟨tx, hSent, hSubmitted, hFiles, hRecords, hTxid⟩ := hSent
          · exact .inl ⟨hFiles, hRecords, hTxid⟩
          · exact .inr ⟨tx, hNone, hSent, hSubmitted, hFiles, hRecords, hTxid⟩

/-- What is gathered, with the emptied entries gone. -/
def Gathered.swept (g : Gathered) (env : PassEnv) : Gathered :=
  { g with store := g.store.removeEntries g.emptiedKeys (env.storeFails .removeEmptied) }

variable (signer keys env) in
/-- A call does nothing, or ends in a panic while it gathers, or goes on with what it gathered. -/
theorem sweepOnce_cases (e : SweepEngine) :
    let r := sweepOnce signer keys env e
    (r.engine.store = e.store ∧ r.engine.wallet = e.wallet ∧ r.engine.closeRecords = e.closeRecords ∧
      ∀ summary ∈ r.summary, summary.txid = none) ∨
    ∃ panicked g, gatherEntries signer keys env.revealError (env.storeFails .pruneEntry)
        (e.store.entries env.listing.dedup) (.start e.store e.wallet) = (panicked, g) ∧
      (panicked = true ∧ r.engine.store = g.store ∧ r.engine.wallet = g.wallet ∧
        r.engine.closeRecords = e.closeRecords ∧ r.summary = none ∨
      panicked = false ∧ ∃ e' r', e'.store = (g.swept env).store ∧ e'.wallet = g.wallet ∧
        e'.closeRecords = e.closeRecords ∧ e'.spentSubsidyOutpoints = e.spentSubsidyOutpoints ∧
        r' = sweepGathered signer keys env e' (g.swept env) ∧
        r.engine.store = r'.engine.store ∧ r.engine.wallet = r'.engine.wallet ∧
        r.engine.closeRecords = r'.engine.closeRecords ∧ r.summary = r'.summary ∧ r.submitted = r'.submitted) := by
  intro r
  by_cases hBusy : e.inProgress = true
  · have hResult : r = ⟨e, some .default, none⟩ := if_pos hBusy
    rw [hResult]
    exact .inl ⟨rfl, rfl, rfl, by rintro _ ⟨⟩; rfl⟩
  · let pass := sweepPass signer keys env { e with inProgress := true }
    have hResult : r = { pass with engine := { pass.engine with inProgress := pass.summary.isNone } } := if_neg hBusy
    rw [hResult]
    by_cases hEmpty : e.store.entries env.listing.dedup = []
    · have hPass : pass = ⟨{ e with inProgress := true }, some .default, none⟩ := if_pos hEmpty
      rw [hPass]
      exact .inl ⟨rfl, rfl, rfl, by rintro _ ⟨⟩; rfl⟩
    · right
      obtain ⟨panicked, g, hRun⟩ : ∃ panicked g, gatherEntries signer keys env.revealError (env.storeFails .pruneEntry)
        (e.store.entries env.listing.dedup) (.start e.store e.wallet) = (panicked, g) := ⟨_, _, rfl⟩
      rw [hRun]
      cases panicked with
      | true =>
        have hPass : pass = ⟨{ e with store := g.store, wallet := g.wallet, inProgress := true }, none, none⟩ := by
          dsimp only [pass, sweepPass, prune]
          rw [if_neg hEmpty, hRun]
          rfl
        rw [hPass]
        exact ⟨true, g, rfl, .inl ⟨rfl, rfl, rfl, rfl, rfl⟩⟩
      | false =>
        have hPass : pass = sweepGathered signer keys env
            { e with store := (g.swept env).store, wallet := g.wallet, inProgress := true } (g.swept env) := by
          dsimp only [pass, sweepPass, prune]
          rw [if_neg hEmpty, hRun]
          rfl
        rw [hPass]
        exact ⟨false, g, rfl, .inr ⟨rfl, { e with store := (g.swept env).store, wallet := g.wallet, inProgress := true }, _,
          rfl, rfl, rfl, rfl, rfl, rfl, rfl, rfl, rfl, rfl⟩⟩

/-! ## Members and their files -/

theorem batch_reads {revealError : String → Option String} {pruneFails : String → Bool}
    {entries : List (String × StoredEntry)} {g final : Gathered} {panicked : Bool} (hSeen : g.seen = ∅)
    (hBatch : g.batch = [])
    (hRun : gatherEntries signer keys revealError pruneFails entries g = (panicked, final)) :
    ∀ m ∈ final.batch, m.Reads signer := by
  obtain ⟨-, hReads, -⟩ := gatherEntries_induct (P := fun _ g => ∀ m ∈ g.batch, m.Reads signer)
    (fun _ _ _ _ _ _ hReads hStep _ => by
      intro m hm
      rw [hStep.batch, List.mem_append] at hm
      obtain hOld | hNew := hm
      · exact hReads m hOld
      · exact (hStep.reads m hNew).1) (by simp [hBatch]) (by simp [hSeen]) hRun
  exact hReads

theorem foldl_writeEntry_entryAt (write : String × StoredEntry → StoredEntry) (fails : String → Bool)
    (left : List (String × StoredEntry)) (store : SweepStore) (key : String) :
    (left.foldl (fun store e => store.writeEntry e.1 (write e) (fails e.1)) store).entryAt key = store.entryAt key ∧
      (∀ e ∈ left, e.1 = key → fails key = true) ∨
    ∃ e ∈ left, e.1 = key ∧
      (left.foldl (fun store e => store.writeEntry e.1 (write e) (fails e.1)) store).entryAt key = some (write e) := by
  induction left generalizing store with
  | nil => exact .inl ⟨rfl, by simp⟩
  | cons first rest ih =>
    rw [List.foldl_cons]
    obtain ⟨hSame, hFailed⟩ | ⟨e, he, hKey, hEntry⟩ := ih (store.writeEntry first.1 (write first) (fails first.1))
    · rw [hSame, SweepStore.entryAt_writeEntry]
      split_ifs with hHere
      · exact .inr ⟨first, List.mem_cons_self, hHere.1.symm, rfl⟩
      · refine .inl ⟨rfl, List.forall_mem_cons.mpr ⟨?_, hFailed⟩⟩
        rintro rfl
        simpa using hHere
    · exact .inr ⟨e, List.mem_cons_of_mem _ he, hKey, hEntry⟩

/-- A removal of members leaves an entry alone, rewrites it without them, or deletes it when that leaves
nothing. It leaves alone only what has no such member, cannot be read again, or fails to be written. -/
theorem removeMembers_entryAt (env : PassEnv) (store : SweepStore) (poisoned : List BatchMember) (key : String) :
    (removeMembers store env poisoned).entryAt key = store.entryAt key ∧
      (key ∈ env.relisting → (∃ m ∈ poisoned, m.entryKey = key) → ∀ entry, store.entryAt key = some entry →
        env.storeFails .rewriteMembers key = true ∨ env.storeFails .removeDropped key = true) ∨
    ∃ entry, store.entryAt key = some entry ∧ (∃ m ∈ poisoned, m.entryKey = key) ∧
      ((removeMembers store env poisoned).entryAt key = some (removedEntry poisoned entry) ∨
        (removeMembers store env poisoned).entryAt key = none ∧ (removedEntry poisoned entry).descriptors = []) := by
  have hAffected : ∀ e, e ∈ (store.entries env.relisting.dedup).filter (fun e => ∃ m ∈ poisoned, m.entryKey = e.1) ↔
      (e.1 ∈ env.relisting ∧ store.entryAt e.1 = some e.2) ∧ ∃ m ∈ poisoned, m.entryKey = e.1 := by
    intro e
    rw [List.mem_filter, decide_eq_true_eq, SweepStore.mem_entries, List.mem_dedup]
  rw [removeMembers, List.partition_eq_filter_filter]
  dsimp only
  rw [SweepStore.entryAt_removeEntries]
  split_ifs with hEmptied
  · obtain ⟨e, he, hKey⟩ := List.mem_map.mp hEmptied.1
    obtain ⟨hMem, hNone⟩ := List.mem_filter.mp he
    obtain ⟨⟨-, hEntry⟩, hPoisoned⟩ := (hAffected e).mp hMem
    subst hKey
    exact .inr ⟨e.2, hEntry, hPoisoned, .inr ⟨rfl, of_decide_eq_true hNone⟩⟩
  · obtain ⟨hSame, hFailed⟩ | ⟨e, he, hKey, hEntry⟩ := foldl_writeEntry_entryAt
      (fun e => removedEntry poisoned e.2) (env.storeFails .rewriteMembers) _ store key
    · refine .inl ⟨hSame, fun hListed hPoisoned entry hEntry => ?_⟩
      have hMem := (hAffected (key, entry)).mpr ⟨⟨hListed, hEntry⟩, hPoisoned⟩
      by_cases hNone : (removedEntry poisoned entry).descriptors = []
      · right
        by_contra hWritten
        refine hEmptied ⟨List.mem_map.mpr ⟨(key, entry), List.mem_filter.mpr ⟨hMem, ?_⟩, rfl⟩,
          Bool.eq_false_iff.mpr hWritten⟩
        exact decide_eq_true hNone
      · exact .inl (hFailed (key, entry) (List.mem_filter.mpr ⟨hMem, by simpa using hNone⟩) rfl)
    · obtain ⟨⟨-, hCurrent⟩, hPoisoned⟩ := (hAffected e).mp (List.mem_filter.mp he).1
      subst hKey
      exact .inr ⟨e.2, hCurrent, hPoisoned, .inl hEntry⟩

/-- A text that is no poisoned member's stays where it is. -/
theorem removeMembers_holds {store : SweepStore} {poisoned : List BatchMember} {key hex : String}
    (hHolds : store.Holds key hex) (hOther : ∀ m ∈ poisoned, hexStr m.bytes ≠ hex) :
    (removeMembers store env poisoned).Holds key hex := by
  obtain ⟨entry, hEntry, hHex⟩ := hHolds
  have hKept : hex ∈ (removedEntry poisoned entry).descriptors := by
    rw [removedEntry, List.mem_filter]
    exact ⟨hHex, by simpa using hOther⟩
  obtain ⟨hSame, -⟩ | ⟨entry', hEntry', -, hRewritten | ⟨-, hNone⟩⟩ := removeMembers_entryAt env store poisoned key
  · exact ⟨entry, hSame.trans hEntry, hHex⟩
  · cases hEntry.symm.trans hEntry'
    exact ⟨_, hRewritten, hKept⟩
  · cases hEntry.symm.trans hEntry'
    rw [hNone] at hKept
    cases hKept

end

end WalletCore.Sweep
