import WalletCore.Sweep.Words
import WalletCore.Wallet.Spending

/-! # What a subsidized sweep rescues

What reaches the first signature gives the wallet more than it takes from it, pays the rate and leaves the
reserve. What stops before the broadcast leaves the stored outputs and the coins in use alone.
-/

namespace WalletCore.Sweep

open Lib
open Wallet hiding Psbt

namespace Word

section

variable {signer : Signer} {keys : Descriptors} {env : PassEnv} {wallet : OnchainWallet} {reserved : Finset OutPoint}
  {descriptors : List SpendableOutputDescriptor} {destination : Script} {plan : SubsidyPlan} {psbt : SweepPsbt}

/-! ## The steps up to the first signature -/

/-- A plan's base is free of dust, delivers more than the subsidy, and is what the selection was made for. -/
structure Planned (signer : Signer) (descriptors : List SpendableOutputDescriptor) (destination : Script)
    (targetRateSatPerVb : Nat) (candidates : List SubsidyInput) (reserveSats : Nat) (plan : SubsidyPlan) : Prop where
  created : signer.createSpendableOutputsPsbt descriptors destination floorFeerateSatPerKw =
    some (plan.psbt, plan.ldkWeightWu)
  dust_le : ∀ output ∈ plan.psbt.outputs, dustLimitSats ≤ output.value
  selects : Selects ⟨plan.ldkWeightWu, wrapWord (fundedSats plan.psbt) - wrapWord plan.psbt.outputSats,
    targetRateSatPerVb, wrapWord (totalSats candidates) - reserveSats⟩ candidates plan.selection
  outputs_le : wrapWord plan.psbt.outputSats ≤ wrapWord (fundedSats plan.psbt)
  subsidy_lt : plan.selection.subsidySats < wrapWord plan.psbt.outputSats

theorem planSubsidy_ok {targetRateSatPerVb reserveSats : Nat} {candidates : List SubsidyInput}
    (h : planSubsidy signer descriptors destination targetRateSatPerVb candidates reserveSats = .ok plan) :
    Planned signer descriptors destination targetRateSatPerVb candidates reserveSats plan := by
  unfold planSubsidy at h
  split at h
  · cases h
  · next psbt weight hCreate =>
    dsimp only at h
    split_ifs at h with hDust hNegative
    split at h
    · cases h
    · next selection hSelect =>
      split_ifs at h with hUneconomical
      cases h
      constructor
      · exact hCreate
      · intro output hOutput
        by_contra hBelow
        exact hDust (List.any_eq_true.mpr ⟨output, hOutput, decide_eq_true (Nat.lt_of_not_le hBelow)⟩)
      · exact selectSubsidyInputs_selected hSelect
      · exact Nat.le_of_not_lt hNegative
      · exact Nat.lt_of_not_le hUneconomical

theorem verifySubsidized_ok {urgentSatPerKw : Nat} (h : verifySubsidized plan psbt urgentSatPerKw = .ok ()) :
    checkedFee psbt = some plan.selection.totalFeeSats := by
  unfold verifySubsidized at h
  split at h
  · cases h
  · next fee hFee =>
    split_ifs at h with hMismatch
    rw [hFee, not_not.mp hMismatch]

theorem subsidyChange_ok {changeSats : Option Nat} {changeError : Option String} {change : Option TxOut}
    (h : (subsidyChange keys wallet changeSats changeError).1 = .ok change) : change.map (·.value) = changeSats := by
  unfold subsidyChange at h
  split at h
  · cases h
    rfl
  · dsimp only at h
    split at h
    · cases h
    · dsimp only at h
      split at h
      · cases h
      · cases h
        rfl

structure Prepared (signer : Signer) (keys : Descriptors) (env : PassEnv) (wallet : OnchainWallet)
    (reserved : Finset OutPoint) (descriptors : List SpendableOutputDescriptor) (destination : Script)
    (plan : SubsidyPlan) (psbt : SweepPsbt) : Prop where
  planned : Planned signer descriptors destination env.sweepRateSatPerVb
    (confirmedP2wpkhCandidates keys wallet reserved env.coins) env.reserveSats plan
  assembled : ∃ change, (subsidyChange keys wallet plan.selection.changeSats env.changeError).1 = .ok change ∧
    psbt = plan.complete change
  verified : checkedFee psbt = some plan.selection.totalFeeSats

theorem prepareSubsidized_ok
    (h : (prepareSubsidized signer keys env wallet reserved descriptors destination).1 = .ok (plan, psbt)) :
    Prepared signer keys env wallet reserved descriptors destination plan psbt := by
  unfold prepareSubsidized at h
  split at h
  · cases h
  · next planned hPlan =>
    dsimp only at h
    cases hChange : (subsidyChange keys wallet planned.selection.changeSats env.changeError).1 with
    | error outcome =>
      rw [hChange] at h
      cases h
    | ok change =>
      rw [hChange] at h
      cases hVerify : verifySubsidized planned (planned.complete change) env.urgentSatPerKw with
      | error outcome =>
        simp only [Except.bind, Except.map, hVerify] at h
        cases h
      | ok _ =>
        simp only [Except.bind, Except.map, hVerify] at h
        cases h
        exact ⟨planSubsidy_ok hPlan, ⟨change, hChange, rfl⟩, verifySubsidized_ok hVerify⟩

/-! ## What is ready to be signed -/

/-- More comes out for the wallet than it puts in, nothing is dust, what it loses keeps within the coins
less the reserve, and the fee is the one planned; where the weights fit in words it pays the rate. -/
structure Rescues (plan : SubsidyPlan) (psbt : SweepPsbt) (candidates : List SubsidyInput)
    (targetRateSatPerVb reserveSats : Nat) : Prop where
  gains : totalSats plan.selection.selected < plan.psbt.outputSats + plan.selection.changeSats.getD 0
  delivers : psbt.outputSats = plan.psbt.outputSats + plan.selection.changeSats.getD 0
  dust_le : ∀ output ∈ psbt.outputs, dustLimitSats ≤ output.value
  leaves : totalSats plan.selection.selected - plan.selection.changeSats.getD 0 ≤ totalSats candidates - reserveSats
  balances : psbt.outputSats + plan.selection.totalFeeSats = fundedSats plan.psbt + totalSats plan.selection.selected
  pays_rate : WeightFits plan.ldkWeightWu targetRateSatPerVb →
    Sweep.feeForWeight plan.estimatedWeightWu targetRateSatPerVb ≤ plan.selection.totalFeeSats

/-- The fee that was read back is the sum of the base fee and the subsidy, so nothing in it wrapped. -/
theorem Prepared.rescues (h : Prepared signer keys env wallet reserved descriptors destination plan psbt) :
    Rescues plan psbt (confirmedP2wpkhCandidates keys wallet reserved env.coins) env.sweepRateSatPerVb
      env.reserveSats := by
  obtain ⟨⟨-, hDust, hSelects, hOutputsLe, hSubsidy⟩, ⟨change, hChange, rfl⟩, hVerified⟩ := h
  have hValue := subsidyChange_ok hChange
  obtain ⟨-, hFunded, hFee⟩ := checkedFee_eq_some.mp hVerified
  rw [fundedSats_complete] at hFunded hFee
  have hOutputs := outputSats_complete plan change
  rw [hValue] at hOutputs
  have hSum := hSelects.subsidy_add_change
  rw [wrapWord_of_lt (by omega)] at hSum
  have hBaseFunded : wrapWord (fundedSats plan.psbt) = fundedSats plan.psbt := wrapWord_of_lt (by omega)
  have hBaseOutputs : wrapWord plan.psbt.outputSats = plan.psbt.outputSats := wrapWord_of_lt (by omega)
  rw [hBaseOutputs] at hSubsidy
  rw [hBaseOutputs, hBaseFunded] at hOutputsLe
  have hTotal := wrapWord_le (totalSats (confirmedP2wpkhCandidates keys wallet reserved env.coins))
  have hSpendable := hSelects.subsidy_le
  dsimp only at hSpendable
  constructor
  · omega
  · exact hOutputs
  · intro output hOutput
    obtain hBase | hOwn := List.mem_append.mp hOutput
    · exact hDust output hBase
    · apply hSelects.dust_le
      rw [← hValue, Option.mem_toList.mp hOwn]
      rfl
  · omega
  · exact hFee
  · intro hFits
    have hNeeded := hSelects.needed_le
    rw [neededWithChange_eq hFits hSelects.length_le, neededChangeless_eq hFits hSelects.length_le,
      SubsidyTerms.neededWithChange, SubsidyTerms.neededChangeless] at hNeeded
    dsimp only at hNeeded
    rw [hBaseFunded, hBaseOutputs] at hNeeded
    rw [SubsidyPlan.estimatedWeightWu]
    split at hNeeded
    · next hSome =>
      rw [if_pos hSome]
      omega
    · next hNone =>
      rw [if_neg hNone, Nat.add_zero]
      omega

end

/-! ## What stops before the broadcast -/

section

variable (signer : Signer) (keys : Descriptors) (env : PassEnv) (wallet : OnchainWallet) (reserved : Finset OutPoint)
  (descriptors : List SpendableOutputDescriptor) (destination : Script)

def sendSubsidized (e : SweepEngine) (g : Gathered) (batch : List BatchMember) : PassResult :=
  let attempt :=
    attemptSubsidized signer keys env e.wallet e.spentSubsidyOutpoints (batch.map (·.descriptor)) destination
  let e := { e with wallet := attempt.wallet, spentSubsidyOutpoints := attempt.reserved }
  match attempt.outcome with
  | .broadcast txid _ => e.sweptPass env g batch.length txid attempt.submitted
  | .shortfall _ _ shortfallSats => e.failedPass (g.skipped + batch.length) (some shortfallSats) attempt.submitted
  | .notEconomical .. | .failed _ => e.failedPass (g.skipped + batch.length) none attempt.submitted

variable {signer keys env wallet reserved descriptors destination}

theorem planSubsidy_error {targetRateSatPerVb reserveSats sats : Nat} {candidates : List SubsidyInput} {txid : String} :
    planSubsidy signer descriptors destination targetRateSatPerVb candidates reserveSats ≠ .error (.broadcast txid sats) := by
  unfold planSubsidy
  split
  · simp
  · dsimp only
    split_ifs
    · simp
    · simp
    · simp
    · simp
    · split
      · simp
      · split_ifs <;> simp

theorem verifySubsidized_error {plan : SubsidyPlan} {psbt : SweepPsbt} {urgentSatPerKw sats : Nat} {txid : String} :
    verifySubsidized plan psbt urgentSatPerKw ≠ .error (.broadcast txid sats) := by
  unfold verifySubsidized
  split
  · simp
  · split_ifs
    · simp
    · split <;> simp

theorem signSubsidized_error {plan : SubsidyPlan} {psbt : SweepPsbt} {sats : Nat} {txid : String} :
    signSubsidized signer descriptors plan psbt ≠ .error (.broadcast txid sats) := by
  unfold signSubsidized
  split
  · simp
  · split
    · simp
    · simp
    · split_ifs
      · simp
      · split <;> simp

theorem prepareSubsidized_error {sats : Nat} {txid : String} :
    (prepareSubsidized signer keys env wallet reserved descriptors destination).1 ≠ .error (.broadcast txid sats) := by
  unfold prepareSubsidized
  split
  · next outcome hPlan =>
    rintro ⟨⟩
    exact planSubsidy_error hPlan
  · next plan _ =>
    dsimp only
    cases hChange : (subsidyChange keys wallet plan.selection.changeSats env.changeError).1 with
    | error outcome =>
      rintro ⟨⟩
      exact subsidyChange_error hChange
    | ok change =>
      simp only [Except.bind]
      cases hVerify : verifySubsidized plan (plan.complete change) env.urgentSatPerKw with
      | error outcome =>
        rintro ⟨⟩
        exact verifySubsidized_error hVerify
      | ok _ =>
        rintro ⟨⟩

/-- Only a sweep that was handed to the backend counts as broadcast or takes coins into use. -/
theorem attemptSubsidized_unsent
    (h : (attemptSubsidized signer keys env wallet reserved descriptors destination).submitted = none) :
    (attemptSubsidized signer keys env wallet reserved descriptors destination).reserved = reserved ∧
      ∀ txid sats, (attemptSubsidized signer keys env wallet reserved descriptors destination).outcome ≠
        .broadcast txid sats := by
  rw [attemptSubsidized] at h ⊢
  dsimp only at h ⊢
  cases hPrepared : (prepareSubsidized signer keys env wallet reserved descriptors destination).1 with
  | error outcome =>
    constructor
    · rfl
    · rintro txid sats ⟨⟩
      exact prepareSubsidized_error hPrepared
  | ok prepared =>
    obtain ⟨plan, psbt⟩ := prepared
    rw [hPrepared] at h
    dsimp only at h ⊢
    cases hSigned : signSubsidized signer descriptors plan psbt with
    | error outcome =>
      constructor
      · rfl
      · rintro txid sats ⟨⟩
        exact signSubsidized_error hSigned
    | ok tx =>
      rw [hSigned] at h
      dsimp only at h
      split at h <;> cases h

/-- A sweep that was not handed over leaves the engine with the wallet's new change address and the flags
of a failed attempt. -/
theorem sendSubsidized_unsent {e : SweepEngine} {g : Gathered} {batch : List BatchMember}
    (h : (sendSubsidized signer keys env destination e g batch).submitted = none) :
    ∃ wallet shortfallSats, (sendSubsidized signer keys env destination e g batch).engine =
      { e with wallet, store := e.store.setFlags true shortfallSats } := by
  unfold sendSubsidized at h ⊢
  dsimp only at h ⊢
  have hUnsent : (attemptSubsidized signer keys env e.wallet e.spentSubsidyOutpoints (batch.map (·.descriptor))
      destination).submitted = none := by
    split at h <;> exact h
  obtain ⟨hReserved, hOutcome⟩ := attemptSubsidized_unsent hUnsent
  rw [hReserved]
  split
  · next txid sats hBroadcast => exact absurd hBroadcast (hOutcome txid sats)
  · exact ⟨_, _, rfl⟩
  · exact ⟨_, _, rfl⟩
  · exact ⟨_, _, rfl⟩

variable (signer keys env wallet reserved descriptors destination) in
/-- What a sweep brings to the first signature rescues its outputs; what stops before the broadcast changes
neither the coins in use nor, but for the flags of a pass, the stored outputs. -/
theorem subsidized_sweep_rescues :
    (∀ plan psbt, (prepareSubsidized signer keys env wallet reserved descriptors destination).1 = .ok (plan, psbt) →
      Rescues plan psbt (confirmedP2wpkhCandidates keys wallet reserved env.coins) env.sweepRateSatPerVb
        env.reserveSats) ∧
    ((attemptSubsidized signer keys env wallet reserved descriptors destination).submitted = none →
      (attemptSubsidized signer keys env wallet reserved descriptors destination).reserved = reserved) ∧
    ∀ e g batch, (sendSubsidized signer keys env destination e g batch).submitted = none →
      ∃ wallet shortfallSats, (sendSubsidized signer keys env destination e g batch).engine =
        { e with wallet, store := e.store.setFlags true shortfallSats } := by
  constructor
  · intro plan psbt h
    exact (prepareSubsidized_ok h).rescues
  · constructor
    · intro h
      exact (attemptSubsidized_unsent h).1
    · intro e g batch h
      exact sendSubsidized_unsent h

end

/-! ## One rescue, and one whose weight wraps -/

def demoSelection : SubsidySelection := ⟨[.ofCoin (demoCoinAt 0)], some 59010, 1990, 990⟩

def demoPlan (ldkWeightWu : Nat) (selection : SubsidySelection) : SubsidyPlan where
  psbt := ⟨[⟨⟨"closed", 0⟩, 144, some ⟨100000, [1]⟩⟩], [⟨99000, [7]⟩]⟩
  ldkWeightWu := ldkWeightWu
  selection := selection

def demoChange (sats : Nat) : TxOut := ⟨sats, demoPrograms.spk .internal 0⟩

theorem rescue_with_one_coin :
    Rescues (demoPlan 400 demoSelection) ((demoPlan 400 demoSelection).complete (some (demoChange 59010)))
      [.ofCoin (demoCoinAt 0), .ofCoin (demoCoinAt 1)] 10 0 ∧
    Sweep.feeForWeight (demoPlan 400 demoSelection).estimatedWeightWu 10 ≤ 1990 := by
  have hPrepared : (prepareSubsidized demoSigner demoPrograms demoSubsidyEnv demoWindow.wallet ∅ [demoClosed] [7]).1 =
      .ok (demoPlan 400 demoSelection, (demoPlan 400 demoSelection).complete (some (demoChange 59010))) := by
    rw [prepareSubsidized, demoWindow_candidates]
    rfl
  have hRescues := (subsidized_sweep_rescues demoSigner demoPrograms demoSubsidyEnv demoWindow.wallet ∅ [demoClosed]
    [7]).1 _ _ hPrepared
  rw [demoWindow_candidates] at hRescues
  exact ⟨hRescues, hRescues.pays_rate ⟨by decide, by decide⟩⟩

/-- A base of half a word's weight. -/
def heavySigner : Signer :=
  { demoSigner with
    createSpendableOutputsPsbt descriptors destination rate :=
      (demoSigner.createSpendableOutputsPsbt descriptors destination rate).map fun base => (base.1, 2 ^ 63 + 400) }

def heavyEnv : PassEnv := { demoSubsidyEnv with sendRateSatPerVb := 8 }

def heavyPlan : SubsidyPlan := demoPlan (2 ^ 63 + 400) ⟨[.ofCoin (demoCoinAt 0)], some 59408, 1592, 592⟩

theorem heavy_sweep_underpays :
    (prepareSubsidized heavySigner demoPrograms heavyEnv demoWindow.wallet ∅ [demoClosed] [7]).1 =
      .ok (heavyPlan, heavyPlan.complete (some (demoChange 59408))) ∧
    heavyPlan.selection.totalFeeSats < Sweep.feeForWeight heavyPlan.estimatedWeightWu heavyEnv.sweepRateSatPerVb := by
  constructor
  · have hCandidates : confirmedP2wpkhCandidates demoPrograms demoWindow.wallet ∅ heavyEnv.coins =
        [.ofCoin (demoCoinAt 0), .ofCoin (demoCoinAt 1)] := demoWindow_candidates
    rw [prepareSubsidized, hCandidates]
    rfl
  · decide

end Word

end WalletCore.Sweep
