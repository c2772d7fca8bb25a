import WalletCore.Sweep.Pass

/-! # The subsidy in machine words

Weights, fees and sums of coins are words of 64 bits, and what does not fit in one wraps. The selection
in words is the exact one where the largest weight, its fee and the largest sum fit, and so is an attempt.
-/

namespace WalletCore.Sweep

open Wallet hiding Psbt

def wrapWord (n : Nat) : Nat := n % 2 ^ 64

theorem wrapWord_of_lt {n : Nat} (h : n < 2 ^ 64) : wrapWord n = n := Nat.mod_eq_of_lt h

theorem wrapWord_le (n : Nat) : wrapWord n ≤ n := Nat.mod_le _ _

namespace Word

/-! ## Selection -/

def feeForWeight (weightWu rateSatPerVb : Nat) : Nat := wrapWord ((weightWu + 3) / 4 * rateSatPerVb)

section

variable (terms : SubsidyTerms)

def neededWithChange (n : Nat) : Nat :=
  feeForWeight (wrapWord (terms.ldkWeightWu + n * subsidyInputWeightWu + changeOutputWeightWu)) terms.targetRateSatPerVb -
    terms.ldkFeeSats

def neededChangeless (n : Nat) : Nat :=
  feeForWeight (wrapWord (terms.ldkWeightWu + n * subsidyInputWeightWu)) terms.targetRateSatPerVb - terms.ldkFeeSats

def shortfall (selected : List SubsidyInput) : SelectionOutcome :=
  .shortfall (neededWithChange terms (max selected.length 1)) terms.spendable

def select : List SubsidyInput → List SubsidyInput → Nat → SelectionOutcome
  | [], selected, _ => shortfall terms selected
  | utxo :: rest, selected, selectedSum =>
    if maxSubsidyInputs ≤ selected.length then shortfall terms selected
    else
      let selected := selected ++ [utxo]
      let selectedSum := wrapWord (selectedSum + utxo.valueSats)
      let needed := neededWithChange terms selected.length
      if needed ≤ terms.spendable ∧ needed ≤ selectedSum ∧ dustLimitSats ≤ selectedSum - needed then
        .selected ⟨selected, some (selectedSum - needed), wrapWord (terms.ldkFeeSats + needed), needed⟩
      else if neededChangeless terms selected.length ≤ selectedSum ∧ selectedSum ≤ terms.spendable then
        .selected ⟨selected, none, wrapWord (terms.ldkFeeSats + selectedSum), selectedSum⟩
      else if terms.spendable < needed ∧ terms.spendable < selectedSum then shortfall terms selected
      else select rest selected selectedSum

end

def selectSubsidyInputs (candidates : List SubsidyInput) (ldkWeightWu ldkFeeSats targetRateSatPerVb reserveSats : Nat) :
    SelectionOutcome :=
  let terms := ⟨ldkWeightWu, ldkFeeSats, targetRateSatPerVb, wrapWord (totalSats candidates) - reserveSats⟩
  select terms candidates [] 0

/-! ## What is selected -/

/-- What holds of a selection whatever wraps on the way. -/
structure Selects (terms : SubsidyTerms) (candidates : List SubsidyInput) (s : SubsidySelection) : Prop where
  fromFront : s.selected <+: candidates
  length_pos : 0 < s.selected.length
  length_le : s.selected.length ≤ maxSubsidyInputs
  subsidy_add_change : s.subsidySats + s.changeSats.getD 0 = wrapWord (totalSats s.selected)
  subsidy_le : s.subsidySats ≤ terms.spendable
  totalFee : s.totalFeeSats = wrapWord (terms.ldkFeeSats + s.subsidySats)
  needed_le : (if s.changeSats.isSome then neededWithChange terms s.selected.length
    else neededChangeless terms s.selected.length) ≤ s.subsidySats
  dust_le : ∀ sats ∈ s.changeSats, dustLimitSats ≤ sats
  changeless : s.changeSats = none → s.subsidySats < neededWithChange terms s.selected.length + dustLimitSats

theorem wrapWord_add (n m : Nat) : wrapWord (wrapWord n + m) = wrapWord (n + m) := Nat.mod_add_mod _ _ _

theorem totalSats_snoc (selected : List SubsidyInput) (utxo : SubsidyInput) :
    totalSats (selected ++ [utxo]) = totalSats selected + utxo.valueSats := by
  rw [totalSats_append]
  rfl

theorem totalSats_le_of_prefix {front candidates : List SubsidyInput} (h : front <+: candidates) :
    totalSats front ≤ totalSats candidates := by
  obtain ⟨rest, rfl⟩ := h
  rw [totalSats_append]
  omega

theorem select_selected {terms : SubsidyTerms} {candidates selected : List SubsidyInput} {s : SubsidySelection}
    (h : select terms candidates selected (wrapWord (totalSats selected)) = .selected s) :
    Selects terms (selected ++ candidates) s := by
  induction candidates generalizing selected with
  | nil => cases h
  | cons utxo rest ih =>
    have hSum : wrapWord (wrapWord (totalSats selected) + utxo.valueSats) = wrapWord (totalSats (selected ++ [utxo])) := by
      rw [wrapWord_add, totalSats_snoc]
    have hSplit : selected ++ utxo :: rest = selected ++ [utxo] ++ rest := by
      rw [List.append_assoc]
      rfl
    have hPrefix : selected ++ [utxo] <+: selected ++ utxo :: rest := hSplit ▸ List.prefix_append _ _
    have hLength : (selected ++ [utxo]).length = selected.length + 1 := by
      rw [List.length_append, List.length_singleton]
    simp only [select, hSum] at h
    split at h
    · cases h
    · next hRoom =>
      split at h
      · next hChange =>
        cases h
        constructor
        · exact hPrefix
        · dsimp only
          omega
        · dsimp only
          omega
        · exact Nat.add_sub_cancel' hChange.2.1
        · exact hChange.1
        · rfl
        · exact Nat.le_refl _
        · rintro _ ⟨⟩
          exact hChange.2.2
        · intro hNone
          cases hNone
      · next hNoChange =>
        split at h
        · next hDrained =>
          cases h
          constructor
          · exact hPrefix
          · dsimp only
            omega
          · dsimp only
            omega
          · rfl
          · exact hDrained.2
          · rfl
          · exact hDrained.1
          · rintro _ ⟨⟩
          · intro _
            dsimp only
            omega
        · split at h
          · cases h
          · rw [hSplit]
            exact ih h

theorem selectSubsidyInputs_selected {candidates : List SubsidyInput}
    {ldkWeightWu ldkFeeSats targetRateSatPerVb reserveSats : Nat} {s : SubsidySelection}
    (h : selectSubsidyInputs candidates ldkWeightWu ldkFeeSats targetRateSatPerVb reserveSats = .selected s) :
    Selects ⟨ldkWeightWu, ldkFeeSats, targetRateSatPerVb, wrapWord (totalSats candidates) - reserveSats⟩ candidates s :=
  select_selected h

/-! ## Where nothing wraps -/

/-- Every weight up to the largest selection with change fits, and so does its fee. -/
structure WeightFits (ldkWeightWu targetRateSatPerVb : Nat) : Prop where
  weight : ldkWeightWu + maxSubsidyInputs * subsidyInputWeightWu + changeOutputWeightWu < 2 ^ 64
  fee : Sweep.feeForWeight (ldkWeightWu + maxSubsidyInputs * subsidyInputWeightWu + changeOutputWeightWu)
    targetRateSatPerVb < 2 ^ 64

theorem feeForWeight_mono {first second : Nat} (h : first ≤ second) (rateSatPerVb : Nat) :
    Sweep.feeForWeight first rateSatPerVb ≤ Sweep.feeForWeight second rateSatPerVb :=
  Nat.mul_le_mul_right _ (Nat.div_le_div_right (by omega))

theorem WeightFits.exact {ldkWeightWu targetRateSatPerVb weightWu : Nat} (hFits : WeightFits ldkWeightWu targetRateSatPerVb)
    (h : weightWu ≤ ldkWeightWu + maxSubsidyInputs * subsidyInputWeightWu + changeOutputWeightWu) :
    feeForWeight (wrapWord weightWu) targetRateSatPerVb = Sweep.feeForWeight weightWu targetRateSatPerVb := by
  rw [wrapWord_of_lt (h.trans_lt hFits.weight)]
  exact wrapWord_of_lt ((feeForWeight_mono h _).trans_lt hFits.fee)

section

variable {terms : SubsidyTerms} {n : Nat}

theorem neededWithChange_eq (hFits : WeightFits terms.ldkWeightWu terms.targetRateSatPerVb) (hn : n ≤ maxSubsidyInputs) :
    neededWithChange terms n = terms.neededWithChange n := by
  have hInputs := Nat.mul_le_mul_right subsidyInputWeightWu hn
  rw [neededWithChange, hFits.exact (by omega)]
  rfl

theorem neededChangeless_eq (hFits : WeightFits terms.ldkWeightWu terms.targetRateSatPerVb) (hn : n ≤ maxSubsidyInputs) :
    neededChangeless terms n = terms.neededChangeless n := by
  have hInputs := Nat.mul_le_mul_right subsidyInputWeightWu hn
  rw [neededChangeless, hFits.exact (by omega)]
  rfl

theorem shortfall_eq (hFits : WeightFits terms.ldkWeightWu terms.targetRateSatPerVb) {selected : List SubsidyInput}
    (hLength : selected.length ≤ maxSubsidyInputs) : shortfall terms selected = terms.shortfall selected := by
  have hMax : max selected.length 1 ≤ maxSubsidyInputs := Nat.max_le.mpr ⟨hLength, by decide⟩
  rw [shortfall, neededWithChange_eq hFits hMax]
  rfl

/-- With change the fee is what the weight asks for or what was paid already, so only the sum of the coins
can push it over. -/
theorem select_eq (hFits : WeightFits terms.ldkWeightWu terms.targetRateSatPerVb)
    {candidates selected : List SubsidyInput} (hLength : selected.length ≤ maxSubsidyInputs)
    (hTotal : terms.ldkFeeSats + totalSats (selected ++ candidates) < 2 ^ 64) :
    select terms candidates selected (totalSats selected) = terms.select candidates selected (totalSats selected) := by
  induction candidates generalizing selected with
  | nil => exact shortfall_eq hFits hLength
  | cons utxo rest ih =>
    have hSplit : selected ++ utxo :: rest = selected ++ [utxo] ++ rest := by
      rw [List.append_assoc]
      rfl
    rw [hSplit, totalSats_append] at hTotal
    have hSum : totalSats selected + utxo.valueSats = totalSats (selected ++ [utxo]) := (totalSats_snoc _ _).symm
    have hWord : wrapWord (totalSats selected + utxo.valueSats) = totalSats (selected ++ [utxo]) := by
      rw [hSum]
      exact wrapWord_of_lt (by omega)
    rw [select, SubsidyTerms.select, shortfall_eq hFits hLength]
    dsimp only
    rw [hWord, hSum]
    split
    · rfl
    · next hRoom =>
      have hNext : (selected ++ [utxo]).length ≤ maxSubsidyInputs := by
        rw [List.length_append, List.length_singleton]
        omega
      rw [neededWithChange_eq hFits hNext, neededChangeless_eq hFits hNext, shortfall_eq hFits hNext]
      split
      · next hChange => rw [wrapWord_of_lt (by omega)]
      · split
        · rw [wrapWord_of_lt (by omega)]
        · split
          · rfl
          · exact ih hNext (by rw [totalSats_append]; exact hTotal)

end

theorem selectSubsidyInputs_eq {candidates : List SubsidyInput}
    {ldkWeightWu ldkFeeSats targetRateSatPerVb reserveSats : Nat} (hFits : WeightFits ldkWeightWu targetRateSatPerVb)
    (hTotal : ldkFeeSats + totalSats candidates < 2 ^ 64) :
    selectSubsidyInputs candidates ldkWeightWu ldkFeeSats targetRateSatPerVb reserveSats =
      Sweep.selectSubsidyInputs candidates ldkWeightWu ldkFeeSats targetRateSatPerVb reserveSats := by
  rw [selectSubsidyInputs, wrapWord_of_lt (by omega)]
  exact select_eq hFits (Nat.zero_le _) hTotal

/-! ## The attempt -/

/-- The library adds up with a check. -/
def checkedFee (psbt : SweepPsbt) : Option Nat := do
  let funding ← psbt.inputs.mapM (·.witnessUtxo)
  let inputSats := (funding.map (·.value)).sum
  if inputSats < 2 ^ 64 ∧ psbt.outputSats < 2 ^ 64 ∧ psbt.outputSats ≤ inputSats then some (inputSats - psbt.outputSats)
  else none

section

variable (signer : Signer)

def planSubsidy (descriptors : List SpendableOutputDescriptor) (destination : Script) (targetRateSatPerVb : Nat)
    (candidates : List SubsidyInput) (reserveSats : Nat) : Except SubsidizedOutcome SubsidyPlan :=
  match signer.createSpendableOutputsPsbt descriptors destination floorFeerateSatPerKw with
  | none => .error (.failed .ldkCreatePsbt)
  | some (psbt, ldkWeightWu) =>
    let ldkInputSats := wrapWord (psbt.inputs.filterMap fun input => input.witnessUtxo.map (·.value)).sum
    let ldkOutputSats := wrapWord psbt.outputSats
    let ldkFeeSats := ldkInputSats - ldkOutputSats
    let minimumSubsidy := feeForWeight (wrapWord (ldkWeightWu + subsidyInputWeightWu + changeOutputWeightWu))
      targetRateSatPerVb - ldkFeeSats
    if psbt.outputs.any (·.value < dustLimitSats) then .error (.failed .subDustOutput)
    else if ldkInputSats < ldkOutputSats then .error (.failed .negativeLdkFee)
    else if minimumSubsidy = 0 then .error (.failed .noSubsidyNeeded)
    else if ldkOutputSats ≤ minimumSubsidy then .error (.notEconomical minimumSubsidy ldkInputSats)
    else
      match selectSubsidyInputs candidates ldkWeightWu ldkFeeSats targetRateSatPerVb reserveSats with
      | .shortfall needed available => .error (.shortfall needed available (max (needed - available) 1))
      | .selected selection =>
        if ldkOutputSats ≤ selection.subsidySats then .error (.notEconomical selection.subsidySats ldkInputSats)
        else .ok ⟨psbt, ldkWeightWu, selection⟩

/-- The two checks between the assembly and the first signature. -/
def verifySubsidized (plan : SubsidyPlan) (psbt : SweepPsbt) (urgentSatPerKw : Nat) : Except SubsidizedOutcome Unit :=
  match checkedFee psbt with
  | none => .error (.failed .feeUnreadable)
  | some fee =>
    if fee ≠ plan.selection.totalFeeSats then .error (.failed .feeMismatch)
    else
      match checkFeeSanity plan.selection.totalFeeSats (wrapWord plan.estimatedWeightWu)
          (feeSanityMaxSatPerKw urgentSatPerKw) with
      | .error e => .error (.failed (.feeSanity e))
      | .ok () => .ok ()

/-- Everything up to the first signature. -/
def prepareSubsidized (keys : Descriptors) (env : PassEnv) (wallet : OnchainWallet) (reserved : Finset OutPoint)
    (descriptors : List SpendableOutputDescriptor) (destination : Script) :
    Except SubsidizedOutcome (SubsidyPlan × SweepPsbt) × OnchainWallet :=
  match planSubsidy signer descriptors destination env.sweepRateSatPerVb
      (confirmedP2wpkhCandidates keys wallet reserved env.coins) env.reserveSats with
  | .error outcome => (.error outcome, wallet)
  | .ok plan =>
    let (change, wallet) := subsidyChange keys wallet plan.selection.changeSats env.changeError
    (change.bind fun change =>
      (verifySubsidized plan (plan.complete change) env.urgentSatPerKw).map fun _ => (plan, plan.complete change), wallet)

def signSubsidized (descriptors : List SpendableOutputDescriptor) (plan : SubsidyPlan) (psbt : SweepPsbt) :
    Except SubsidizedOutcome Transaction :=
  match signer.signSpendableOutputsPsbt descriptors psbt with
  | none => .error (.failed .ldkSign)
  | some psbt =>
    match signer.signPsbtTrusted psbt with
    | .error detail => .error (.failed (.bdkSign detail))
    | .ok (false, _) => .error (.failed .bdkSignIncomplete)
    | .ok (true, psbt) =>
      if checkedFee psbt ≠ some plan.selection.totalFeeSats then .error (.failed .postSignFeeMismatch)
      else
        match signer.extractTx psbt with
        | none => .error (.failed .extractTx)
        | some tx => .ok tx

def attemptSubsidized (keys : Descriptors) (env : PassEnv) (wallet : OnchainWallet) (reserved : Finset OutPoint)
    (descriptors : List SpendableOutputDescriptor) (destination : Script) : SubsidizedAttempt :=
  let (prepared, wallet) := prepareSubsidized signer keys env wallet reserved descriptors destination
  match prepared with
  | .error outcome => ⟨outcome, wallet, reserved, none⟩
  | .ok (plan, psbt) =>
    match signSubsidized signer descriptors plan psbt with
    | .error outcome => ⟨outcome, wallet, reserved, none⟩
    | .ok tx =>
      match confirmSubsidized env tx with
      | .error reason => ⟨.failed reason, wallet, reserved, some tx⟩
      | .ok () =>
        { outcome := .broadcast tx.txid plan.selection.subsidySats
          wallet := (wallet.applyUnconfirmedTx tx env.registerError).2
          reserved := reserved ∪ (plan.selection.selected.map (·.outpoint)).toFinset
          submitted := some tx }

end

/-! ## Fees read back -/

/-- What the inputs are known to bring. -/
def fundedSats (psbt : SweepPsbt) : Nat := (psbt.inputs.filterMap fun input => input.witnessUtxo.map (·.value)).sum

theorem mapM_witnessUtxo {inputs : List PsbtInput} {funding : List TxOut} :
    inputs.mapM (·.witnessUtxo) = some funding ↔
      (∀ input ∈ inputs, input.witnessUtxo.isSome = true) ∧ inputs.filterMap (·.witnessUtxo) = funding := by
  induction inputs generalizing funding with
  | nil => simp
  | cons input rest ih =>
    rw [List.mapM_cons]
    cases hInput : input.witnessUtxo with
    | none => simp [hInput]
    | some utxo =>
      cases hRest : rest.mapM (·.witnessUtxo) with
      | none =>
        apply iff_of_false
        · rintro ⟨⟩
        · rintro ⟨hAll, -⟩
          have hSome := ih.mpr ⟨fun other hOther => hAll other (List.mem_cons_of_mem _ hOther), rfl⟩
          rw [hRest] at hSome
          cases hSome
      | some others =>
        obtain ⟨hAll, hOthers⟩ := ih.mp hRest
        simp only [List.mem_cons, forall_eq_or_imp, hInput, Option.isSome_some, List.filterMap_cons_some hInput, hOthers,
          true_and]
        constructor
        · rintro ⟨⟩
          exact ⟨hAll, rfl⟩
        · rintro ⟨-, rfl⟩
          rfl

theorem sum_witnessUtxo (psbt : SweepPsbt) :
    ((psbt.inputs.filterMap (·.witnessUtxo)).map (·.value)).sum = fundedSats psbt := by
  rw [fundedSats, List.map_filterMap]

theorem checkedFee_eq_some {psbt : SweepPsbt} {fee : Nat} :
    checkedFee psbt = some fee ↔ (∀ input ∈ psbt.inputs, input.witnessUtxo.isSome = true) ∧
      fundedSats psbt < 2 ^ 64 ∧ psbt.outputSats + fee = fundedSats psbt := by
  simp only [checkedFee, Option.bind_eq_bind, Option.bind_eq_some_iff, mapM_witnessUtxo]
  constructor
  · rintro ⟨_, ⟨hAll, rfl⟩, h⟩
    rw [sum_witnessUtxo] at h
    split at h
    · next hFits =>
      cases h
      exact ⟨hAll, hFits.1, by omega⟩
    · cases h
  · rintro ⟨hAll, hFits, hFee⟩
    refine ⟨_, ⟨hAll, rfl⟩, ?_⟩
    rw [sum_witnessUtxo, if_pos ⟨hFits, by omega, by omega⟩, ← hFee, Nat.add_sub_cancel_left]

theorem fee_eq_some {psbt : SweepPsbt} {fee : Nat} :
    psbt.fee = some fee ↔ (∀ input ∈ psbt.inputs, input.witnessUtxo.isSome = true) ∧
      psbt.outputSats + fee = fundedSats psbt := by
  simp only [SweepPsbt.fee, Option.bind_eq_bind, Option.bind_eq_some_iff, mapM_witnessUtxo]
  constructor
  · rintro ⟨_, ⟨hAll, rfl⟩, h⟩
    rw [sum_witnessUtxo] at h
    split at h
    · cases h
      exact ⟨hAll, by omega⟩
    · cases h
  · rintro ⟨hAll, hFee⟩
    refine ⟨_, ⟨hAll, rfl⟩, ?_⟩
    rw [sum_witnessUtxo, if_pos (by omega), ← hFee, Nat.add_sub_cancel_left]

theorem checkedFee_eq {psbt : SweepPsbt} (h : fundedSats psbt < 2 ^ 64) : checkedFee psbt = psbt.fee := by
  apply Option.ext
  intro fee
  rw [checkedFee_eq_some, fee_eq_some]
  simp only [h, true_and]

section

variable (plan : SubsidyPlan) (change : Option TxOut)

theorem fundedSats_complete :
    fundedSats (plan.complete change) = fundedSats plan.psbt + totalSats plan.selection.selected := by
  simp only [fundedSats, SubsidyPlan.complete, List.filterMap_append, List.sum_append, List.filterMap_map, totalSats]
  congr 1
  rw [← List.filterMap_eq_map]
  rfl

theorem outputSats_complete :
    (plan.complete change).outputSats = plan.psbt.outputSats + (change.map (·.value)).getD 0 := by
  rw [SweepPsbt.outputSats, SubsidyPlan.complete, List.map_append, List.sum_append]
  cases change <;> rfl

theorem isSome_complete : (∀ input ∈ (plan.complete change).inputs, input.witnessUtxo.isSome = true) ↔
    ∀ input ∈ plan.psbt.inputs, input.witnessUtxo.isSome = true := by
  constructor
  · intro h input hInput
    exact h input (List.mem_append_left _ hInput)
  · intro h input hInput
    obtain hInput | hInput := List.mem_append.mp hInput
    · exact h input hInput
    · obtain ⟨selected, -, rfl⟩ := List.mem_map.mp hInput
      rfl

end

/-! ## An attempt where nothing wraps -/

theorem estimatedWeightWu_le {plan : SubsidyPlan} (hLength : plan.selection.selected.length ≤ maxSubsidyInputs) :
    plan.estimatedWeightWu ≤ plan.ldkWeightWu + maxSubsidyInputs * subsidyInputWeightWu + changeOutputWeightWu := by
  have hInputs := Nat.mul_le_mul_right subsidyInputWeightWu hLength
  rw [SubsidyPlan.estimatedWeightWu]
  split <;> omega

/-- The amounts of a base transaction and of the coins beside it stay within words. -/
structure BaseFits (psbt : SweepPsbt) (ldkWeightWu targetRateSatPerVb : Nat) (candidates : List SubsidyInput) : Prop where
  weight : WeightFits ldkWeightWu targetRateSatPerVb
  funded : fundedSats psbt + totalSats candidates < 2 ^ 64
  outputs : psbt.outputSats < 2 ^ 64

section

variable {signer : Signer} {descriptors : List SpendableOutputDescriptor} {destination : Script}
  {targetRateSatPerVb reserveSats : Nat} {candidates : List SubsidyInput}

theorem planSubsidy_eq (hFits : ∀ psbt ldkWeightWu,
      signer.createSpendableOutputsPsbt descriptors destination floorFeerateSatPerKw = some (psbt, ldkWeightWu) →
      BaseFits psbt ldkWeightWu targetRateSatPerVb candidates) :
    planSubsidy signer descriptors destination targetRateSatPerVb candidates reserveSats =
      Sweep.planSubsidy signer descriptors destination targetRateSatPerVb candidates reserveSats := by
  rw [planSubsidy, Sweep.planSubsidy]
  cases hCreate : signer.createSpendableOutputsPsbt descriptors destination floorFeerateSatPerKw with
  | none => rfl
  | some base =>
    obtain ⟨psbt, ldkWeightWu⟩ := base
    obtain ⟨hWeight, hFunded, hOutputs⟩ := hFits psbt ldkWeightWu hCreate
    have hMinimum : feeForWeight (wrapWord (ldkWeightWu + subsidyInputWeightWu + changeOutputWeightWu)) targetRateSatPerVb =
        Sweep.feeForWeight (ldkWeightWu + subsidyInputWeightWu + changeOutputWeightWu) targetRateSatPerVb :=
      hWeight.exact (by simp only [maxSubsidyInputs]; omega)
    have hInputs : wrapWord (fundedSats psbt) = fundedSats psbt := wrapWord_of_lt (by omega)
    rw [fundedSats] at hInputs hFunded
    dsimp only
    rewrite [hInputs, wrapWord_of_lt hOutputs, hMinimum, selectSubsidyInputs_eq hWeight (by omega)]
    rfl

/-- After both signatures the fee is the same as before or refused, so it fits in a word again. -/
theorem verify_sign_eq {plan : SubsidyPlan} {change : Option TxOut} {urgentSatPerKw : Nat} (hLawful : signer.Lawful)
    (hWeight : plan.estimatedWeightWu < 2 ^ 64) (hFunded : fundedSats (plan.complete change) < 2 ^ 64) :
    ((verifySubsidized plan (plan.complete change) urgentSatPerKw).bind fun _ =>
        signSubsidized signer descriptors plan (plan.complete change)) =
      Sweep.signSubsidized signer descriptors plan change urgentSatPerKw := by
  rw [verifySubsidized, Sweep.signSubsidized, checkedFee_eq hFunded, wrapWord_of_lt hWeight]
  cases hFee : (plan.complete change).fee with
  | none => rfl
  | some fee =>
    dsimp only
    by_cases hMismatch : fee ≠ plan.selection.totalFeeSats
    · rw [if_pos hMismatch, if_pos hMismatch]
      rfl
    · rw [if_neg hMismatch, if_neg hMismatch]
      rw [not_not] at hMismatch
      subst hMismatch
      have hComplete := (fee_eq_some.mp hFee).2
      cases checkFeeSanity plan.selection.totalFeeSats plan.estimatedWeightWu (feeSanityMaxSatPerKw urgentSatPerKw) with
      | error e => rfl
      | ok _ =>
        change signSubsidized signer descriptors plan (plan.complete change) = _
        rw [signSubsidized]
        cases hSigned : signer.signSpendableOutputsPsbt descriptors (plan.complete change) with
        | none => rfl
        | some signed =>
          dsimp only
          rcases hFinal : signer.signPsbtTrusted signed with detail | ⟨_ | _, final⟩
          · rfl
          · rfl
          · have hOutputs : final.outputSats = (plan.complete change).outputSats := by
              rw [SweepPsbt.outputSats, (hLawful.signsTrusted hFinal).2, (hLawful.signs hSigned).2]
              rfl
            have hSame : checkedFee final = some plan.selection.totalFeeSats ↔
                final.fee = some plan.selection.totalFeeSats := by
              rw [checkedFee_eq_some, fee_eq_some, hOutputs]
              constructor
              · rintro ⟨hAll, -, hSum⟩
                exact ⟨hAll, hSum⟩
              · rintro ⟨hAll, hSum⟩
                exact ⟨hAll, by omega, hSum⟩
            exact if_congr (not_congr hSame) rfl rfl

theorem attemptSubsidized_eq {keys : Descriptors} {env : PassEnv} {wallet : OnchainWallet} {reserved : Finset OutPoint}
    (hLawful : signer.Lawful) (hFits : ∀ psbt ldkWeightWu,
      signer.createSpendableOutputsPsbt descriptors destination floorFeerateSatPerKw = some (psbt, ldkWeightWu) →
      BaseFits psbt ldkWeightWu env.sweepRateSatPerVb (confirmedP2wpkhCandidates keys wallet reserved env.coins)) :
    attemptSubsidized signer keys env wallet reserved descriptors destination =
      Sweep.attemptSubsidized signer keys env wallet reserved descriptors destination := by
  rw [attemptSubsidized, prepareSubsidized, Sweep.attemptSubsidized, planSubsidy_eq hFits]
  cases hPlan : Sweep.planSubsidy signer descriptors destination env.sweepRateSatPerVb
      (confirmedP2wpkhCandidates keys wallet reserved env.coins) env.reserveSats with
  | error outcome => rfl
  | ok plan =>
    obtain ⟨hCreate, ldkFeeSats, hSelect⟩ := planSubsidy_ok hPlan
    obtain ⟨hWeight, hFunded, -⟩ := hFits _ _ hCreate
    have hSound := selectSubsidyInputs_sound hSelect
    dsimp only
    cases hChange : (subsidyChange keys wallet plan.selection.changeSats env.changeError).1 with
    | error outcome => rfl
    | ok change =>
      have hSelected : totalSats plan.selection.selected ≤
          totalSats (confirmedP2wpkhCandidates keys wallet reserved env.coins) :=
        totalSats_le_of_prefix hSound.fromFront
      have hSigned : ((verifySubsidized plan (plan.complete change) env.urgentSatPerKw).bind fun _ =>
          signSubsidized signer descriptors plan (plan.complete change)) =
            Sweep.signSubsidized signer descriptors plan change env.urgentSatPerKw := by
        apply verify_sign_eq hLawful
        · exact (estimatedWeightWu_le hSound.length_le).trans_lt hWeight.weight
        · rw [fundedSats_complete]
          omega
      simp only [Except.bind] at hSigned ⊢
      rw [← hSigned]
      cases verifySubsidized plan (plan.complete change) env.urgentSatPerKw with
      | error outcome => rfl
      | ok _ => rfl

end

end Word

end WalletCore.Sweep
