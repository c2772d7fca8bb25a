import Mathlib.Data.List.Perm.Subperm
import WalletCore.Sweep.Words

/-! # What a subsidy selection finds

A selection pays for itself and for nothing else. Where there is none, no front of the candidates pays
either way, and no other choice of them pays with change: of as many coins the front ones are worth most.
-/

namespace WalletCore.Sweep

open Wallet hiding Psbt

/-! ## The front of a descending list -/

theorem sum_take_succ_le {values : List Nat} {bound : Nat} (hBound : ∀ value ∈ values, value ≤ bound) (k : Nat) :
    (values.take (k + 1)).sum ≤ bound + (values.take k).sum := by
  rw [List.take_add_one, List.sum_append, Nat.add_comm]
  apply Nat.add_le_add_right
  cases hValue : values[k]? with
  | none => exact Nat.zero_le _
  | some value =>
    rw [Option.toList_some, List.sum_singleton]
    exact hBound value (List.mem_of_getElem? hValue)

theorem sum_le_sum_take {values chosen : List Nat} (hSorted : values.Pairwise fun a b => b ≤ a) (h : chosen.Sublist values) :
    chosen.sum ≤ (values.take chosen.length).sum := by
  induction h with
  | slnil => exact Nat.le_refl _
  | @cons chosen values value _ ih =>
    obtain ⟨hFirst, hRest⟩ := List.pairwise_cons.mp hSorted
    cases chosen with
    | nil => exact Nat.zero_le _
    | cons first others =>
      calc (first :: others).sum
        _ ≤ (values.take (others.length + 1)).sum := ih hRest
        _ ≤ value + (values.take others.length).sum := sum_take_succ_le hFirst _
        _ = ((value :: values).take (others.length + 1)).sum := by rw [List.take_succ_cons, List.sum_cons]
  | cons_cons value _ ih =>
    rw [List.length_cons, List.take_succ_cons, List.sum_cons, List.sum_cons]
    exact Nat.add_le_add_left (ih (List.pairwise_cons.mp hSorted).2) _

theorem totalSats_le_take {candidates chosen : List SubsidyInput}
    (hSorted : candidates.Pairwise fun first second => second.valueSats ≤ first.valueSats)
    (h : chosen.Subperm candidates) : totalSats chosen ≤ totalSats (candidates.take chosen.length) := by
  obtain ⟨picked, hPerm, hSublist⟩ := h
  have hFront := sum_le_sum_take (List.pairwise_map.mpr hSorted) (hSublist.map (·.valueSats))
  rw [List.length_map, ← List.map_take, hPerm.length_eq, (hPerm.map _).sum_eq] at hFront
  exact hFront

/-! ## Plans -/

namespace SubsidyTerms

variable (terms : SubsidyTerms)

/-- Coins of this number and sum pay the fee within what may be spent and leave change above dust. -/
def PaysWithChange (n sum : Nat) : Prop :=
  terms.neededWithChange n ≤ terms.spendable ∧ terms.neededWithChange n + dustLimitSats ≤ sum

/-- They pay the fee and may go into it whole. -/
def PaysWhole (n sum : Nat) : Prop := terms.neededChangeless n ≤ sum ∧ sum ≤ terms.spendable

theorem neededWithChange_le (n : Nat) : terms.neededWithChange n ≤
    terms.neededChangeless n + feeForWeight changeOutputWeightWu terms.targetRateSatPerVb := by
  have hWeight : (terms.ldkWeightWu + n * subsidyInputWeightWu + changeOutputWeightWu + 3) / 4 =
      (terms.ldkWeightWu + n * subsidyInputWeightWu + 3) / 4 + (changeOutputWeightWu + 3) / 4 := by
    simp only [changeOutputWeightWu]
    omega
  rw [neededWithChange, neededChangeless, feeForWeight, feeForWeight, feeForWeight, hWeight, Nat.add_mul]
  omega

variable {terms}

theorem neededWithChange_mono {n m : Nat} (h : n ≤ m) : terms.neededWithChange n ≤ terms.neededWithChange m := by
  apply Nat.sub_le_sub_right
  apply Word.feeForWeight_mono
  have hInputs := Nat.mul_le_mul_right subsidyInputWeightWu h
  omega

/-- After the stop both the fee and the coins are above what may be spent, for every longer front. -/
theorem select_shortfall {candidates selected : List SubsidyInput} {needed available : Nat}
    (h : terms.select candidates selected (totalSats selected) = .shortfall needed available) {n : Nat}
    (hAbove : selected.length < n) (hMax : n ≤ maxSubsidyInputs) (hLength : n ≤ (selected ++ candidates).length) :
    ¬ terms.PaysWithChange n (totalSats ((selected ++ candidates).take n)) ∧
      ¬ terms.PaysWhole n (totalSats ((selected ++ candidates).take n)) := by
  induction candidates generalizing selected with
  | nil =>
    rw [List.append_nil] at hLength
    omega
  | cons utxo rest ih =>
    have hSplit : selected ++ utxo :: rest = selected ++ [utxo] ++ rest := by
      rw [List.append_assoc]
      rfl
    have hNext : (selected ++ [utxo]).length = selected.length + 1 := by
      rw [List.length_append, List.length_singleton]
    rw [hSplit] at hLength ⊢
    rw [select, if_neg (by omega)] at h
    dsimp only at h
    rw [show totalSats selected + utxo.valueSats = totalSats (selected ++ [utxo]) from (Word.totalSats_snoc _ _).symm] at h
    split at h
    · cases h
    · next hNoChange =>
      split at h
      · cases h
      · next hNotWhole =>
        obtain hHere | hLater : n = (selected ++ [utxo]).length ∨ (selected ++ [utxo]).length < n := by omega
        · rw [hHere, List.take_left]
          constructor
          · rintro ⟨hSpendable, hSum⟩
            exact hNoChange ⟨hSpendable, by omega, by omega⟩
          · exact hNotWhole
        · split at h
          · next hStop =>
            have hTaken : totalSats (selected ++ [utxo]) ≤ totalSats ((selected ++ [utxo] ++ rest).take n) :=
              Word.totalSats_le_of_prefix (List.prefix_take_iff.mpr ⟨List.prefix_append _ _, hLater.le⟩)
            have hNeeded : terms.neededWithChange (selected ++ [utxo]).length ≤ terms.neededWithChange n :=
              neededWithChange_mono hLater.le
            constructor
            · rintro ⟨hSpendable, -⟩
              omega
            · rintro ⟨-, hSpendable⟩
              omega
          · exact ih h hLater hLength

end SubsidyTerms

/-! ## What is selected -/

/-- A selection keeps its promises, pays the rate for its own weight, gives away little where it has no
change, and is what the assembled transaction says. -/
structure SubsidySelection.PaysFor (s : SubsidySelection) (candidates : List SubsidyInput) (terms : SubsidyTerms) :
    Prop extends s.Sound candidates terms where
  length_pos : 0 < s.selected.length
  rate_le : feeForWeight (terms.ldkWeightWu + s.selected.length * subsidyInputWeightWu +
    if s.changeSats.isSome then changeOutputWeightWu else 0) terms.targetRateSatPerVb ≤ s.totalFeeSats
  overpays_lt : s.changeSats = none → s.subsidySats < terms.neededChangeless s.selected.length + dustLimitSats +
    feeForWeight changeOutputWeightWu terms.targetRateSatPerVb
  checkedFee : ∀ (psbt : SweepPsbt) (change : Option TxOut), (∀ input ∈ psbt.inputs, input.witnessUtxo.isSome = true) →
    psbt.outputSats + terms.ldkFeeSats = Word.fundedSats psbt → change.map (·.value) = s.changeSats →
    Word.checkedFee (SubsidyPlan.complete ⟨psbt, terms.ldkWeightWu, s⟩ change) =
      if Word.fundedSats psbt + totalSats s.selected < 2 ^ 64 then some s.totalFeeSats else none
  matches_fee : ∀ (psbt : SweepPsbt) (change : Option TxOut) (urgentSatPerKw : Nat),
    (∀ input ∈ psbt.inputs, input.witnessUtxo.isSome = true) →
    psbt.outputSats + terms.ldkFeeSats = Word.fundedSats psbt → change.map (·.value) = s.changeSats →
    Word.verifySubsidized ⟨psbt, terms.ldkWeightWu, s⟩ (SubsidyPlan.complete ⟨psbt, terms.ldkWeightWu, s⟩ change)
      urgentSatPerKw ≠ .error (.failed .feeMismatch)

/-- No front of the candidates pays, and no choice of them pays with change. -/
structure Exhausted (candidates : List SubsidyInput) (terms : SubsidyTerms) : Prop where
  fronts : ∀ n, 0 < n → n ≤ maxSubsidyInputs → n ≤ candidates.length →
    ¬ terms.PaysWithChange n (totalSats (candidates.take n)) ∧ ¬ terms.PaysWhole n (totalSats (candidates.take n))
  choices : ∀ chosen : List SubsidyInput, chosen.Subperm candidates → chosen.length ≤ maxSubsidyInputs →
    ¬ terms.PaysWithChange chosen.length (totalSats chosen)

section

variable {candidates : List SubsidyInput} {ldkWeightWu ldkFeeSats targetRateSatPerVb reserveSats : Nat}

theorem checkedFee_complete {s : SubsidySelection} {terms : SubsidyTerms} (hSound : s.Sound candidates terms)
    {psbt : SweepPsbt} {change : Option TxOut} (hKnown : ∀ input ∈ psbt.inputs, input.witnessUtxo.isSome = true)
    (hFee : psbt.outputSats + terms.ldkFeeSats = Word.fundedSats psbt) (hChange : change.map (·.value) = s.changeSats) :
    Word.checkedFee (SubsidyPlan.complete ⟨psbt, terms.ldkWeightWu, s⟩ change) =
      if Word.fundedSats psbt + totalSats s.selected < 2 ^ 64 then some s.totalFeeSats else none := by
  have hFunded := Word.fundedSats_complete ⟨psbt, terms.ldkWeightWu, s⟩ change
  have hOutputs := Word.outputSats_complete ⟨psbt, terms.ldkWeightWu, s⟩ change
  have hInputs := (Word.isSome_complete ⟨psbt, terms.ldkWeightWu, s⟩ change).mpr hKnown
  have hSum := hSound.subsidy_add_change
  have hTotal := hSound.totalFee
  dsimp only at hFunded hOutputs
  rw [hChange] at hOutputs
  apply Option.ext
  intro fee
  rw [Word.checkedFee_eq_some, hFunded, hOutputs]
  split
  · next hFits =>
    rw [Option.some_inj]
    constructor
    · rintro ⟨-, -, hRead⟩
      omega
    · rintro rfl
      exact ⟨hInputs, hFits, by omega⟩
  · next hOver =>
    apply iff_of_false
    · rintro ⟨-, hFits, -⟩
      exact hOver hFits
    · rintro ⟨⟩

theorem Word.Selects.paysFor {s : SubsidySelection} (hFits : Word.WeightFits ldkWeightWu targetRateSatPerVb)
    (hTotal : ldkFeeSats + totalSats candidates < 2 ^ 64)
    (h : Word.Selects ⟨ldkWeightWu, ldkFeeSats, targetRateSatPerVb, totalSats candidates - reserveSats⟩ candidates s) :
    s.PaysFor candidates ⟨ldkWeightWu, ldkFeeSats, targetRateSatPerVb, totalSats candidates - reserveSats⟩ := by
  have hSelected := Word.totalSats_le_of_prefix h.fromFront
  have hSum := h.subsidy_add_change
  have hFee := h.totalFee
  rw [wrapWord_of_lt (by omega)] at hSum
  dsimp only at hFee
  rw [wrapWord_of_lt (by omega)] at hFee
  have hSound : s.Sound candidates ⟨ldkWeightWu, ldkFeeSats, targetRateSatPerVb, totalSats candidates - reserveSats⟩ :=
    ⟨h.fromFront, h.length_le, hSum, h.subsidy_le, hFee, h.dust_le⟩
  have hNeeded := h.needed_le
  rw [Word.neededWithChange_eq hFits h.length_le, Word.neededChangeless_eq hFits h.length_le] at hNeeded
  constructor
  · exact hSound
  · exact h.length_pos
  · rw [hFee]
    split at hNeeded
    · next hChange =>
      rw [if_pos hChange]
      exact Nat.sub_le_iff_le_add'.mp hNeeded
    · next hChangeless =>
      rw [if_neg hChangeless]
      exact Nat.sub_le_iff_le_add'.mp hNeeded
  · intro hChangeless
    have hBelow := h.changeless hChangeless
    rw [Word.neededWithChange_eq hFits h.length_le] at hBelow
    have hChange := SubsidyTerms.neededWithChange_le ⟨ldkWeightWu, ldkFeeSats, targetRateSatPerVb,
      totalSats candidates - reserveSats⟩ s.selected.length
    omega
  · intro psbt change hKnown hBase hChange
    exact checkedFee_complete hSound hKnown hBase hChange
  · intro psbt change urgentSatPerKw hKnown hBase hChange
    rw [Word.verifySubsidized, checkedFee_complete hSound hKnown hBase hChange]
    split
    · rintro ⟨⟩
    · next fee hRead =>
      split at hRead
      · cases hRead
        rw [if_neg (not_not.mpr rfl)]
        split <;> rintro ⟨⟩
      · cases hRead

theorem Exhausted.of_shortfall {terms : SubsidyTerms} {needed available : Nat}
    (hSorted : candidates.Pairwise fun first second => second.valueSats ≤ first.valueSats)
    (h : terms.select candidates [] 0 = .shortfall needed available) : Exhausted candidates terms := by
  have hEmpty : terms.select candidates [] (totalSats []) = .shortfall needed available := h
  have hFronts : ∀ n, 0 < n → n ≤ maxSubsidyInputs → n ≤ candidates.length →
      ¬ terms.PaysWithChange n (totalSats (candidates.take n)) ∧ ¬ terms.PaysWhole n (totalSats (candidates.take n)) :=
    fun n hPos hMax hLength => SubsidyTerms.select_shortfall hEmpty hPos hMax hLength
  constructor
  · exact hFronts
  · rintro chosen hChosen hMax ⟨hSpendable, hSum⟩
    -- an empty choice has no change
    have hPos : 0 < chosen.length := by
      rw [List.length_pos_iff]
      rintro rfl
      rw [show totalSats [] = 0 from rfl, dustLimitSats] at hSum
      omega
    have hFront := totalSats_le_take hSorted hChosen
    exact (hFronts _ hPos hMax hChosen.length_le).1 ⟨hSpendable, hSum.trans hFront⟩

theorem selection_sound_and_complete (reserveSats : Nat)
    (hSorted : candidates.Pairwise fun first second => second.valueSats ≤ first.valueSats)
    (hFits : Word.WeightFits ldkWeightWu targetRateSatPerVb) (hTotal : ldkFeeSats + totalSats candidates < 2 ^ 64) :
    (∀ s, Word.selectSubsidyInputs candidates ldkWeightWu ldkFeeSats targetRateSatPerVb reserveSats = .selected s →
      s.PaysFor candidates ⟨ldkWeightWu, ldkFeeSats, targetRateSatPerVb, totalSats candidates - reserveSats⟩) ∧
    ∀ needed available,
      Word.selectSubsidyInputs candidates ldkWeightWu ldkFeeSats targetRateSatPerVb reserveSats = .shortfall needed available →
      Exhausted candidates ⟨ldkWeightWu, ldkFeeSats, targetRateSatPerVb, totalSats candidates - reserveSats⟩ := by
  constructor
  · intro s h
    have hSelects := Word.selectSubsidyInputs_selected h
    rw [wrapWord_of_lt (by omega)] at hSelects
    exact hSelects.paysFor hFits hTotal
  · intro needed available h
    rw [Word.selectSubsidyInputs_eq hFits hTotal] at h
    exact .of_shortfall hSorted h

end

/-! ## Where a word wraps -/

def coinOf (valueSats : Nat) : SubsidyInput := ⟨⟨"coin", 0⟩, valueSats, []⟩

/-- A fee near the end of the word comes out as 99 sats; a weight near half of it pays almost nothing. -/
theorem wrapped_selection_underpays :
    (∃ s, Word.selectSubsidyInputs [coinOf 100] 400 (2 ^ 64 - 1) 2 0 = .selected s ∧
      s.totalFeeSats < feeForWeight (400 + s.selected.length * subsidyInputWeightWu) 2) ∧
    ∃ s, Word.selectSubsidyInputs [coinOf 100000] (2 ^ 63 + 400) 1000 8 0 = .selected s ∧
      s.totalFeeSats < feeForWeight (2 ^ 63 + 400 + s.selected.length * subsidyInputWeightWu) 8 := by
  constructor
  · exact ⟨_, rfl, by decide⟩
  · exact ⟨_, rfl, by decide⟩

/-- Two coins where one will do, and where the reserve leaves too little. -/
theorem selection_of_two :
    SubsidySelection.PaysFor ⟨[coinOf 9000], some 8304, 796, 696⟩ [coinOf 9000, coinOf 700] ⟨400, 100, 4, 4700⟩ ∧
      Exhausted [coinOf 9000, coinOf 700] ⟨400, 100, 4, 200⟩ := by
  have hSorted : [coinOf 9000, coinOf 700].Pairwise fun first second => second.valueSats ≤ first.valueSats := by decide
  have hFits : Word.WeightFits 400 4 := ⟨by decide, by decide⟩
  have hSelected : Word.selectSubsidyInputs [coinOf 9000, coinOf 700] 400 100 4 5000 =
      .selected ⟨[coinOf 9000], some 8304, 796, 696⟩ := by decide
  have hShortfall : Word.selectSubsidyInputs [coinOf 9000, coinOf 700] 400 100 4 9500 = .shortfall 696 200 := by decide
  constructor
  · exact (selection_sound_and_complete 5000 hSorted hFits (by decide)).1 _ hSelected
  · exact (selection_sound_and_complete 9500 hSorted hFits (by decide)).2 _ _ hShortfall

end WalletCore.Sweep
