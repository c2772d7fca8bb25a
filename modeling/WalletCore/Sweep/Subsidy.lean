import Mathlib.Algebra.Ring.Nat
import WalletCore.Wallet.Onchain

/-! # The subsidy of a sweep

Outputs that cannot pay their own fee are swept with confirmed coins of the wallet beside them. Coins
are taken largest first, with change where it is above dust and without where it is not.
-/

namespace WalletCore.Sweep

open Wallet

/-! ## Constants -/

def minSweepRateSatPerVb : Nat := 2

def maxSweepRateSatPerVb : Nat := 500

def floorFeerateSatPerKw : Nat := 250

def dustLimitSats : Nat := 546

def subsidyInputWeightWu : Nat := 272

def changeOutputWeightWu : Nat := 124

def maxSubsidyInputs : Nat := 20

def rbfSequence : Nat := 0xFFFFFFFD

/-! ## Selection -/

structure SubsidyInput where
  outpoint : OutPoint
  valueSats : Nat
  scriptPubkey : Script
deriving DecidableEq

/-- Without change, what is left over goes into the fee. -/
structure SubsidySelection where
  selected : List SubsidyInput
  changeSats : Option Nat
  totalFeeSats : Nat
  subsidySats : Nat
deriving DecidableEq

inductive SelectionOutcome where
  | selected (selection : SubsidySelection)
  | shortfall (neededSubsidySats availableSats : Nat)
deriving DecidableEq

/-- Rounded up to whole vbytes. -/
def feeForWeight (weightWu rateSatPerVb : Nat) : Nat := (weightWu + 3) / 4 * rateSatPerVb

/-- What the selection is asked to cover, and the most it may leave to the fee. -/
structure SubsidyTerms where
  ldkWeightWu : Nat
  ldkFeeSats : Nat
  targetRateSatPerVb : Nat
  spendable : Nat

namespace SubsidyTerms

def neededWithChange (terms : SubsidyTerms) (n : Nat) : Nat :=
  feeForWeight (terms.ldkWeightWu + n * subsidyInputWeightWu + changeOutputWeightWu) terms.targetRateSatPerVb -
    terms.ldkFeeSats

def neededChangeless (terms : SubsidyTerms) (n : Nat) : Nat :=
  feeForWeight (terms.ldkWeightWu + n * subsidyInputWeightWu) terms.targetRateSatPerVb - terms.ldkFeeSats

def shortfall (terms : SubsidyTerms) (selected : List SubsidyInput) : SelectionOutcome :=
  .shortfall (terms.neededWithChange (max selected.length 1)) terms.spendable

/-- One more coin at a time. The changeless variant is tried even where the one with change does not
fit, and the search stops once both the fee and the coins exceed what may be spent. -/
def select (terms : SubsidyTerms) : List SubsidyInput → List SubsidyInput → Nat → SelectionOutcome
  | [], selected, _ => terms.shortfall selected
  | utxo :: rest, selected, selectedSum =>
    if maxSubsidyInputs ≤ selected.length then terms.shortfall selected
    else
      let selected := selected ++ [utxo]
      let selectedSum := selectedSum + utxo.valueSats
      let needed := terms.neededWithChange selected.length
      if needed ≤ terms.spendable ∧ needed ≤ selectedSum ∧ dustLimitSats ≤ selectedSum - needed then
        .selected ⟨selected, some (selectedSum - needed), terms.ldkFeeSats + needed, needed⟩
      else if terms.neededChangeless selected.length ≤ selectedSum ∧ selectedSum ≤ terms.spendable then
        .selected ⟨selected, none, terms.ldkFeeSats + selectedSum, selectedSum⟩
      else if terms.spendable < needed ∧ terms.spendable < selectedSum then terms.shortfall selected
      else terms.select rest selected selectedSum

end SubsidyTerms

def totalSats (inputs : List SubsidyInput) : Nat := (inputs.map (·.valueSats)).sum

def selectSubsidyInputs (candidates : List SubsidyInput) (ldkWeightWu ldkFeeSats targetRateSatPerVb reserveSats : Nat) :
    SelectionOutcome :=
  let terms := ⟨ldkWeightWu, ldkFeeSats, targetRateSatPerVb, totalSats candidates - reserveSats⟩
  SubsidyTerms.select terms candidates [] 0

/-- What a selection promises: the largest candidates, not too many, change above dust, and a subsidy
that keeps within what may be spent. -/
structure SubsidySelection.Sound (s : SubsidySelection) (candidates : List SubsidyInput) (terms : SubsidyTerms) :
    Prop where
  fromFront : s.selected <+: candidates
  length_le : s.selected.length ≤ maxSubsidyInputs
  subsidy_add_change : s.subsidySats + s.changeSats.getD 0 = totalSats s.selected
  subsidy_le : s.subsidySats ≤ terms.spendable
  totalFee : s.totalFeeSats = terms.ldkFeeSats + s.subsidySats
  dust_le : ∀ sats ∈ s.changeSats, dustLimitSats ≤ sats

theorem totalSats_append (first second : List SubsidyInput) :
    totalSats (first ++ second) = totalSats first + totalSats second := by
  rw [totalSats, List.map_append, List.sum_append]
  rfl

theorem SubsidyTerms.select_sound {terms : SubsidyTerms} {candidates selected : List SubsidyInput}
    {s : SubsidySelection} (h : terms.select candidates selected (totalSats selected) = .selected s) :
    s.Sound (selected ++ candidates) terms := by
  induction candidates generalizing selected with
  | nil => cases h
  | cons utxo rest ih =>
    have hSum : totalSats selected + utxo.valueSats = totalSats (selected ++ [utxo]) := by
      rw [totalSats_append]
      rfl
    have hSplit : selected ++ utxo :: rest = selected ++ [utxo] ++ rest := by rw [List.append_assoc]; rfl
    have hPrefix : selected ++ [utxo] <+: selected ++ utxo :: rest := hSplit ▸ List.prefix_append _ _
    simp only [select, hSum] at h
    split at h
    · cases h
    · next hRoom =>
      have hLength : (selected ++ [utxo]).length ≤ maxSubsidyInputs := by
        rw [List.length_append, List.length_singleton]
        omega
      split at h
      · next hChange =>
        cases h
        refine ⟨hPrefix, hLength, ?_, hChange.1, rfl, ?_⟩
        · exact Nat.add_sub_cancel' hChange.2.1
        · rintro _ ⟨⟩
          exact hChange.2.2
      · split at h
        · next hDrained =>
          cases h
          exact ⟨hPrefix, hLength, rfl, hDrained.2, rfl, by rintro _ ⟨⟩⟩
        · split at h
          · cases h
          · rw [hSplit]
            exact ih h

theorem selectSubsidyInputs_sound {candidates : List SubsidyInput}
    {ldkWeightWu ldkFeeSats targetRateSatPerVb reserveSats : Nat} {s : SubsidySelection}
    (h : selectSubsidyInputs candidates ldkWeightWu ldkFeeSats targetRateSatPerVb reserveSats = .selected s) :
    s.Sound candidates ⟨ldkWeightWu, ldkFeeSats, targetRateSatPerVb, totalSats candidates - reserveSats⟩ :=
  SubsidyTerms.select_sound h

/-! ## Candidates -/

def isP2wpkh (script : Script) : Bool := script.length = 22 && script.take 2 = [0x00, 0x14]

def SubsidyInput.ofCoin (coin : LocalOutput) : SubsidyInput :=
  ⟨coin.outpoint, coin.txout.value, coin.txout.scriptPubkey⟩

/-- Confirmed coins that no subsidized sweep of this session took, largest first. The library lists
coins in an order of its own, which decides between equal values. -/
def confirmedP2wpkhCandidates (keys : Descriptors) (w : OnchainWallet) (reserved : Finset OutPoint)
    (listing : List LocalOutput) : List SubsidyInput :=
  (((listing.dedup.filter (· ∈ w.confirmedUtxos keys)).filter fun coin =>
    coin.outpoint ∉ reserved && isP2wpkh coin.txout.scriptPubkey).map .ofCoin).mergeSort
      fun first second => second.valueSats ≤ first.valueSats

theorem mem_confirmedP2wpkhCandidates {keys : Descriptors} {w : OnchainWallet} {reserved : Finset OutPoint}
    {listing : List LocalOutput} {input : SubsidyInput} :
    input ∈ confirmedP2wpkhCandidates keys w reserved listing ↔
      ∃ coin ∈ listing, coin ∈ w.confirmedUtxos keys ∧ coin.outpoint ∉ reserved ∧
        isP2wpkh coin.txout.scriptPubkey = true ∧ SubsidyInput.ofCoin coin = input := by
  simp only [confirmedP2wpkhCandidates, List.mem_mergeSort, List.mem_map, List.mem_filter, List.mem_dedup,
    Bool.and_eq_true, decide_eq_true_eq]
  tauto

end WalletCore.Sweep
