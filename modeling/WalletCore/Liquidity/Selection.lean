import WalletCore.Liquidity.Quote

/-! # What the selection tells

Choosing from a menu succeeds on the cheapest entry the amount fits into. Where it fails, the error names a
reason, and the reason is wrong for one kind of menu: an amount that lies between the windows of the entries,
or whose fees all overflow, is told that the menu is empty.
-/

namespace WalletCore.Liquidity

/-- The larger of two words by the order of words. -/
instance lawfulOrderMaxUInt64 : Std.LawfulOrderMax UInt64 := by
  have hMax (a b : UInt64) : max a b = if a ≤ b then b else a := rfl
  apply Std.LawfulOrderMax.of_max_le_iff
  · intro a b c
    rw [hMax]
    split
    · rename_i hLe
      exact ⟨fun h => ⟨UInt64.le_trans hLe h, h⟩, And.right⟩
    · rename_i hLt
      rw [UInt64.not_le] at hLt
      exact ⟨fun h => ⟨h, UInt64.le_trans (UInt64.le_of_lt hLt) h⟩, And.left⟩
  · intro a b
    rw [hMax]
    split
    · exact .inr rfl
    · exact .inl rfl

/-! ## Entries -/

/-- The protocol library's rule: the proportional part in millionths, rounded up, and at least the minimum.
Every step is checked. -/
def computeOpeningFee : FeeRule := fun amountMsat minFeeMsat proportional =>
  let scaled := amountMsat.toNat * proportional.toNat + 999999
  if scaled < 2 ^ 64 then some (max (.ofNat (scaled / 1000000)) minFeeMsat) else none

namespace OpeningFeeParams

def Valid (params : OpeningFeeParams) (nowUnixSecs : Nat) : Prop := nowUnixSecs < params.validUntil

instance (params : OpeningFeeParams) (nowUnixSecs : Nat) : Decidable (params.Valid nowUnixSecs) :=
  inferInstanceAs (Decidable (nowUnixSecs < params.validUntil))

def Fits (params : OpeningFeeParams) (amountMsat : UInt64) : Prop :=
  params.minPaymentSizeMsat ≤ amountMsat ∧ amountMsat ≤ params.maxPaymentSizeMsat

/-- The opening fee that a rule asks, unless it overflows. -/
def openingFee (feeRule : FeeRule) (params : OpeningFeeParams) (amountMsat : UInt64) : Option UInt64 :=
  feeRule amountMsat params.minFeeMsat params.proportional

end OpeningFeeParams

/-- An entry of the menu is valid, the amount fits into it, and it asks this fee. -/
structure Offers (feeRule : FeeRule) (menu : List OpeningFeeParams) (amountMsat : UInt64) (nowUnixSecs : Nat)
    (feeMsat : UInt64) (params : OpeningFeeParams) : Prop where
  listed : params ∈ menu
  valid : params.Valid nowUnixSecs
  fits : params.Fits amountMsat
  asks : params.openingFee feeRule amountMsat = some feeMsat

def validEntries (menu : List OpeningFeeParams) (nowUnixSecs : Nat) : List OpeningFeeParams :=
  menu.filter fun params => nowUnixSecs < params.validUntil

section

variable {feeRule : FeeRule} {menu menu' : List OpeningFeeParams} {amountMsat feeMsat : UInt64} {nowUnixSecs : Nat}
  {params : OpeningFeeParams}

theorem mem_validEntries : params ∈ validEntries menu nowUnixSecs ↔ params ∈ menu ∧ params.Valid nowUnixSecs := by
  simp [validEntries, OpeningFeeParams.Valid]

theorem mem_candidates :
    (feeMsat, params) ∈ candidates feeRule (validEntries menu nowUnixSecs) amountMsat ↔
      Offers feeRule menu amountMsat nowUnixSecs feeMsat params := by
  rw [candidates, List.mem_filterMap]
  constructor
  · rintro ⟨entry, hEntry, hChosen⟩
    obtain ⟨hMenu, hValid⟩ := mem_validEntries.mp hEntry
    split at hChosen
    · cases hChosen
    · rename_i hWindow
      obtain ⟨fee, hFee, hPair⟩ := Option.map_eq_some_iff.mp hChosen
      cases hPair
      rw [not_or, UInt64.not_lt, UInt64.not_lt] at hWindow
      exact ⟨hMenu, hValid, hWindow, hFee⟩
  · intro h
    have hWindow : ¬ (amountMsat < params.minPaymentSizeMsat ∨ params.maxPaymentSizeMsat < amountMsat) := by
      rw [not_or, UInt64.not_lt, UInt64.not_lt]
      exact h.fits
    refine ⟨params, mem_validEntries.mpr ⟨h.listed, h.valid⟩, ?_⟩
    rw [if_neg hWindow]
    exact Option.map_eq_some_iff.mpr ⟨feeMsat, h.asks, rfl⟩

theorem candidates_eq_nil :
    candidates feeRule (validEntries menu nowUnixSecs) amountMsat = [] ↔
      ∀ feeMsat params, ¬ Offers feeRule menu amountMsat nowUnixSecs feeMsat params := by
  rw [List.eq_nil_iff_forall_not_mem]
  constructor
  · intro h feeMsat params hOffers
    exact h (feeMsat, params) (mem_candidates.mpr hOffers)
  · rintro h ⟨feeMsat, params⟩ hMem
    exact h feeMsat params (mem_candidates.mp hMem)

theorem tightestMin_filter {least : UInt64}
    (h : (tightestMin (validEntries menu nowUnixSecs)).filter (amountMsat < ·) = some least) :
    ∀ params ∈ menu, params.Valid nowUnixSecs → amountMsat < params.minPaymentSizeMsat := by
  obtain ⟨hLeast, hBelow⟩ := Option.filter_eq_some_iff.mp h
  intro params hMenu hValid
  have hLe := (List.min?_eq_some_iff.mp hLeast).2 _
    (List.mem_map.mpr ⟨params, mem_validEntries.mpr ⟨hMenu, hValid⟩, rfl⟩)
  exact UInt64.lt_of_lt_of_le (of_decide_eq_true hBelow) hLe

theorem tightestMin_filter_none (hValid : validEntries menu nowUnixSecs ≠ [])
    (h : (tightestMin (validEntries menu nowUnixSecs)).filter (amountMsat < ·) = none) :
    ∃ params ∈ menu, params.Valid nowUnixSecs ∧ params.minPaymentSizeMsat ≤ amountMsat := by
  obtain ⟨least, hLeast⟩ : ∃ least, tightestMin (validEntries menu nowUnixSecs) = some least :=
    Option.isSome_iff_exists.mp (by simpa [tightestMin] using hValid)
  obtain ⟨params, hMem, rfl⟩ := List.mem_map.mp (List.min?_eq_some_iff.mp hLeast).1
  obtain ⟨hMenu, hEntry⟩ := mem_validEntries.mp hMem
  rw [hLeast, Option.filter_eq_none_iff] at h
  exact ⟨params, hMenu, hEntry, UInt64.not_lt.mp (by simpa using h _ rfl)⟩

theorem widestMax_filter {most : UInt64}
    (h : (widestMax (validEntries menu nowUnixSecs)).filter (· < amountMsat) = some most) :
    ∀ params ∈ menu, params.Valid nowUnixSecs → params.maxPaymentSizeMsat < amountMsat := by
  obtain ⟨hMost, hAbove⟩ := Option.filter_eq_some_iff.mp h
  intro params hMenu hValid
  have hLe := (List.max?_eq_some_iff.mp hMost).2 _
    (List.mem_map.mpr ⟨params, mem_validEntries.mpr ⟨hMenu, hValid⟩, rfl⟩)
  exact UInt64.lt_of_le_of_lt hLe (of_decide_eq_true hAbove)

theorem widestMax_filter_none (hValid : validEntries menu nowUnixSecs ≠ [])
    (h : (widestMax (validEntries menu nowUnixSecs)).filter (· < amountMsat) = none) :
    ∃ params ∈ menu, params.Valid nowUnixSecs ∧ amountMsat ≤ params.maxPaymentSizeMsat := by
  obtain ⟨most, hMost⟩ : ∃ most, widestMax (validEntries menu nowUnixSecs) = some most :=
    Option.isSome_iff_exists.mp (by simpa [widestMax] using hValid)
  obtain ⟨params, hMem, rfl⟩ := List.mem_map.mp (List.max?_eq_some_iff.mp hMost).1
  obtain ⟨hMenu, hEntry⟩ := mem_validEntries.mp hMem
  rw [hMost, Option.filter_eq_none_iff] at h
  exact ⟨params, hMenu, hEntry, UInt64.not_lt.mp (by simpa using h _ rfl)⟩

theorem cheapest_cases (feeRule : FeeRule) (menu : List OpeningFeeParams) (amountMsat : UInt64) (nowUnixSecs : Nat) :
    (∃ feeMsat params, (candidates feeRule (validEntries menu nowUnixSecs) amountMsat).argmin (·.1.toNat) =
        some (feeMsat, params) ∧ Offers feeRule menu amountMsat nowUnixSecs feeMsat params ∧
      ∀ otherMsat other, Offers feeRule menu amountMsat nowUnixSecs otherMsat other → feeMsat ≤ otherMsat) ∨
    (candidates feeRule (validEntries menu nowUnixSecs) amountMsat).argmin (·.1.toNat) = none ∧
      ∀ feeMsat params, ¬ Offers feeRule menu amountMsat nowUnixSecs feeMsat params := by
  cases hMin : (candidates feeRule (validEntries menu nowUnixSecs) amountMsat).argmin (·.1.toNat) with
  | none => exact .inr ⟨rfl, candidates_eq_nil.mp (List.argmin_eq_none.mp hMin)⟩
  | some cheapest =>
    obtain ⟨feeMsat, params⟩ := cheapest
    refine .inl ⟨feeMsat, params, rfl, mem_candidates.mp (List.argmin_mem hMin), ?_⟩
    intro otherMsat other hOther
    have hLe := List.not_lt_of_mem_argmin (mem_candidates.mpr hOther) (Option.mem_def.mpr hMin)
    exact UInt64.le_iff_toNat_le.mpr (Nat.le_of_not_lt hLe)

end

/-! ## Outcomes -/

/-- What a selection comes to, and what is true of the menu then. The last outcome is the one whose error
does not fit. -/
inductive Outcome (feeRule : FeeRule) (menu : List OpeningFeeParams) (amountMsat : UInt64) (nowUnixSecs : Nat) :
    Except Lsps2Error (UInt64 × OpeningFeeParams) → Prop where
  | chosen {feeMsat : UInt64} {params : OpeningFeeParams}
      (offers : Offers feeRule menu amountMsat nowUnixSecs feeMsat params)
      (cheapest : ∀ otherMsat other, Offers feeRule menu amountMsat nowUnixSecs otherMsat other → feeMsat ≤ otherMsat)
      (below : feeMsat < amountMsat) : Outcome feeRule menu amountMsat nowUnixSecs (.ok (feeMsat, params))
  | tooDear {feeMsat : UInt64} {params : OpeningFeeParams}
      (offers : Offers feeRule menu amountMsat nowUnixSecs feeMsat params)
      (cheapest : ∀ otherMsat other, Offers feeRule menu amountMsat nowUnixSecs otherMsat other → feeMsat ≤ otherMsat)
      (swallows : amountMsat ≤ feeMsat) :
      Outcome feeRule menu amountMsat nowUnixSecs (.error (.openingFeeExceedsAmount feeMsat amountMsat))
  | noMenu (empty : menu = []) : Outcome feeRule menu amountMsat nowUnixSecs (.error .emptyMenu)
  | expired (none : ∀ feeMsat params, ¬ Offers feeRule menu amountMsat nowUnixSecs feeMsat params) (listed : menu ≠ [])
      (expired : ∀ params ∈ menu, ¬ params.Valid nowUnixSecs) :
      Outcome feeRule menu amountMsat nowUnixSecs (.error .allParamsExpired)
  | tooSmall {least : UInt64} (none : ∀ feeMsat params, ¬ Offers feeRule menu amountMsat nowUnixSecs feeMsat params)
      (below : ∀ params ∈ menu, params.Valid nowUnixSecs → amountMsat < params.minPaymentSizeMsat) :
      Outcome feeRule menu amountMsat nowUnixSecs (.error (.amountBelowMinimum amountMsat least))
  | tooLarge {most : UInt64} (none : ∀ feeMsat params, ¬ Offers feeRule menu amountMsat nowUnixSecs feeMsat params)
      (above : ∀ params ∈ menu, params.Valid nowUnixSecs → params.maxPaymentSizeMsat < amountMsat) :
      Outcome feeRule menu amountMsat nowUnixSecs (.error (.amountAboveMaximum amountMsat most))
  | unfit (none : ∀ feeMsat params, ¬ Offers feeRule menu amountMsat nowUnixSecs feeMsat params)
      (notBelow : ∃ params ∈ menu, params.Valid nowUnixSecs ∧ params.minPaymentSizeMsat ≤ amountMsat)
      (notAbove : ∃ params ∈ menu, params.Valid nowUnixSecs ∧ amountMsat ≤ params.maxPaymentSizeMsat) :
      Outcome feeRule menu amountMsat nowUnixSecs (.error .emptyMenu)

theorem selectCheapestValidParams_eq (feeRule : FeeRule) (menu : List OpeningFeeParams) (amountMsat : UInt64)
    (nowUnixSecs : Nat) : selectCheapestValidParams feeRule menu amountMsat nowUnixSecs =
      if menu.isEmpty then .error .emptyMenu
      else
        match (candidates feeRule (validEntries menu nowUnixSecs) amountMsat).argmin (·.1.toNat) with
        | some (openingFeeMsat, params) =>
          if amountMsat ≤ openingFeeMsat then .error (.openingFeeExceedsAmount openingFeeMsat amountMsat)
          else .ok (openingFeeMsat, params)
        | none =>
          if (validEntries menu nowUnixSecs).isEmpty then .error .allParamsExpired
          else
            match (tightestMin (validEntries menu nowUnixSecs)).filter (amountMsat < ·),
              (widestMax (validEntries menu nowUnixSecs)).filter (· < amountMsat) with
            | some least, _ => .error (.amountBelowMinimum amountMsat least)
            | none, some most => .error (.amountAboveMaximum amountMsat most)
            | none, none => .error .emptyMenu := rfl

theorem selectCheapestValidParams_outcome (feeRule : FeeRule) (menu : List OpeningFeeParams) (amountMsat : UInt64)
    (nowUnixSecs : Nat) : Outcome feeRule menu amountMsat nowUnixSecs
      (selectCheapestValidParams feeRule menu amountMsat nowUnixSecs) := by
  rw [selectCheapestValidParams_eq]
  split
  · rename_i hMenu
    exact .noMenu (List.isEmpty_iff.mp hMenu)
  · rename_i hMenu
    obtain ⟨feeMsat, params, hMin, hOffers, hCheapest⟩ | ⟨hMin, hNone⟩ :=
      cheapest_cases feeRule menu amountMsat nowUnixSecs
    · rw [hMin]
      dsimp only
      split
      · rename_i hSwallows
        exact .tooDear hOffers hCheapest hSwallows
      · rename_i hBelow
        exact .chosen hOffers hCheapest (UInt64.not_le.mp hBelow)
    · rw [hMin]
      dsimp only
      split
      · rename_i hEmpty
        rw [List.isEmpty_iff, List.eq_nil_iff_forall_not_mem] at hEmpty
        exact .expired hNone (by simpa using hMenu) fun params hParams hValid =>
          hEmpty params (mem_validEntries.mpr ⟨hParams, hValid⟩)
      · rename_i hValid
        rw [List.isEmpty_iff] at hValid
        split
        · rename_i hLeast
          exact .tooSmall hNone (tightestMin_filter hLeast)
        · rename_i hMost
          exact .tooLarge hNone (widestMax_filter hMost)
        · rename_i hLeast hMost
          exact .unfit hNone (tightestMin_filter_none hValid hLeast) (widestMax_filter_none hValid hMost)

/-! ## Truth of the answers -/

/-- Success exactly where an offer leaves something, the cheapest offer then, errors that are true of the
menu, and no dependence on the menu's order but for the entry among equally cheap ones. -/
structure SelectionTruthful (feeRule : FeeRule) (menu : List OpeningFeeParams) (amountMsat : UInt64)
    (nowUnixSecs : Nat) : Prop where
  succeeds : (selectCheapestValidParams feeRule menu amountMsat nowUnixSecs).isOk = true ↔
    ∃ feeMsat params, Offers feeRule menu amountMsat nowUnixSecs feeMsat params ∧ feeMsat < amountMsat
  cheapest : ∀ feeMsat params, selectCheapestValidParams feeRule menu amountMsat nowUnixSecs = .ok (feeMsat, params) →
    Offers feeRule menu amountMsat nowUnixSecs feeMsat params ∧
      ∀ otherMsat other, Offers feeRule menu amountMsat nowUnixSecs otherMsat other → feeMsat ≤ otherMsat
  emptyMenu : selectCheapestValidParams feeRule menu amountMsat nowUnixSecs = .error .emptyMenu → menu = []
  allParamsExpired : selectCheapestValidParams feeRule menu amountMsat nowUnixSecs = .error .allParamsExpired →
    ∀ params ∈ menu, ¬ params.Valid nowUnixSecs
  amountBelowMinimum : ∀ amount least, selectCheapestValidParams feeRule menu amountMsat nowUnixSecs =
      .error (.amountBelowMinimum amount least) →
    ∀ params ∈ menu, params.Valid nowUnixSecs → amountMsat < params.minPaymentSizeMsat
  amountAboveMaximum : ∀ amount most, selectCheapestValidParams feeRule menu amountMsat nowUnixSecs =
      .error (.amountAboveMaximum amount most) →
    ∀ params ∈ menu, params.Valid nowUnixSecs → params.maxPaymentSizeMsat < amountMsat
  openingFeeExceedsAmount : ∀ fee amount, selectCheapestValidParams feeRule menu amountMsat nowUnixSecs =
      .error (.openingFeeExceedsAmount fee amount) →
    ∀ feeMsat params, Offers feeRule menu amountMsat nowUnixSecs feeMsat params → amountMsat ≤ feeMsat
  orderFree : ∀ menu', menu'.Perm menu →
    (selectCheapestValidParams feeRule menu' amountMsat nowUnixSecs).map Prod.fst =
      (selectCheapestValidParams feeRule menu amountMsat nowUnixSecs).map Prod.fst

/-- Some entry offers a fee for the amount, or the amount is outside every valid entry's window on the same side. -/
def Told (feeRule : FeeRule) (menu : List OpeningFeeParams) (amountMsat : UInt64) (nowUnixSecs : Nat) : Prop :=
  (∃ feeMsat params, Offers feeRule menu amountMsat nowUnixSecs feeMsat params) ∨
  (∀ params ∈ menu, params.Valid nowUnixSecs → amountMsat < params.minPaymentSizeMsat) ∨
  ∀ params ∈ menu, params.Valid nowUnixSecs → params.maxPaymentSizeMsat < amountMsat

section

variable {feeRule : FeeRule} {menu menu' : List OpeningFeeParams} {amountMsat : UInt64} {nowUnixSecs : Nat}

theorem selectCheapestValidParams_isOk :
    (selectCheapestValidParams feeRule menu amountMsat nowUnixSecs).isOk = true ↔
      ∃ feeMsat params, Offers feeRule menu amountMsat nowUnixSecs feeMsat params ∧ feeMsat < amountMsat := by
  have hOutcome := selectCheapestValidParams_outcome feeRule menu amountMsat nowUnixSecs
  generalize selectCheapestValidParams feeRule menu amountMsat nowUnixSecs = answer at hOutcome ⊢
  cases hOutcome with
  | chosen hOffers _ hBelow => exact iff_of_true rfl ⟨_, _, hOffers, hBelow⟩
  | tooDear _ hCheapest hSwallows =>
    apply iff_of_false Bool.false_ne_true
    rintro ⟨feeMsat, params, hOffers, hBelow⟩
    exact UInt64.not_lt.mpr (UInt64.le_trans hSwallows (hCheapest _ _ hOffers)) hBelow
  | noMenu hEmpty =>
    apply iff_of_false Bool.false_ne_true
    rintro ⟨feeMsat, params, hOffers, -⟩
    exact List.not_mem_nil (hEmpty ▸ hOffers.listed)
  | expired hNone | tooSmall hNone | tooLarge hNone | unfit hNone =>
    apply iff_of_false Bool.false_ne_true
    rintro ⟨feeMsat, params, hOffers, -⟩
    exact hNone _ _ hOffers

theorem Offers.perm (hPerm : menu'.Perm menu) {feeMsat : UInt64} {params : OpeningFeeParams} :
    Offers feeRule menu' amountMsat nowUnixSecs feeMsat params ↔ Offers feeRule menu amountMsat nowUnixSecs feeMsat params :=
  ⟨fun h => ⟨hPerm.mem_iff.mp h.listed, h.valid, h.fits, h.asks⟩, fun h => ⟨hPerm.mem_iff.mpr h.listed, h.valid, h.fits, h.asks⟩⟩

theorem bounds_perm (hPerm : menu'.Perm menu) (nowUnixSecs : Nat) :
    tightestMin (validEntries menu' nowUnixSecs) = tightestMin (validEntries menu nowUnixSecs) ∧
      widestMax (validEntries menu' nowUnixSecs) = widestMax (validEntries menu nowUnixSecs) := by
  have hValid : (validEntries menu' nowUnixSecs).Perm (validEntries menu nowUnixSecs) := hPerm.filter _
  constructor
  · apply Option.ext
    intro least
    rw [tightestMin, tightestMin, List.min?_eq_some_iff, List.min?_eq_some_iff]
    simp only [(hValid.map _).mem_iff]
  · apply Option.ext
    intro most
    rw [widestMax, widestMax, List.max?_eq_some_iff, List.max?_eq_some_iff]
    simp only [(hValid.map _).mem_iff]

theorem selectCheapestValidParams_perm (hPerm : menu'.Perm menu) :
    (selectCheapestValidParams feeRule menu' amountMsat nowUnixSecs).map Prod.fst =
      (selectCheapestValidParams feeRule menu amountMsat nowUnixSecs).map Prod.fst := by
  have hEmpty : menu'.isEmpty = menu.isEmpty := by
    rw [Bool.eq_iff_iff, List.isEmpty_iff_length_eq_zero, List.isEmpty_iff_length_eq_zero, hPerm.length_eq]
  have hValid : (validEntries menu' nowUnixSecs).Perm (validEntries menu nowUnixSecs) := hPerm.filter _
  have hExpired : (validEntries menu' nowUnixSecs).isEmpty = (validEntries menu nowUnixSecs).isEmpty := by
    rw [Bool.eq_iff_iff, List.isEmpty_iff_length_eq_zero, List.isEmpty_iff_length_eq_zero, hValid.length_eq]
  obtain ⟨hTightest, hWidest⟩ := bounds_perm hPerm nowUnixSecs
  rw [selectCheapestValidParams_eq, selectCheapestValidParams_eq, hEmpty, hExpired, hTightest, hWidest]
  split
  · rfl
  · obtain ⟨feeMsat, params, hMin, hOffers, hCheapest⟩ | ⟨hMin, hNone⟩ :=
      cheapest_cases feeRule menu amountMsat nowUnixSecs
    · obtain ⟨feeMsat', params', hMin', hOffers', hCheapest'⟩ | ⟨-, hNone'⟩ :=
        cheapest_cases feeRule menu' amountMsat nowUnixSecs
      · have hSame : feeMsat' = feeMsat :=
          UInt64.le_antisymm (hCheapest' _ _ ((Offers.perm hPerm).mpr hOffers)) (hCheapest _ _ ((Offers.perm hPerm).mp hOffers'))
        rw [hMin, hMin', hSame]
        dsimp only
        split <;> rfl
      · exact absurd ((Offers.perm hPerm).mpr hOffers) (hNone' _ _)
    · obtain ⟨feeMsat', params', -, hOffers', -⟩ | ⟨hMin', -⟩ := cheapest_cases feeRule menu' amountMsat nowUnixSecs
      · exact absurd ((Offers.perm hPerm).mp hOffers') (hNone _ _)
      · rw [hMin, hMin']

/-- The answers are true exactly where the last outcome does not come up. -/
theorem selection_truthful_iff :
    SelectionTruthful feeRule menu amountMsat nowUnixSecs ↔ Told feeRule menu amountMsat nowUnixSecs := by
  have hOutcome := selectCheapestValidParams_outcome feeRule menu amountMsat nowUnixSecs
  constructor
  · intro h
    have hEmptyMenu := h.emptyMenu
    generalize selectCheapestValidParams feeRule menu amountMsat nowUnixSecs = answer at hOutcome hEmptyMenu
    cases hOutcome with
    | chosen hOffers | tooDear hOffers => exact .inl ⟨_, _, hOffers⟩
    | noMenu hEmpty => exact .inr (.inl (by simp [hEmpty]))
    | expired _ _ hExpired => exact .inr (.inl fun params hParams hValid => absurd hValid (hExpired params hParams))
    | tooSmall _ hBelow => exact .inr (.inl hBelow)
    | tooLarge _ hAbove => exact .inr (.inr hAbove)
    | unfit _ hNotBelow =>
      obtain ⟨params, hParams, -⟩ := hNotBelow
      exact absurd (hEmptyMenu rfl ▸ hParams) List.not_mem_nil
  · intro hTold
    constructor
    · exact selectCheapestValidParams_isOk
    · intro feeMsat params hAnswer
      rw [hAnswer] at hOutcome
      cases hOutcome with
      | chosen hOffers hCheapest => exact ⟨hOffers, hCheapest⟩
    · intro hAnswer
      rw [hAnswer] at hOutcome
      cases hOutcome with
      | noMenu hEmpty => exact hEmpty
      | unfit hNone hNotBelow hNotAbove =>
        obtain ⟨feeMsat, params, hOffers⟩ | hBelow | hAbove := hTold
        · exact absurd hOffers (hNone _ _)
        · obtain ⟨params, hParams, hValid, hLe⟩ := hNotBelow
          exact absurd (hBelow params hParams hValid) (UInt64.not_lt.mpr hLe)
        · obtain ⟨params, hParams, hValid, hLe⟩ := hNotAbove
          exact absurd (hAbove params hParams hValid) (UInt64.not_lt.mpr hLe)
    · intro hAnswer
      rw [hAnswer] at hOutcome
      cases hOutcome with
      | expired _ _ hExpired => exact hExpired
    · intro amount least hAnswer
      rw [hAnswer] at hOutcome
      cases hOutcome with
      | tooSmall _ hBelow => exact hBelow
    · intro amount most hAnswer
      rw [hAnswer] at hOutcome
      cases hOutcome with
      | tooLarge _ hAbove => exact hAbove
    · intro fee amount hAnswer feeMsat params hOffers
      rw [hAnswer] at hOutcome
      cases hOutcome with
      | tooDear _ hCheapest hSwallows => exact UInt64.le_trans hSwallows (hCheapest _ _ hOffers)
    · intro menu' hPerm
      exact selectCheapestValidParams_perm hPerm

end

/-- An entry without a proportional fee. -/
def demoParams (minFeeMsat minPaymentSizeMsat maxPaymentSizeMsat : UInt64) : OpeningFeeParams where
  minFeeMsat := minFeeMsat
  proportional := 0
  validUntil := 1753003600
  minLifetime := 4032
  maxClientToSelfDelay := 2016
  minPaymentSizeMsat := minPaymentSizeMsat
  maxPaymentSizeMsat := maxPaymentSizeMsat
  promise := "promise"

/-- Two valid entries with a gap between their windows. -/
def gapMenu : List OpeningFeeParams := [demoParams 1000 1000000 2000000, demoParams 1000 5000000 6000000]

/-- Three thousand sats fall into the gap, and the menu of two entries is called empty. -/
theorem gap_told_empty : ¬ SelectionTruthful computeOpeningFee gapMenu 3000000 1753000000 := by
  intro h
  have hAnswer : selectCheapestValidParams computeOpeningFee gapMenu 3000000 1753000000 = .error .emptyMenu := by
    decide +kernel
  exact absurd (h.emptyMenu hAnswer) (by decide)

end WalletCore.Liquidity
