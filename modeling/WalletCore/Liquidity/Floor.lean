import Mathlib.Algebra.Order.Floor.Div
import WalletCore.Liquidity.Selection

/-! # The floor of the amount entry

Before a quote is asked for, the least amount in whole sats is read off the menu. The floor looks at the lower
ends of the windows and at the minimum fees only, so the amount it names may still be refused.
-/

namespace WalletCore.Liquidity

/-! ## The floor -/

def divCeil (value divisor : UInt64) : UInt64 := if value % divisor = 0 then value / divisor else value / divisor + 1

/-- The least amount an entry admits with something left of it; the sum wraps around. -/
def OpeningFeeParams.floorMsat (entry : OpeningFeeParams) : UInt64 :=
  max entry.minPaymentSizeMsat (entry.minFeeMsat + 1)

def computeMinReceiveSats (menu : List OpeningFeeParams) (nowUnixSecs : Nat) : UInt64 :=
  match ((menu.filter fun entry => nowUnixSecs < entry.validUntil).map (·.floorMsat)).min? with
  | some minMsat => divCeil minMsat 1000
  | none => 0

def wholeSats (sats : Nat) : Option UInt64 := if sats * 1000 < 2 ^ 64 then some (.ofNat (sats * 1000)) else none

/-- The floor is the least whole amount that the selection takes, and there is none where it takes nothing.
No sum overflows. -/
structure FloorAgrees (feeRule : FeeRule) (menu : List OpeningFeeParams) (nowUnixSecs : Nat) : Prop where
  inRange : ∀ entry ∈ menu, entry.Valid nowUnixSecs → entry.minFeeMsat.toNat + 1 < 2 ^ 64
  taken : 0 < computeMinReceiveSats menu nowUnixSecs →
    ∃ amountMsat ∈ wholeSats (computeMinReceiveSats menu nowUnixSecs).toNat,
      (selectCheapestValidParams feeRule menu amountMsat nowUnixSecs).isOk = true
  least : ∀ sats, 0 < sats → sats < (computeMinReceiveSats menu nowUnixSecs).toNat → ∀ amountMsat ∈ wholeSats sats,
    (selectCheapestValidParams feeRule menu amountMsat nowUnixSecs).isOk = false
  nothing : computeMinReceiveSats menu nowUnixSecs = 0 →
    ∀ amountMsat, (selectCheapestValidParams feeRule menu amountMsat nowUnixSecs).isOk = false

/-- Some valid entry takes the amount: it lies in the window, and both parts of the fee are below it. -/
def Takes (menu : List OpeningFeeParams) (nowUnixSecs amountMsat : Nat) : Prop :=
  ∃ entry ∈ menu, entry.Valid nowUnixSecs ∧ entry.minPaymentSizeMsat.toNat ≤ amountMsat ∧
    amountMsat ≤ entry.maxPaymentSizeMsat.toNat ∧ entry.minFeeMsat.toNat < amountMsat ∧
    amountMsat * entry.proportional.toNat + 999999 < 2 ^ 64 ∧
    (amountMsat * entry.proportional.toNat + 999999) / 1000000 < amountMsat

def roundUpToSats (amountMsat : Nat) : Nat := (amountMsat + 999) / 1000 * 1000

/-- The floor as it is computed, without regard to the word's length. -/
def OpeningFeeParams.nominalMsat (entry : OpeningFeeParams) : Nat :=
  max entry.minPaymentSizeMsat.toNat (entry.minFeeMsat.toNat + 1)

/-- The least amount in whole sats of which the entry leaves something, were there no upper end: the proportional
fee takes a single part in a million less than all from so much on. -/
def OpeningFeeParams.leastMsat (entry : OpeningFeeParams) : Nat :=
  roundUpToSats (max entry.nominalMsat (1000000 ⌈/⌉ (1000000 - entry.proportional.toNat)))

/-- No minimum fee is the largest word. Of the valid entries one takes less than everything, has the upper end of its
window, and of what a word holds, at or above its own least amount, and that is no more than any valid entry's minimum
payment and minimum fee suggest. -/
structure FloorPayable (menu : List OpeningFeeParams) (nowUnixSecs : Nat) : Prop where
  inRange : ∀ entry ∈ menu, entry.Valid nowUnixSecs → entry.minFeeMsat.toNat + 1 < 2 ^ 64
  payable : (∃ entry ∈ menu, entry.Valid nowUnixSecs) → ∃ entry ∈ menu, entry.Valid nowUnixSecs ∧
    entry.proportional.toNat < 1000000 ∧ entry.leastMsat ≤ entry.maxPaymentSizeMsat.toNat ∧
    entry.leastMsat * entry.proportional.toNat + 999999 < 2 ^ 64 ∧
    ∀ other ∈ menu, other.Valid nowUnixSecs → entry.leastMsat ≤ roundUpToSats other.nominalMsat

/-- No minimum fee is the largest word, and the least floor of the valid entries, rounded up to sats, is taken. -/
structure FloorTaken (menu : List OpeningFeeParams) (nowUnixSecs : Nat) : Prop where
  inRange : ∀ entry ∈ menu, entry.Valid nowUnixSecs → entry.minFeeMsat.toNat + 1 < 2 ^ 64
  takes : ∀ floorMsat, (∃ entry ∈ menu, entry.Valid nowUnixSecs ∧
      entry.nominalMsat = floorMsat) →
    (∀ entry ∈ menu, entry.Valid nowUnixSecs →
      floorMsat ≤ entry.nominalMsat) →
    Takes menu nowUnixSecs (roundUpToSats floorMsat)

section

variable {menu : List OpeningFeeParams} {nowUnixSecs : Nat}

theorem OpeningFeeParams.nominalMsat_pos (entry : OpeningFeeParams) : 0 < entry.nominalMsat :=
  Nat.lt_of_lt_of_le (Nat.succ_pos _) (le_max_right ..)

theorem le_roundUpToSats (amountMsat : Nat) : amountMsat ≤ roundUpToSats amountMsat := by
  rw [roundUpToSats]
  omega

theorem roundUpToSats_mono {a b : Nat} (h : a ≤ b) : roundUpToSats a ≤ roundUpToSats b :=
  Nat.mul_le_mul_right _ (Nat.div_le_div_right (Nat.add_le_add_right h _))

/-- An amount in whole sats is rounded up to itself. -/
theorem roundUpToSats_le {a b : Nat} (h : a ≤ roundUpToSats b) : roundUpToSats a ≤ roundUpToSats b := by
  rw [roundUpToSats] at h ⊢
  rw [roundUpToSats]
  omega

/-- The proportional fee leaves something just when it is less than everything and the amount is large enough. -/
theorem proportional_lt_iff {amountMsat proportional : Nat} :
    (amountMsat * proportional + 999999) / 1000000 < amountMsat ↔
      proportional < 1000000 ∧ 1000000 ⌈/⌉ (1000000 - proportional) ≤ amountMsat := by
  by_cases hLess : proportional < 1000000
  · have hLeft : amountMsat * 1000000 = amountMsat * proportional + (1000000 - proportional) * amountMsat := by
      rw [Nat.mul_comm (1000000 - proportional), ← Nat.mul_add, Nat.add_sub_cancel' hLess.le]
    rw [Nat.div_lt_iff_lt_mul (by decide), hLeft, ceilDiv_le_iff_le_mul (Nat.sub_pos_of_lt hLess)]
    omega
  · have hAll : amountMsat * 1000000 ≤ amountMsat * proportional := Nat.mul_le_mul_left _ (Nat.le_of_not_lt hLess)
    rw [Nat.div_lt_iff_lt_mul (by decide)]
    omega

theorem toNat_divCeil (value : UInt64) : (divCeil value 1000).toNat = (value.toNat + 999) / 1000 := by
  have hValue := value.toNat_lt
  have hThousand : (1000 : UInt64).toNat = 1000 := rfl
  have hZero : value % 1000 = 0 ↔ value.toNat % 1000 = 0 := by
    rw [← UInt64.toNat_inj, UInt64.toNat_mod, hThousand]
    rfl
  rw [divCeil]
  split
  · rename_i h
    rw [UInt64.toNat_div, hThousand]
    have hExact := hZero.mp h
    omega
  · rename_i h
    have hRest : value.toNat % 1000 ≠ 0 := fun hExact => h (hZero.mpr hExact)
    rw [UInt64.toNat_add, UInt64.toNat_div, hThousand, UInt64.toNat_one]
    omega

theorem toNat_max (a b : UInt64) : (max a b).toNat = max a.toNat b.toNat := by
  change (if a ≤ b then b else a).toNat = _
  split
  · rename_i hLe
    rw [UInt64.le_iff_toNat_le] at hLe
    omega
  · rename_i hLe
    rw [UInt64.le_iff_toNat_le] at hLe
    omega

theorem toNat_floorMsat {entry : OpeningFeeParams} (h : entry.minFeeMsat.toNat + 1 < 2 ^ 64) :
    entry.floorMsat.toNat = entry.nominalMsat := by
  have hSum : (entry.minFeeMsat + 1).toNat = entry.minFeeMsat.toNat + 1 := by
    rw [UInt64.toNat_add, UInt64.toNat_one]
    omega
  rw [OpeningFeeParams.floorMsat, toNat_max, hSum, OpeningFeeParams.nominalMsat]

/-- Either no entry is valid, or the floor is that of one of them and of none less. -/
theorem computeMinReceiveSats_cases (hRange : ∀ entry ∈ menu, entry.Valid nowUnixSecs → entry.minFeeMsat.toNat + 1 < 2 ^ 64) :
    (computeMinReceiveSats menu nowUnixSecs = 0 ∧ ∀ entry ∈ menu, ¬ entry.Valid nowUnixSecs) ∨
    ∃ floorMsat, (∃ entry ∈ menu, entry.Valid nowUnixSecs ∧
        entry.nominalMsat = floorMsat) ∧
      (∀ entry ∈ menu, entry.Valid nowUnixSecs →
        floorMsat ≤ entry.nominalMsat) ∧
      (computeMinReceiveSats menu nowUnixSecs).toNat = (floorMsat + 999) / 1000 := by
  have hEntries : menu.filter (fun entry => decide (nowUnixSecs < entry.validUntil)) = validEntries menu nowUnixSecs := rfl
  rw [computeMinReceiveSats, hEntries]
  cases hMin : ((validEntries menu nowUnixSecs).map (·.floorMsat)).min? with
  | none =>
    rw [List.min?_eq_none_iff, List.map_eq_nil_iff, List.eq_nil_iff_forall_not_mem] at hMin
    refine .inl ⟨rfl, ?_⟩
    intro entry hEntry hValid
    exact hMin entry (mem_validEntries.mpr ⟨hEntry, hValid⟩)
  | some minMsat =>
    obtain ⟨hMem, hLeast⟩ := List.min?_eq_some_iff.mp hMin
    obtain ⟨entry, hEntry, rfl⟩ := List.mem_map.mp hMem
    obtain ⟨hMenu, hValid⟩ := mem_validEntries.mp hEntry
    refine .inr ⟨entry.floorMsat.toNat, ?_, ?_, ?_⟩
    · exact ⟨entry, hMenu, hValid, (toNat_floorMsat (hRange entry hMenu hValid)).symm⟩
    · intro other hOther hOtherValid
      rw [← toNat_floorMsat (hRange other hOther hOtherValid), ← UInt64.le_iff_toNat_le]
      exact hLeast _ (List.mem_map.mpr ⟨other, mem_validEntries.mpr ⟨hOther, hOtherValid⟩, rfl⟩)
    · exact toNat_divCeil _

theorem wholeSats_eq_some {sats : Nat} {amountMsat : UInt64} : wholeSats sats = some amountMsat ↔ amountMsat.toNat = sats * 1000 := by
  rw [wholeSats]
  constructor
  · intro h
    split at h
    · rename_i hFits
      cases h
      exact UInt64.toNat_ofNat_of_lt' hFits
    · cases h
  · intro h
    rw [← h, if_pos amountMsat.toNat_lt, UInt64.ofNat_toNat]

theorem openingFee_below_iff {params : OpeningFeeParams} {amountMsat : UInt64} :
    (∃ feeMsat, params.openingFee computeOpeningFee amountMsat = some feeMsat ∧ feeMsat < amountMsat) ↔
      params.minFeeMsat.toNat < amountMsat.toNat ∧ amountMsat.toNat * params.proportional.toNat + 999999 < 2 ^ 64 ∧
      (amountMsat.toNat * params.proportional.toNat + 999999) / 1000000 < amountMsat.toNat := by
  rw [OpeningFeeParams.openingFee, computeOpeningFee]
  split
  · rename_i hFits
    have hScaled : (UInt64.ofNat ((amountMsat.toNat * params.proportional.toNat + 999999) / 1000000)).toNat =
        (amountMsat.toNat * params.proportional.toNat + 999999) / 1000000 := UInt64.toNat_ofNat_of_lt' (by
      rw [UInt64.size]
      omega)
    simp only [Option.some.injEq, exists_eq_left', UInt64.lt_iff_toNat_lt, toNat_max, hScaled]
    omega
  · rename_i hOverflow
    apply iff_of_false
    · rintro ⟨feeMsat, hNone, -⟩
      cases hNone
    · rintro ⟨-, hFits, -⟩
      exact hOverflow hFits

theorem offers_below_iff {amountMsat : UInt64} :
    (∃ feeMsat params, Offers computeOpeningFee menu amountMsat nowUnixSecs feeMsat params ∧ feeMsat < amountMsat) ↔
      Takes menu nowUnixSecs amountMsat.toNat := by
  constructor
  · rintro ⟨feeMsat, params, hOffers, hBelow⟩
    obtain ⟨hMin, hMax⟩ := hOffers.fits
    exact ⟨params, hOffers.listed, hOffers.valid, UInt64.le_iff_toNat_le.mp hMin, UInt64.le_iff_toNat_le.mp hMax,
      openingFee_below_iff.mp ⟨feeMsat, hOffers.asks, hBelow⟩⟩
  · rintro ⟨params, hListed, hValid, hMin, hMax, hFee⟩
    obtain ⟨feeMsat, hAsks, hBelow⟩ := openingFee_below_iff.mpr hFee
    refine ⟨feeMsat, params, ⟨hListed, hValid, ⟨?_, ?_⟩, hAsks⟩, hBelow⟩
    · exact UInt64.le_iff_toNat_le.mpr hMin
    · exact UInt64.le_iff_toNat_le.mpr hMax

theorem selects_iff_takes {amountMsat : UInt64} :
    (selectCheapestValidParams computeOpeningFee menu amountMsat nowUnixSecs).isOk = true ↔
      Takes menu nowUnixSecs amountMsat.toNat :=
  selectCheapestValidParams_isOk.trans offers_below_iff

theorem not_takes_of_lt {floorMsat amountMsat : Nat}
    (hFloor : ∀ entry ∈ menu, entry.Valid nowUnixSecs → floorMsat ≤ entry.nominalMsat) (hLt : amountMsat < floorMsat) :
    ¬ Takes menu nowUnixSecs amountMsat := by
  rintro ⟨entry, hEntry, hValid, hMin, -, hFee, -⟩
  have hLe := hFloor entry hEntry hValid
  rw [OpeningFeeParams.nominalMsat] at hLe
  omega

/-- Where every entry is expired, the floor is zero and nothing is selected. -/
theorem floorAgrees_of_expired (hRange : ∀ entry ∈ menu, entry.Valid nowUnixSecs → entry.minFeeMsat.toNat + 1 < 2 ^ 64)
    (hZero : computeMinReceiveSats menu nowUnixSecs = 0) (hExpired : ∀ entry ∈ menu, ¬ entry.Valid nowUnixSecs) :
    FloorAgrees computeOpeningFee menu nowUnixSecs where
  inRange := hRange
  taken hPos := by
    rw [hZero] at hPos
    exact absurd hPos (by decide)
  least sats _ hLt := by
    rw [hZero] at hLt
    exact absurd hLt (Nat.not_lt_zero _)
  nothing _ amountMsat := by
    rw [Bool.eq_false_iff, Ne, selects_iff_takes]
    rintro ⟨entry, hEntry, hValid, -⟩
    exact hExpired entry hEntry hValid

section

variable {floorMsat : Nat} (hReached : ∃ entry ∈ menu, entry.Valid nowUnixSecs ∧ entry.nominalMsat = floorMsat)
  (hFloor : ∀ entry ∈ menu, entry.Valid nowUnixSecs → floorMsat ≤ entry.nominalMsat)
  (hSats : (computeMinReceiveSats menu nowUnixSecs).toNat = (floorMsat + 999) / 1000)

include hReached

theorem floor_pos : 0 < floorMsat := by
  obtain ⟨entry, -, -, rfl⟩ := hReached
  exact entry.nominalMsat_pos

include hSats

/-- The amount that is taken is the least floor of the valid entries, rounded up. -/
theorem FloorAgrees.takes (h : FloorAgrees computeOpeningFee menu nowUnixSecs) :
    Takes menu nowUnixSecs (roundUpToSats floorMsat) := by
  have hPos := floor_pos hReached
  have hNamed : 0 < computeMinReceiveSats menu nowUnixSecs := by
    rw [UInt64.lt_iff_toNat_lt, hSats, UInt64.toNat_zero]
    omega
  obtain ⟨amountMsat, hAmount, hOk⟩ := h.taken hNamed
  rw [Option.mem_def, wholeSats_eq_some, hSats] at hAmount
  rw [roundUpToSats, ← hAmount]
  exact selects_iff_takes.mp hOk

include hFloor

theorem floorAgrees_of_takes
    (hRange : ∀ entry ∈ menu, entry.Valid nowUnixSecs → entry.minFeeMsat.toNat + 1 < 2 ^ 64)
    (hTakes : Takes menu nowUnixSecs (roundUpToSats floorMsat)) : FloorAgrees computeOpeningFee menu nowUnixSecs where
  inRange := hRange
  taken _ := by
    have hFits : roundUpToSats floorMsat < 2 ^ 64 := by
      obtain ⟨entry, -, -, -, hMax, -⟩ := hTakes
      exact hMax.trans_lt entry.maxPaymentSizeMsat.toNat_lt
    have hAmount : (UInt64.ofNat (roundUpToSats floorMsat)).toNat = roundUpToSats floorMsat :=
      UInt64.toNat_ofNat_of_lt' hFits
    refine ⟨.ofNat (roundUpToSats floorMsat), ?_, ?_⟩
    · rw [Option.mem_def, wholeSats_eq_some, hSats, hAmount, roundUpToSats]
    · rw [selects_iff_takes, hAmount]
      exact hTakes
  least sats hSatsPos hLt amountMsat hAmount := by
    rw [Option.mem_def, wholeSats_eq_some] at hAmount
    rw [Bool.eq_false_iff, Ne, selects_iff_takes]
    apply not_takes_of_lt hFloor
    rw [hSats] at hLt
    omega
  nothing hZero := by
    have hPos := floor_pos hReached
    rw [hZero, UInt64.toNat_zero] at hSats
    omega

end

/-- The floor agrees with the selection exactly where the amount it names is taken. -/
theorem floorAgrees_iff_taken : FloorAgrees computeOpeningFee menu nowUnixSecs ↔ FloorTaken menu nowUnixSecs := by
  constructor
  · intro h
    refine ⟨h.inRange, fun floorMsat hReached hFloor => ?_⟩
    obtain ⟨-, hExpired⟩ | ⟨leastMsat, hLeast, hLeastFloor, hSats⟩ := computeMinReceiveSats_cases h.inRange
    · obtain ⟨entry, hEntry, hValid, -⟩ := hReached
      exact absurd hValid (hExpired entry hEntry)
    · have hSame : leastMsat = floorMsat := by
        obtain ⟨entry, hEntry, hValid, rfl⟩ := hReached
        obtain ⟨other, hOther, hOtherValid, rfl⟩ := hLeast
        exact le_antisymm (hLeastFloor entry hEntry hValid) (hFloor other hOther hOtherValid)
      rw [← hSame]
      exact h.takes hLeast hSats
  · intro h
    obtain ⟨hZero, hExpired⟩ | ⟨floorMsat, hReached, hFloor, hSats⟩ := computeMinReceiveSats_cases h.inRange
    · exact floorAgrees_of_expired h.inRange hZero hExpired
    · exact floorAgrees_of_takes hReached hFloor hSats h.inRange (h.takes floorMsat hReached hFloor)

/-- Of an amount in whole sats an entry leaves something just from its own least amount on. -/
theorem leastMsat_le_iff {entry : OpeningFeeParams} {amountMsat : Nat} :
    entry.proportional.toNat < 1000000 ∧ entry.leastMsat ≤ roundUpToSats amountMsat ↔
      entry.minPaymentSizeMsat.toNat ≤ roundUpToSats amountMsat ∧ entry.minFeeMsat.toNat < roundUpToSats amountMsat ∧
      (roundUpToSats amountMsat * entry.proportional.toNat + 999999) / 1000000 < roundUpToSats amountMsat := by
  have hLeast : entry.leastMsat ≤ roundUpToSats amountMsat ↔
      entry.nominalMsat ≤ roundUpToSats amountMsat ∧
        1000000 ⌈/⌉ (1000000 - entry.proportional.toNat) ≤ roundUpToSats amountMsat :=
    ⟨fun h => max_le_iff.mp ((le_roundUpToSats _).trans h), fun h => roundUpToSats_le (max_le_iff.mpr h)⟩
  rw [hLeast, proportional_lt_iff, OpeningFeeParams.nominalMsat, max_le_iff, Nat.add_one_le_iff]
  constructor
  · rintro ⟨hLess, ⟨hMin, hFee⟩, hLeft⟩
    exact ⟨hMin, hFee, hLess, hLeft⟩
  · rintro ⟨hMin, hFee, hLess, hLeft⟩
    exact ⟨hLess, ⟨hMin, hFee⟩, hLeft⟩

/-- The amount that the floor names is taken exactly where one entry's own least amount is the nominal one. -/
theorem floorTaken_iff_payable : FloorTaken menu nowUnixSecs ↔ FloorPayable menu nowUnixSecs := by
  constructor
  · intro h
    refine ⟨h.inRange, fun hSome => ?_⟩
    obtain ⟨-, hExpired⟩ | ⟨floorMsat, hReached, hFloor, -⟩ := computeMinReceiveSats_cases h.inRange
    · obtain ⟨entry, hEntry, hValid⟩ := hSome
      exact absurd hValid (hExpired entry hEntry)
    · obtain ⟨entry, hEntry, hValid, hMin, hMax, hFee, hFits, hLeft⟩ := h.takes floorMsat hReached hFloor
      obtain ⟨hLess, hLeast⟩ := leastMsat_le_iff.mpr ⟨hMin, hFee, hLeft⟩
      refine ⟨entry, hEntry, hValid, hLess, hLeast.trans hMax, ?_, ?_⟩
      · have hScaled := Nat.mul_le_mul_right entry.proportional.toNat hLeast
        omega
      · intro other hOther hOtherValid
        exact hLeast.trans (roundUpToSats_mono (hFloor other hOther hOtherValid))
  · intro h
    refine ⟨h.inRange, ?_⟩
    rintro floorMsat ⟨lowest, hLowest, hLowestValid, rfl⟩ hFloor
    obtain ⟨entry, hEntry, hValid, hLess, hMax, hFits, hOthers⟩ := h.payable ⟨lowest, hLowest, hLowestValid⟩
    have hNominal : roundUpToSats lowest.nominalMsat ≤ entry.leastMsat :=
      roundUpToSats_mono ((hFloor entry hEntry hValid).trans (le_max_left ..))
    have hSame : entry.leastMsat = roundUpToSats lowest.nominalMsat :=
      le_antisymm (hOthers lowest hLowest hLowestValid) hNominal
    obtain ⟨hMin, hFee, hLeft⟩ := leastMsat_le_iff.mp ⟨hLess, hSame.le⟩
    rw [hSame] at hMax hFits
    exact ⟨entry, hEntry, hValid, hMin, hMax, hFee, hFits, hLeft⟩

end

/-- The floor agrees with the selection exactly where some entry can be paid what the lower ends suggest. -/
theorem floor_agrees_iff {menu : List OpeningFeeParams} {nowUnixSecs : Nat} :
    FloorAgrees computeOpeningFee menu nowUnixSecs ↔ FloorPayable menu nowUnixSecs :=
  floorAgrees_iff_taken.trans floorTaken_iff_payable

/-- One entry whose proportional fee takes everything. -/
def greedyMenu : List OpeningFeeParams := [{ demoParams 1000 1000000 100000000 with proportional := 1000000 }]

/-- One entry whose window holds no whole amount. -/
def narrowMenu : List OpeningFeeParams := [demoParams 1000 1000500 1000800]

/-- One entry whose minimum fee is the largest word. -/
def saturatedMenu : List OpeningFeeParams := [demoParams 18446744073709551615 1000000 100000000]

/-- All three have a floor, of a thousand sats or of one more, and none of them takes it. -/
theorem named_floor_refused : ¬ FloorAgrees computeOpeningFee greedyMenu 1753000000 ∧
    ¬ FloorAgrees computeOpeningFee narrowMenu 1753000000 ∧ ¬ FloorAgrees computeOpeningFee saturatedMenu 1753000000 := by
  refine ⟨fun h => ?_, fun h => ?_, fun h => ?_⟩
  · obtain ⟨amountMsat, hAmount, hOk⟩ := h.taken (by decide +kernel)
    have hThousand : wholeSats (computeMinReceiveSats greedyMenu 1753000000).toNat = some 1000000 := by decide +kernel
    rw [Option.mem_def, hThousand, Option.some.injEq] at hAmount
    subst hAmount
    exact absurd hOk (by decide +kernel)
  · obtain ⟨amountMsat, hAmount, hOk⟩ := h.taken (by decide +kernel)
    have hNext : wholeSats (computeMinReceiveSats narrowMenu 1753000000).toNat = some 1001000 := by decide +kernel
    rw [Option.mem_def, hNext, Option.some.injEq] at hAmount
    subst hAmount
    exact absurd hOk (by decide +kernel)
  · exact absurd (h.inRange (demoParams 18446744073709551615 1000000 100000000) (by decide) (by decide)) (by decide)

end WalletCore.Liquidity
