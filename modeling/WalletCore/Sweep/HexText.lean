import WalletCore.Sweep.Frozen
import WalletCore.Sweep.Pass

/-! # Texts that are no hex

The decoder takes two bytes of the text at a time and reads them as a number of two places. Such a
number may begin with a plus, and two bytes may be half a character.
-/

namespace WalletCore.Sweep

open Lib
open Restore (hexStr hexByte)
open Wallet hiding Psbt

/-! ## Spellings -/

/-- An even number of hex digits, two for each byte. -/
inductive Spells : List Char → List UInt8 → Prop where
  | nil : Spells [] []
  | pair {high low : Char} {x y : Nat} {text : List Char} {bytes : List UInt8} (hHigh : hexDigit high = some x)
    (hLow : hexDigit low = some y) (h : Spells text bytes) :
    Spells (high :: low :: text) (.ofNat (x * 16 + y) :: bytes)

/-- The same, where a plus may stand for the first digit of a pair. -/
inductive SpellsSigned : List Char → List UInt8 → Prop where
  | nil : SpellsSigned [] []
  | pair {high low : Char} {x y : Nat} {text : List Char} {bytes : List UInt8} (hHigh : hexDigit high = some x)
    (hLow : hexDigit low = some y) (h : SpellsSigned text bytes) :
    SpellsSigned (high :: low :: text) (.ofNat (x * 16 + y) :: bytes)
  | plus {low : Char} {y : Nat} {text : List Char} {bytes : List UInt8} (hLow : hexDigit low = some y)
    (h : SpellsSigned text bytes) : SpellsSigned ('+' :: low :: text) (.ofNat y :: bytes)

/-- The first two bytes of the text are no whole characters. -/
def Straddles : List Char → Prop
  | [] => False
  | c :: text => 2 < c.utf8Size ∨ c.utf8Size = 1 ∧ ∃ d ∈ text.head?, 1 < d.utf8Size

/-- Of even length, and cut inside a character behind pairs that are numbers. -/
def CutInside (text : String) : Prop :=
  (text.toList.map Char.utf8Size).sum % 2 = 0 ∧
    ∃ front bytes rest, text.toList = front ++ rest ∧ SpellsSigned front bytes ∧ Straddles rest

/-- Nothing but pairs that are numbers, some of them with a plus. -/
def Signed (text : String) : Prop := ∃ bytes, SpellsSigned text.toList bytes ∧ '+' ∈ text.toList

theorem hexDigit_lt {c : Char} {x : Nat} (h : hexDigit c = some x) : x < 16 ∧ c.utf8Size = 1 ∧ c ≠ '+' := by
  have hRange : 48 ≤ c.toNat ∧ c.toNat ≤ 57 ∧ x = c.toNat - 48 ∨ 97 ≤ c.toNat ∧ c.toNat ≤ 102 ∧ x = c.toNat - 87 ∨
      65 ≤ c.toNat ∧ c.toNat ≤ 70 ∧ x = c.toNat - 55 := by
    rw [hexDigit] at h
    simp only [Char.le_def, UInt32.le_iff_toNat_le] at h
    split_ifs at h with hDecimal hLower hUpper
    · cases h
      exact .inl ⟨hDecimal.1, hDecimal.2, rfl⟩
    · cases h
      refine .inr (.inl ⟨hLower.1, hLower.2, ?_⟩)
      change c.toNat - 97 + 10 = _
      have hLe : 97 ≤ c.toNat := hLower.1
      omega
    · cases h
      refine .inr (.inr ⟨hUpper.1, hUpper.2, ?_⟩)
      change c.toNat - 65 + 10 = _
      have hLe : 65 ≤ c.toNat := hUpper.1
      omega
  refine ⟨by omega, ?_, ?_⟩
  · rw [Char.utf8Size_eq_one_iff, UInt32.le_iff_toNat_le]
    change c.toNat ≤ 127
    omega
  · rintro rfl
    change 48 ≤ 43 ∧ _ ∨ 97 ≤ 43 ∧ _ ∨ 65 ≤ 43 ∧ _ at hRange
    omega

theorem spells_iff {text : List Char} {bytes : List UInt8} :
    Spells text bytes ↔ SpellsSigned text bytes ∧ '+' ∉ text := by
  constructor
  · intro h
    induction h with
    | nil => exact ⟨.nil, List.not_mem_nil⟩
    | pair hHigh hLow h ih =>
      refine ⟨.pair hHigh hLow ih.1, ?_⟩
      simp only [List.mem_cons, not_or]
      exact ⟨(hexDigit_lt hHigh).2.2.symm, (hexDigit_lt hLow).2.2.symm, ih.2⟩
  · rintro ⟨h, hPlain⟩
    induction h with
    | nil => exact .nil
    | pair hHigh hLow h ih =>
      simp only [List.mem_cons, not_or] at hPlain
      exact .pair hHigh hLow (ih hPlain.2.2)
    | plus hLow h ih => exact absurd List.mem_cons_self hPlain

/-! ## What the decoder reads -/

theorem hexPair_eq_some {first second : Char} {byte : UInt8} (h : hexPair first second = some byte) :
    ∃ y, hexDigit second = some y ∧
      (first = '+' ∧ byte = .ofNat y ∨ ∃ x, hexDigit first = some x ∧ byte = .ofNat (x * 16 + y)) := by
  rw [hexPair, Option.bind_eq_bind, Option.bind_eq_some_iff] at h
  obtain ⟨y, hLow, h⟩ := h
  refine ⟨y, hLow, ?_⟩
  split at h
  · next hPlus =>
    cases h
    exact .inl ⟨hPlus, rfl⟩
  · obtain ⟨x, hHigh, h⟩ := Option.bind_eq_some_iff.mp h
    cases h
    exact .inr ⟨x, hHigh, rfl⟩

theorem hexPair_digits {high low : Char} {x y : Nat} (hHigh : hexDigit high = some x) (hLow : hexDigit low = some y) :
    hexPair high low = some (.ofNat (x * 16 + y)) := by
  rw [hexPair, hLow, hHigh]
  exact if_neg (hexDigit_lt hHigh).2.2

theorem hexPair_plus {low : Char} {y : Nat} (hLow : hexDigit low = some y) : hexPair '+' low = some (.ofNat y) := by
  rw [hexPair, hLow]
  rfl

theorem decodePairs_cons {first second : Char} {byte : UInt8} (text : List Char) (hFirst : first.utf8Size = 1)
    (hSecond : second.utf8Size = 1) (hPair : hexPair first second = some byte) :
    decodePairs (first :: second :: text) =
      match decodePairs text with
      | .bytes bytes => .bytes (byte :: bytes)
      | failure => failure := by
  rewrite [decodePairs, if_neg (by omega), if_neg (by omega), hPair]
  rfl

theorem hexPair_ascii {first second : Char} {byte : UInt8} (h : hexPair first second = some byte) :
    first.utf8Size = 1 ∧ second.utf8Size = 1 := by
  obtain ⟨y, hLow, ⟨rfl, -⟩ | ⟨x, hHigh, -⟩⟩ := hexPair_eq_some h
  · exact ⟨rfl, (hexDigit_lt hLow).2.1⟩
  · exact ⟨(hexDigit_lt hHigh).2.1, (hexDigit_lt hLow).2.1⟩

theorem SpellsSigned.cons {first second : Char} {byte : UInt8} {text : List Char} {bytes : List UInt8}
    (hPair : hexPair first second = some byte) (h : SpellsSigned text bytes) :
    SpellsSigned (first :: second :: text) (byte :: bytes) := by
  obtain ⟨y, hLow, ⟨rfl, rfl⟩ | ⟨x, hHigh, rfl⟩⟩ := hexPair_eq_some hPair
  · exact .plus hLow h
  · exact .pair hHigh hLow h

theorem decodePairs_of_spells {text : List Char} {bytes : List UInt8} (h : SpellsSigned text bytes) (rest : List Char) :
    decodePairs (text ++ rest) =
      match decodePairs rest with
      | .bytes others => .bytes (bytes ++ others)
      | failure => failure := by
  induction h with
  | nil => cases hRest : decodePairs rest <;> simp [hRest]
  | pair hHigh hLow h ih =>
    rw [List.cons_append, List.cons_append,
      decodePairs_cons _ (hexDigit_lt hHigh).2.1 (hexDigit_lt hLow).2.1 (hexPair_digits hHigh hLow), ih]
    cases decodePairs rest <;> rfl
  | plus hLow h ih =>
    rw [List.cons_append, List.cons_append, decodePairs_cons _ rfl (hexDigit_lt hLow).2.1 (hexPair_plus hLow), ih]
    cases decodePairs rest <;> rfl

theorem hexPair_rest_even {first second : Char} {byte : UInt8} {text : List Char}
    (hPair : hexPair first second = some byte) (hEven : ((first :: second :: text).map Char.utf8Size).sum % 2 = 0) :
    (text.map Char.utf8Size).sum % 2 = 0 := by
  obtain ⟨hFirst, hSecond⟩ := hexPair_ascii hPair
  simp only [List.map_cons, List.sum_cons] at hEven
  omega

/-- What the decoder returns is one of three things about the text. -/
theorem decodePairs_cases (text : List Char) (hEven : (text.map Char.utf8Size).sum % 2 = 0) :
    (∃ bytes, decodePairs text = .bytes bytes ∧ SpellsSigned text bytes) ∨
    (decodePairs text = .panics ∧ ∃ front bytes rest, text = front ++ rest ∧ SpellsSigned front bytes ∧ Straddles rest) ∨
    decodePairs text = .invalid := by
  fun_induction decodePairs text with
  | case1 => exact .inl ⟨[], rfl, .nil⟩
  | case2 c hSize => exact .inr (.inr rfl)
  | case3 c hSize =>
    have hPos := c.utf8Size_pos
    simp only [List.map_cons, List.map_nil, List.sum_cons, List.sum_nil] at hEven
    exact .inr (.inl ⟨rfl, [], [], [c], rfl, .nil, .inl (by omega)⟩)
  | case4 first second rest hSize => exact .inr (.inr rfl)
  | case5 first second rest hSize hWide =>
    refine .inr (.inl ⟨rfl, [], [], _, rfl, .nil, ?_⟩)
    have hFirst := first.utf8Size_pos
    have hSecond := second.utf8Size_pos
    by_cases hOne : first.utf8Size = 1
    · exact .inr ⟨hOne, second, rfl, by omega⟩
    · exact .inl (by omega)
  | case6 first second rest hSize hWide hPair => exact .inr (.inr rfl)
  | case7 first second rest hSize hWide byte hPair bytes hRest ih =>
    obtain ⟨others, hBytes, hSpells⟩ | ⟨hPanics, -⟩ | hInvalid := ih (hexPair_rest_even hPair hEven)
    · rw [hRest] at hBytes
      cases hBytes
      exact .inl ⟨_, rfl, hSpells.cons hPair⟩
    · rw [hRest] at hPanics
      cases hPanics
    · rw [hRest] at hInvalid
      cases hInvalid
  | case8 first second rest hSize hWide byte hPair hFailure ih =>
    obtain ⟨others, hBytes, -⟩ | ⟨hPanics, front, bytes, cut, rfl, hSpells, hCut⟩ | hInvalid :=
      ih (hexPair_rest_even hPair hEven)
    · exact absurd hBytes (hFailure others)
    · exact .inr (.inl ⟨hPanics, first :: second :: front, _, cut, rfl, hSpells.cons hPair, hCut⟩)
    · exact .inr (.inr hInvalid)

theorem decodePairs_straddles {text : List Char} (h : Straddles text) : decodePairs text = .panics := by
  match text, h with
  | [c], .inl hSize => rw [decodePairs, if_neg (by omega)]
  | [c], .inr ⟨_, d, hd, _⟩ => cases hd
  | c :: d :: rest, .inl hSize => rw [decodePairs, if_neg (by omega), if_pos (.inl (by omega))]
  | c :: d :: rest, .inr ⟨hOne, e, he, hSize⟩ =>
    cases he
    rw [decodePairs, if_neg (by omega), if_pos (.inr (by omega))]

theorem SpellsSigned.even {text : List Char} {bytes : List UInt8} (h : SpellsSigned text bytes) :
    (text.map Char.utf8Size).sum % 2 = 0 := by
  induction h with
  | nil => rfl
  | pair hHigh hLow h ih =>
    have hHighSize := (hexDigit_lt hHigh).2.1
    have hLowSize := (hexDigit_lt hLow).2.1
    simp only [List.map_cons, List.sum_cons]
    omega
  | plus hLow h ih =>
    have hLowSize := (hexDigit_lt hLow).2.1
    have hPlusSize : '+'.utf8Size = 1 := rfl
    simp only [List.map_cons, List.sum_cons]
    omega

theorem decodeHex_bytes_iff {text : String} {bytes : List UInt8} :
    decodeHex text = .bytes bytes ↔ SpellsSigned text.toList bytes := by
  rw [decodeHex]
  constructor
  · intro h
    split at h
    · cases h
    · next hEven =>
      obtain ⟨others, hBytes, hSpells⟩ | ⟨hPanics, -⟩ | hInvalid := decodePairs_cases text.toList (by omega)
      · rw [hBytes] at h
        cases h
        exact hSpells
      · rw [hPanics] at h
        cases h
      · rw [hInvalid] at h
        cases h
  · intro h
    have hEven := h.even
    have hDecoded := decodePairs_of_spells h []
    rw [List.append_nil] at hDecoded
    rw [if_neg (by omega), hDecoded]
    simp [decodePairs]

theorem decodeHex_panics_iff {text : String} : decodeHex text = .panics ↔ CutInside text := by
  rw [decodeHex, CutInside]
  constructor
  · intro h
    split at h
    · cases h
    · next hOdd =>
      have hEven : (text.toList.map Char.utf8Size).sum % 2 = 0 := by omega
      obtain ⟨others, hBytes, -⟩ | ⟨-, hCut⟩ | hInvalid := decodePairs_cases text.toList hEven
      · rw [hBytes] at h
        cases h
      · exact ⟨hEven, hCut⟩
      · rw [hInvalid] at h
        cases h
  · rintro ⟨hEven, front, bytes, rest, hText, hSpells, hCut⟩
    rw [if_neg (by omega), hText, decodePairs_of_spells hSpells, decodePairs_straddles hCut]

/-- The decoder agrees with hex on this text. -/
structure ExactOn (text : String) : Prop where
  bytes_iff (bytes : List UInt8) : decodeHex text = .bytes bytes ↔ Spells text.toList bytes
  returns : decodeHex text ≠ .panics

theorem exactOn_iff (text : String) : ExactOn text ↔ ¬ Signed text ∧ ¬ CutInside text := by
  rw [← decodeHex_panics_iff]
  constructor
  · intro h
    refine ⟨?_, h.returns⟩
    rintro ⟨bytes, hSpells, hPlus⟩
    have hStrict := (h.bytes_iff bytes).mp (decodeHex_bytes_iff.mpr hSpells)
    exact (spells_iff.mp hStrict).2 hPlus
  · rintro ⟨hUnsigned, hReturns⟩
    refine ⟨fun bytes => ?_, hReturns⟩
    rw [decodeHex_bytes_iff, spells_iff]
    constructor
    · intro hSpells
      exact ⟨hSpells, fun hPlus => hUnsigned ⟨bytes, hSpells, hPlus⟩⟩
    · exact And.left

/-! ## What stops the sweeps -/

section

variable (signer : Signer) (keys : Descriptors)

/-- The text reads as a descriptor. -/
def Signer.Stored (text : String) : Prop :=
  ∃ bytes, SpellsSigned text.toList bytes ∧ (signer.read bytes).isSome = true

/-- Behind texts that read comes one that is cut inside a character. -/
def Signer.Jams (entry : StoredEntry) : Prop :=
  ∃ before text after, entry.descriptors = before ++ text :: after ∧ (∀ earlier ∈ before, signer.Stored earlier) ∧
    CutInside text

/-- The call comes back and lets the next one in. -/
structure PassResult.Returns (result : PassResult) : Prop where
  summary : result.summary.isSome = true
  idle : result.engine.inProgress = false

/-- Whatever lies on disk when a pass starts. -/
def SweepEngine.finds (e : SweepEngine) (files : StringMap Bytes) : SweepEngine :=
  { e with store := { e.store with files := files } }

/-- The calls of a session, each with the files that it finds. -/
def sweeps (steps : List (StringMap Bytes × PassEnv)) (e : SweepEngine) : SweepEngine :=
  steps.foldl (fun e step => (sweepOnce signer keys step.2 (e.finds step.1)).engine) e

def Jammed (files : StringMap Bytes) (listing : List String) : Prop :=
  ∃ entry ∈ (SweepStore.new files).entries listing.dedup, signer.Jams entry.2

end

section

variable {signer : Signer} {keys : Descriptors} {env : PassEnv} {e : SweepEngine}

theorem stored_iff {text : String} : signer.Stored text ↔ signer.readable text = true := by
  rw [Signer.Stored, Signer.readable, Signer.descriptorOf]
  constructor
  · rintro ⟨bytes, hSpells, hRead⟩
    rw [decodeHex_bytes_iff.mpr hSpells]
    exact hRead
  · intro h
    split at h
    · next bytes hBytes => exact ⟨bytes, decodeHex_bytes_iff.mp hBytes, h⟩
    · cases h

theorem jams_iff {entry : StoredEntry} : signer.Jams entry ↔ signer.Panics entry := by
  simp only [Signer.Jams, Signer.Panics, stored_iff, ← decodeHex_panics_iff, Option.mem_def, List.find?_eq_some_iff_append]
  constructor
  · rintro ⟨before, text, after, hTexts, hBefore, hPanics⟩
    have hUnreadable : signer.readable text = false := by simp [Signer.readable, Signer.descriptorOf, hPanics]
    refine ⟨text, ⟨by simp [hUnreadable], before, after, hTexts, ?_⟩, hPanics⟩
    intro earlier hEarlier
    simp [hBefore earlier hEarlier]
  · rintro ⟨text, ⟨-, before, after, hTexts, hBefore⟩, hPanics⟩
    refine ⟨before, text, after, hTexts, ?_, hPanics⟩
    intro earlier hEarlier
    simpa using hBefore earlier hEarlier

theorem sendPlain_summary (g : Gathered) (batch : List BatchMember) (tx : Transaction) :
    (sendPlain signer env e g batch tx).summary.isSome = true := by
  rw [sendPlain]
  split
  · rfl
  · split <;> rfl

theorem sendSubsidized_summary (g : Gathered) (batch : List BatchMember) (destination : Script) :
    (sendSubsidized signer keys env e g batch destination).summary.isSome = true := by
  dsimp only [sendSubsidized]
  split <;> rfl

theorem sweepGathered_summary (g : Gathered) : (sweepGathered signer keys env e g).summary.isSome = true := by
  dsimp only [sweepGathered]
  split
  · rfl
  · split
    · rfl
    · split
      · rfl
      · split
        · exact sendPlain_summary _ _ _
        · exact sendSubsidized_summary _ _ _

theorem sweepPass_returns_iff :
    (sweepPass signer keys env e).summary.isSome = true ↔ ¬ Jammed signer e.store.files env.listing := by
  have hPanics : (gatherEntries signer keys env.revealError (env.storeFails .pruneEntry)
      (e.store.entries env.listing.dedup) (.start e.store e.wallet)).1 = true ↔ Jammed signer e.store.files env.listing := by
    rw [gatherEntries_panics_iff (by simp [Gathered.start])]
    exact exists_congr fun entry => and_congr_right fun _ => jams_iff.symm
  rw [← hPanics, sweepPass]
  split
  · next hEmpty => simp [hEmpty, gatherEntries]
  · dsimp only [prune]
    cases hRun : (gatherEntries signer keys env.revealError (env.storeFails .pruneEntry)
      (e.store.entries env.listing.dedup) (.start e.store e.wallet)).1 with
    | true => simp
    | false => simpa using sweepGathered_summary _

theorem sweepOnce_idle (hIdle : e.inProgress = false) :
    (sweepOnce signer keys env e).summary = (sweepPass signer keys env { e with inProgress := true }).summary ∧
      (sweepOnce signer keys env e).engine.inProgress =
        (sweepPass signer keys env { e with inProgress := true }).summary.isNone := by
  rw [sweepOnce, if_neg (by simp [hIdle])]
  exact ⟨rfl, rfl⟩

/-- Once a call has not come back, every later one is turned away. -/
theorem sweepOnce_busy (hBusy : e.inProgress = true) : sweepOnce signer keys env e = ⟨e, some .default, none⟩ :=
  if_pos hBusy

theorem sweepOnce_flag (hIdle : e.inProgress = false) :
    (sweepOnce signer keys env e).engine.inProgress = false ↔ ¬ Jammed signer e.store.files env.listing := by
  obtain ⟨hSummary, hFlag⟩ : _ ∧ (sweepOnce signer keys env e).engine.inProgress = _ := sweepOnce_idle hIdle
  rw [hFlag, Option.isNone_eq_false_iff]
  exact sweepPass_returns_iff

theorem sweepOnce_returns_iff (hIdle : e.inProgress = false) :
    (sweepOnce signer keys env e).Returns ↔ ¬ Jammed signer e.store.files env.listing := by
  rw [← sweepOnce_flag hIdle]
  constructor
  · exact PassResult.Returns.idle
  · intro hFlag
    refine ⟨?_, hFlag⟩
    obtain ⟨hSummary, hNone⟩ : _ ∧ (sweepOnce signer keys env e).engine.inProgress = _ := sweepOnce_idle hIdle
    rw [hNone, Option.isNone_eq_false_iff] at hFlag
    rwa [hSummary]

theorem sweeps_busy (steps : List (StringMap Bytes × PassEnv)) (hBusy : e.inProgress = true) :
    (sweeps signer keys steps e).inProgress = true := by
  induction steps generalizing e with
  | nil => exact hBusy
  | cons step rest ih =>
    rw [sweeps, List.foldl_cons, sweepOnce_busy (show (e.finds step.1).inProgress = true from hBusy)]
    exact ih hBusy

theorem sweeps_idle_iff (steps : List (StringMap Bytes × PassEnv)) (hIdle : e.inProgress = false) :
    (sweeps signer keys steps e).inProgress = false ↔ ∀ step ∈ steps, ¬ Jammed signer step.1 step.2.listing := by
  induction steps generalizing e with
  | nil => simp [sweeps, hIdle]
  | cons step rest ih =>
    have hStep : (sweepOnce signer keys step.2 (e.finds step.1)).engine.inProgress = false ↔ _ :=
      sweepOnce_flag (show (e.finds step.1).inProgress = false from hIdle)
    rw [List.forall_mem_cons, sweeps, List.foldl_cons]
    cases hNext : (sweepOnce signer keys step.2 (e.finds step.1)).engine.inProgress with
    | true =>
      -- The flag stays, whatever the later calls would find.
      have hStuck : (sweeps signer keys rest _).inProgress = true := sweeps_busy rest hNext
      rw [hNext] at hStep
      apply iff_of_false
      · exact fun h => Bool.noConfusion (hStuck.symm.trans h)
      · exact fun h => absurd (hStep.mpr h.1) Bool.noConfusion
    | false =>
      refine (ih hNext).trans ?_
      exact (and_iff_right (hStep.mp hNext)).symm

end

/-- The decoder is exact on a text, and a sweep comes back, unless a plus stands in a pair or a pair is
cut inside a character. -/
theorem hex_exact_and_sweeps_return_iff (text : String) (signer : Signer) (keys : Descriptors) (e : SweepEngine) :
    (ExactOn text ↔ ¬ Signed text ∧ ¬ CutInside text) ∧
    (e.inProgress = false →
      (∀ env, (sweepOnce signer keys env e).Returns ↔ ¬ Jammed signer e.store.files env.listing) ∧
      ∀ steps, (sweeps signer keys steps e).inProgress = false ↔
        ∀ step ∈ steps, ¬ Jammed signer step.1 step.2.listing) := by
  refine ⟨exactOn_iff text, fun hIdle => ⟨?_, ?_⟩⟩
  · intro env
    exact sweepOnce_returns_iff hIdle
  · intro steps
    exact sweeps_idle_iff steps hIdle

theorem whole_text_sweeps_return :
    ExactOn "00" ∧
    (sweepOnce demoSigner demoKeys (demoEnv ["x"] .ok) (demoEngine [("x", ⟨["00"], none, []⟩)])).Returns := by
  obtain ⟨hExact, hReturns⟩ := hex_exact_and_sweeps_return_iff "00" demoSigner demoKeys (demoEngine [("x", ⟨["00"], none, []⟩)])
  constructor
  · refine hExact.mpr ⟨?_, ?_⟩
    · rintro ⟨_, -, hPlus⟩
      revert hPlus
      decide
    · rw [← decodeHex_panics_iff]
      decide
  · refine ((hReturns rfl).1 (demoEnv ["x"] .ok)).mpr ?_
    simp only [Jammed, jams_iff]
    decide

/-- A plus is read, and a text cut inside a character ends the sweeps of the session, also of what is
whole. -/
theorem cut_text_ends_sweeps :
    (decodeHex "+1" = .bytes [1] ∧ ¬ Spells "+1".toList [1]) ∧ decodeHex "aé1" = .panics ∧
    ¬ (sweepOnce demoSigner demoKeys (demoEnv ["x"] .ok) (demoEngine [("x", ⟨["aé1"], none, []⟩)])).Returns ∧
    sweepOnce demoSigner demoKeys (demoEnv ["x"] .ok)
        ((sweepOnce demoSigner demoKeys (demoEnv ["x"] .ok) (demoEngine [("x", ⟨["aé1"], none, []⟩)])).engine.finds
          (demoEngine [("x", ⟨["00"], none, []⟩)]).store.files) =
      ⟨(sweepOnce demoSigner demoKeys (demoEnv ["x"] .ok) (demoEngine [("x", ⟨["aé1"], none, []⟩)])).engine.finds
        (demoEngine [("x", ⟨["00"], none, []⟩)]).store.files, some .default, none⟩ := by
  refine ⟨⟨by decide, ?_⟩, by decide, ?_, ?_⟩
  · intro h
    exact (spells_iff.mp h).2 (by decide)
  · rw [sweepOnce_returns_iff rfl, not_not]
    simp only [Jammed, jams_iff]
    decide
  · refine sweepOnce_busy (Bool.eq_true_of_not_eq_false ?_)
    change (sweepOnce demoSigner demoKeys (demoEnv ["x"] .ok) (demoEngine [("x", ⟨["aé1"], none, []⟩)])).engine.inProgress ≠
      false
    rw [ne_eq, sweepOnce_flag rfl, not_not]
    simp only [Jammed, jams_iff]
    decide

end WalletCore.Sweep
