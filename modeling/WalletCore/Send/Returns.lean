import WalletCore.Send.Amounts
import WalletCore.Send.Escapes

/-! # Every input is classified

Every cut is behind a character that was looked at, so none is inside one, and each `lightning:` prefix that
is taken off leaves a shorter text. So the classification ends, and it ends with an answer.
-/

namespace WalletCore.Send

open Lib Lib.Regex

/-! ## Prefixes -/

theorem toNat_of_toLower {c d : Char} (h : c.toLower = d.toLower) (hd : d.toNat < 128) : c.toNat < 128 := by
  have hLower : ∀ n < 128, (Char.ofNat n).toLower.toNat < 128 := by decide +kernel
  have hImage := hLower d.toNat hd
  rw [Char.ofNat_toNat, ← h] at hImage
  by_contra hLarge
  have hSame : c.toLower = c := toLower_of_range (by omega)
  rw [hSame] at hImage
  exact hLarge hImage

/-- Whether a text starts with a prefix in either case. -/
def startsCi (text start : List Char) : Bool := eqIgnoreAsciiCase (text.take start.length) start

section

variable {text front start : List Char}

theorem eqIgnoreAsciiCase_ascii (hStart : ∀ c ∈ start, c.toNat < 128) (h : eqIgnoreAsciiCase front start = true) :
    ∀ c ∈ front, c.toNat < 128 := by
  intro c hc
  have hLower : c.toLower ∈ start.map Char.toLower := of_decide_eq_true h ▸ List.mem_map_of_mem hc
  obtain ⟨d, hd, hSame⟩ := List.mem_map.mp hLower
  exact toNat_of_toLower hSame.symm (hStart d hd)

theorem eqIgnoreAsciiCase_length (h : eqIgnoreAsciiCase front start = true) : front.length = start.length := by
  simpa using congrArg List.length (of_decide_eq_true h)

theorem splitAtByte_front (hStart : ∀ c ∈ start, c.toNat < 128)
    (h : startsCi text start = true) :
    splitAtByte text (byteLen start) = some (text.take start.length, text.drop start.length) := by
  rw [splitAtByte_eq_some, byteLen_ascii (eqIgnoreAsciiCase_ascii hStart h), byteLen_ascii hStart]
  exact ⟨List.take_append_drop _ _, eqIgnoreAsciiCase_length h⟩

/-- The front that is compared is as many characters as the prefix, since only ASCII can be equal to it. -/
theorem hasPrefixCi_eq (hStart : ∀ c ∈ start, c.toNat < 128) :
    hasPrefixCi text start = .ok (startsCi text start) := by
  rw [hasPrefixCi]
  cases hFront : startsCi text start with
  | true =>
    have hCut := splitAtByte_front hStart hFront
    have hLen : byteLen start ≤ byteLen text := by
      obtain ⟨hText, hSize⟩ := splitAtByte_eq_some.mp hCut
      rw [← hSize]
      conv_rhs => rw [← hText, byteLen_append]
      omega
    rw [isCharBoundary, sliceTo, hCut, if_pos ⟨hLen, rfl⟩]
    exact congrArg Except.ok hFront
  | false =>
    split
    · next hBoundary =>
      obtain ⟨⟨before, after⟩, hCut⟩ := Option.isSome_iff_exists.mp hBoundary.2
      rw [sliceTo, hCut]
      apply congrArg Except.ok
      by_contra hEq
      rw [Bool.not_eq_false] at hEq
      obtain ⟨rfl, -⟩ := splitAtByte_eq_some.mp hCut
      rw [startsCi, ← eqIgnoreAsciiCase_length hEq, List.take_left] at hFront
      exact absurd hEq (Bool.not_eq_true _ |>.mpr hFront)
    · rfl

theorem sliceFrom_behind (hStart : ∀ c ∈ start, c.toNat < 128)
    (h : startsCi text start = true) :
    sliceFrom text (byteLen start) = .ok (text.drop start.length) := by
  rw [sliceFrom, splitAtByte_front hStart h]

end

/-! ## Runs that return -/

def Returns {α : Type} (run : Run α) : Prop := ∃ result, run = .ok result

section

variable {α β : Type} {run : Run α}

theorem Returns.map (h : Returns run) (f : α → β) : Returns (run.map f) := by
  obtain ⟨result, rfl⟩ := h
  exact ⟨f result, rfl⟩

theorem Returns.bind {next : α → Run β} (h : Returns run) (hNext : ∀ result, run = .ok result → Returns (next result)) :
    Returns (run.bind next) := by
  obtain ⟨result, rfl⟩ := h
  exact hNext result rfl

theorem returns_ok (result : α) : Returns (.ok result) := ⟨result, rfl⟩

end

theorem btcStringToSats_returns (btc : List Char) : Returns (btcStringToSats btc) := by
  obtain ⟨result, hResult, -⟩ := btcStringToSats_iff btc
  exact ⟨result, hResult⟩

theorem isBip353Candidate_returns (input : List Char) : Returns (isBip353Candidate input) := by
  obtain ⟨candidate, hCandidate, -⟩ := isBip353Candidate_iff input
  exact ⟨candidate, hCandidate⟩

theorem readPair_returns (parts : UriParts) (pair : List Char) : Returns (readPair parts pair) := by
  rw [readPair]
  split
  · exact returns_ok _
  · apply Returns.map
    rw [find_eq]
    cases hSplit : splitOnce '=' pair with
    | none => exact returns_ok _
    | some cut =>
      obtain ⟨key, value⟩ := cut
      obtain ⟨rfl, -⟩ := splitOnce_eq_some.mp hSplit
      simp only [Option.map_some, sliceTo_append, sliceFrom_cons key value (by decide : ('=' : Char).toNat < 128)]
      exact returns_ok _

theorem readPairs_returns (parts : UriParts) (pairs : List (List Char)) : Returns (readPairs parts pairs) := by
  induction pairs generalizing parts with
  | nil => exact returns_ok _
  | cons pair pairs ih =>
    rw [readPairs]
    apply (readPair_returns parts pair).bind
    intro read _
    cases read with
    | none => exact returns_ok _
    | some parts => exact ih parts

section

variable (parsers : Parsers)

theorem parseBip321_returns {input : List Char} (now : Nat)
    (h : startsCi input "bitcoin:".toList = true) :
    Returns (parseBip321 parsers input now) := by
  rw [parseBip321, sliceFrom_behind (by decide) h]
  apply (returns_ok _).bind
  intro withoutScheme _
  obtain ⟨address, query⟩ := cutUri withoutScheme
  dsimp only
  split
  · exact returns_ok _
  · apply (readPairs_returns _ _).bind
    intro read _
    cases read with
    | none => exact returns_ok _
    | some parts =>
      apply Returns.map
      rw [UriParts.amountSats]
      cases parts.amount with
      | none => exact returns_ok _
      | some amount => exact btcStringToSats_returns amount

theorem trim_length_le (text : List Char) : (trim text).length ≤ text.length := by
  rw [trim, List.length_reverse]
  have hBack := (List.dropWhile_suffix Wallet.isWhiteSpace (l := (text.dropWhile Wallet.isWhiteSpace).reverse)).length_le
  have hFront := (List.dropWhile_suffix Wallet.isWhiteSpace (l := text)).length_le
  rw [List.length_reverse] at hBack
  omega

/-! ## Classification -/

theorem classifyFuel_succ (now fuel : Nat) (raw : List Char) : classifyFuel parsers now (fuel + 1) raw =
    if maxInputChars < raw.length then .ok (.invalid errInputTooLong)
    else if startsCi (trim raw) "bitcoin:".toList then parseBip321 parsers (trim raw) now
    else if startsCi (trim raw) "lightning:".toList then
      classifyFuel parsers now fuel ((trim raw).drop "lightning:".toList.length)
    else if startsCi (trim raw) "lnbc".toList ∨ startsCi (trim raw) "lntb".toList then
      .ok (parseBolt11 parsers (trim raw) now)
    else if startsCi (trim raw) "lno1".toList then .ok (parseBolt12 parsers (trim raw) now)
    else classifyPlain parsers (trim raw) := by
  rw [classifyFuel]
  split
  · rfl
  · have hBitcoin : hasPrefixCi (trim raw) "bitcoin:".toList = _ := hasPrefixCi_eq (by decide)
    have hLightning : hasPrefixCi (trim raw) "lightning:".toList = _ := hasPrefixCi_eq (by decide)
    have hMainnet : hasPrefixCi (trim raw) "lnbc".toList = _ := hasPrefixCi_eq (by decide)
    have hTestnet : hasPrefixCi (trim raw) "lntb".toList = _ := hasPrefixCi_eq (by decide)
    have hOffer : hasPrefixCi (trim raw) "lno1".toList = _ := hasPrefixCi_eq (by decide)
    simp only [hBitcoin, hLightning, hMainnet, hTestnet, hOffer]
    simp only [bind, Except.bind, pure, Except.pure]
    split
    · rfl
    · split
      · next hStrip => rw [sliceFrom_behind (by decide) hStrip]
      · by_cases hBc : startsCi (trim raw) "lnbc".toList = true
        · rw [if_pos hBc, if_pos (.inl hBc)]
        · rw [if_neg hBc]
          simp only [hBc, Bool.false_eq_true, false_or]

theorem lightning_shrinks {raw : List Char} (h : startsCi (trim raw) "lightning:".toList = true) :
    ((trim raw).drop "lightning:".toList.length).length < raw.length := by
  have hFront := eqIgnoreAsciiCase_length h
  have hTrim := trim_length_le raw
  have hPrefix : 0 < "lightning:".toList.length := by decide
  rw [List.length_take] at hFront
  rw [List.length_drop]
  omega

/-- The text gets shorter with every prefix, so the fuel is never what ends the call. -/
theorem classifyFuel_returns (now : Nat) {fuel : Nat} {raw : List Char} (h : raw.length < fuel) :
    Returns (classifyFuel parsers now fuel raw) := by
  induction fuel generalizing raw with
  | zero => cases h
  | succ fuel ih =>
    rw [classifyFuel_succ]
    split
    · exact returns_ok _
    · split
      · next hUri => exact parseBip321_returns parsers now hUri
      · split
        · next hStrip =>
          have hShorter := lightning_shrinks hStrip
          apply ih
          omega
        · split
          · exact returns_ok _
          · split
            · exact returns_ok _
            · exact (isBip353Candidate_returns _).map _

theorem classifyFuel_stable (now : Nat) {fuel more : Nat} {raw : List Char} (h : raw.length < fuel)
    (hMore : raw.length < more) : classifyFuel parsers now fuel raw = classifyFuel parsers now more raw := by
  induction fuel generalizing more raw with
  | zero => cases h
  | succ fuel ih =>
    cases more with
    | zero => cases hMore
    | succ more =>
      rw [classifyFuel_succ, classifyFuel_succ]
      by_cases hStrip : startsCi (trim raw) "lightning:".toList = true
      · have hShorter := lightning_shrinks hStrip
        rw [ih (by omega) (by omega : _ < more)]
      · simp only [hStrip]
        rfl

/-- The classification as the source has it, calling itself. -/
theorem classifyAt_eq (raw : List Char) (now : Nat) : classifyAt parsers raw now =
    if maxInputChars < raw.length then .ok (.invalid errInputTooLong)
    else if startsCi (trim raw) "bitcoin:".toList then parseBip321 parsers (trim raw) now
    else if startsCi (trim raw) "lightning:".toList then
      classifyAt parsers ((trim raw).drop "lightning:".toList.length) now
    else if startsCi (trim raw) "lnbc".toList ∨ startsCi (trim raw) "lntb".toList then
      .ok (parseBolt11 parsers (trim raw) now)
    else if startsCi (trim raw) "lno1".toList then .ok (parseBolt12 parsers (trim raw) now)
    else classifyPlain parsers (trim raw) := by
  rw [classifyAt, classifyFuel_succ]
  by_cases hStrip : startsCi (trim raw) "lightning:".toList = true
  · have hShorter := lightning_shrinks hStrip
    rw [classifyAt, classifyFuel_stable parsers now (by omega) (Nat.lt_succ_self _)]
  · simp only [hStrip]
    rfl

/-- The recognisers accept their grammars, escapes are decoded as in the browser, amounts are read by their
value, and every input is classified. -/
theorem recognisers_accept_grammars (text : List Char) (now : Nat) :
    (isBech32Mainnet text = true ↔ text ∈ bech32Grammar.matches') ∧
    (isLegacyMainnet text = true ↔ text ∈ legacyGrammar.matches') ∧
    (∃ candidate, isBip353Candidate text = .ok candidate ∧ (candidate = true ↔ text ∈ bip353Grammar.matches')) ∧
    percentDecode text = decodeUriComponent text ∧
    (∃ result, btcStringToSats text = .ok result ∧ ∀ sats, result = some sats ↔
      trim text ∈ decimalGrammar.matches' ∧ ⌊decimalValue (trim text) * 100000000⌋₊ = sats.toNat) ∧
    ∃ classified, classifyAt parsers text now = .ok classified ∧
      ∀ fuel, text.length < fuel → classifyFuel parsers now fuel text = .ok classified := by
  obtain ⟨classified, hReturns⟩ : Returns (classifyAt parsers text now) :=
    classifyFuel_returns parsers now (Nat.lt_succ_self _)
  constructor
  · exact isBech32Mainnet_iff text
  constructor
  · exact isLegacyMainnet_iff text
  constructor
  · exact isBip353Candidate_iff text
  constructor
  · exact percentDecode_eq text
  constructor
  · exact btcStringToSats_iff text
  · use classified
    constructor
    · exact hReturns
    · intro fuel hFuel
      rw [← hReturns]
      exact classifyFuel_stable parsers now hFuel (Nat.lt_succ_self _)

end

end WalletCore.Send
