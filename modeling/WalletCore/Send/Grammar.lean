import Mathlib.Algebra.Order.Floor.Semiring
import WalletCore.Lib.Regex
import WalletCore.Send.Classify

/-! # The grammars of the recognisers

The recognisers walk over bytes. Each of them accepts the texts of a regular expression over characters,
and reading an escaped text is what the standard says it is. A classification comes to an end, and it never
cuts a text inside a character.
-/

namespace WalletCore.Send

open Lib Lib.Regex

/-! ## The documented expressions -/

def lowercase : List Char := range 'a' 'z'

def uppercase : List Char := range 'A' 'Z'

def digits : List Char := range '0' '9'

/-- Like `^bc1[a-z0-9]{25,87}$`. -/
def bech32Grammar : RegularExpression Char := literal ['b', 'c', '1'] * repeated 25 87 (oneOf (lowercase ++ digits))

/-- Like `^[13][a-km-zA-HJ-NP-Z1-9]{25,34}$`. -/
def legacyGrammar : RegularExpression Char :=
  oneOf ['1', '3'] * repeated 25 34 (oneOf (range 'a' 'k' ++ range 'm' 'z' ++ range 'A' 'H' ++ range 'J' 'N' ++
    range 'P' 'Z' ++ range '1' '9'))

def userLetters : List Char := lowercase ++ uppercase ++ digits ++ ['.', '_', '-']

def labelLetters : List Char := lowercase ++ uppercase ++ digits ++ ['.', '-']

/-- Like `^\u20bf?[a-zA-Z0-9._-]+@[a-zA-Z0-9.-]+\.[a-zA-Z]{2,}$`. -/
def bip353Grammar : RegularExpression Char :=
  optional (literal ['\u20bf']) * (oneOrMore (oneOf userLetters) * (literal ['@'] * (oneOrMore (oneOf labelLetters) *
    (literal ['.'] * atLeast 2 (oneOf (lowercase ++ uppercase))))))

/-- Like `^\d+(\.\d+)?$`. -/
def decimalGrammar : RegularExpression Char :=
  oneOrMore (oneOf digits) * optional (literal ['.'] * oneOrMore (oneOf digits))

/-! ## Classes -/

/-- The class of bytes and the class of characters are the same below 128, where the class of bytes ends. -/
structure SameClass (p : UInt8 → Bool) (letters : List Char) : Prop where
  ascii : ∀ byte, p byte = true → byte.toNat < 128
  same : ∀ c : Char, c.toNat < 128 ∧ p (UInt8.ofNat c.toNat) = true ↔ c ∈ letters

section

variable {p : UInt8 → Bool} {letters : List Char}

/-- Both classes are told by numbers. -/
theorem SameClass.of_toNat {q : Nat → Prop} (hByte : ∀ byte, p byte = true ↔ q byte.toNat)
    (hSmall : ∀ n, q n → n < 128) (hLetters : ∀ c, c ∈ letters ↔ q c.toNat) : SameClass p letters := by
  constructor
  · intro byte hPass
    exact hSmall _ ((hByte byte).mp hPass)
  · intro c
    have hSame (hc : c.toNat < 128) : p (UInt8.ofNat c.toNat) = true ↔ q c.toNat := by
      rw [hByte, UInt8.toNat_ofNat_of_lt' (hc.trans (by decide))]
    rw [hLetters]
    constructor
    · rintro ⟨hc, hPass⟩
      exact (hSame hc).mp hPass
    · intro hq
      have hc := hSmall _ hq
      exact ⟨hc, (hSame hc).mpr hq⟩

theorem SameClass.all (h : SameClass p letters) (text : List Char) :
    (utf8 text).all p = true ↔ ∀ c ∈ text, c ∈ letters := by
  rw [all_utf8 h.ascii]
  exact forall₂_congr fun c _ => h.same c

theorem SameClass.byteLen_eq (h : SameClass p letters) {text : List Char} (hText : ∀ c ∈ text, c ∈ letters) :
    byteLen text = text.length :=
  byteLen_ascii fun c hc => ((h.same c).mpr (hText c hc)).1

end

theorem mem_digits {c : Char} : c ∈ digits ↔ 0x30 ≤ c.toNat ∧ c.toNat ≤ 0x39 := mem_range (by decide)

theorem mem_lowercase {c : Char} : c ∈ lowercase ↔ 0x61 ≤ c.toNat ∧ c.toNat ≤ 0x7A := mem_range (by decide)

theorem mem_uppercase {c : Char} : c ∈ uppercase ↔ 0x41 ≤ c.toNat ∧ c.toNat ≤ 0x5A := mem_range (by decide)

theorem digitClass : SameClass isAsciiDigit digits := by
  refine .of_toNat (q := fun n => 0x30 ≤ n ∧ n ≤ 0x39) ?_ ?_ fun c => mem_digits
  · simp [isAsciiDigit]
  · omega

theorem bech32Class : SameClass (fun byte => isAsciiLowercase byte || isAsciiDigit byte) (lowercase ++ digits) := by
  refine .of_toNat (q := fun n => 0x61 ≤ n ∧ n ≤ 0x7A ∨ 0x30 ≤ n ∧ n ≤ 0x39) ?_ ?_ ?_
  · simp [isAsciiLowercase, isAsciiDigit]
  · omega
  · simp [mem_lowercase, mem_digits]

theorem alphabeticClass : SameClass isAsciiAlphabetic (lowercase ++ uppercase) := by
  refine .of_toNat (q := fun n => 0x61 ≤ n ∧ n ≤ 0x7A ∨ 0x41 ≤ n ∧ n ≤ 0x5A) ?_ ?_ ?_
  · simp [isAsciiAlphabetic, isAsciiLowercase, isAsciiUppercase]
  · omega
  · simp [mem_lowercase, mem_uppercase]

theorem labelClass : SameClass isLabelByte labelLetters := by
  refine .of_toNat (q := fun n => 0x61 ≤ n ∧ n ≤ 0x7A ∨ 0x41 ≤ n ∧ n ≤ 0x5A ∨ 0x30 ≤ n ∧ n ≤ 0x39 ∨ n = 0x2E ∨ n = 0x2D)
    ?_ ?_ ?_
  · intro byte
    simp only [isLabelByte, isAsciiAlphanumeric, isAsciiAlphabetic, isAsciiLowercase, isAsciiUppercase, isAsciiDigit,
      Bool.or_eq_true, Bool.and_eq_true, decide_eq_true_eq, beq_iff_eq, ← UInt8.toNat_inj, or_assoc]
    rfl
  · omega
  · intro c
    simp only [labelLetters, List.mem_append, List.mem_cons, List.not_mem_nil, mem_lowercase, mem_uppercase, mem_digits,
      ← Char.toNat_inj, or_false, or_assoc]
    rfl

theorem userClass : SameClass isUserByte userLetters := by
  refine .of_toNat (q := fun n => 0x61 ≤ n ∧ n ≤ 0x7A ∨ 0x41 ≤ n ∧ n ≤ 0x5A ∨ 0x30 ≤ n ∧ n ≤ 0x39 ∨ n = 0x2E ∨
    n = 0x5F ∨ n = 0x2D) ?_ ?_ ?_
  · intro byte
    simp only [isUserByte, isAsciiAlphanumeric, isAsciiAlphabetic, isAsciiLowercase, isAsciiUppercase, isAsciiDigit,
      Bool.or_eq_true, Bool.and_eq_true, decide_eq_true_eq, beq_iff_eq, ← UInt8.toNat_inj, or_assoc]
    rfl
  · omega
  · intro c
    simp only [userLetters, List.mem_append, List.mem_cons, List.not_mem_nil, mem_lowercase, mem_uppercase, mem_digits,
      ← Char.toNat_inj, or_false, or_assoc]
    rfl

theorem base58Class : SameClass isBase58
    (range 'a' 'k' ++ range 'm' 'z' ++ range 'A' 'H' ++ range 'J' 'N' ++ range 'P' 'Z' ++ range '1' '9') := by
  refine .of_toNat (q := fun n => (0x61 ≤ n ∧ n ≤ 0x7A ∧ n ≠ 0x6C) ∨ (0x41 ≤ n ∧ n ≤ 0x5A ∧ n ≠ 0x49 ∧ n ≠ 0x4F) ∨
    (0x30 ≤ n ∧ n ≤ 0x39 ∧ n ≠ 0x30)) ?_ ?_ ?_
  · intro byte
    simp only [isBase58, isAsciiLowercase, isAsciiUppercase, isAsciiDigit, Bool.or_eq_true, Bool.and_eq_true,
      decide_eq_true_eq, bne_iff_ne, ne_eq, ← UInt8.toNat_inj, or_assoc, and_assoc]
    rfl
  · omega
  · intro c
    simp (disch := decide) only [List.mem_append, mem_range, Char.reduceToNat]
    omega

theorem legacyClass : SameClass (fun byte => byte == 0x31 || byte == 0x33) ['1', '3'] := by
  refine .of_toNat (q := fun n => n = 0x31 ∨ n = 0x33) ?_ ?_ ?_
  · intro byte
    simp only [Bool.or_eq_true, beq_iff_eq, ← UInt8.toNat_inj]
    rfl
  · omega
  · intro c
    simp only [List.mem_cons, List.not_mem_nil, ← Char.toNat_inj, or_false]
    rfl

/-! ## Addresses -/

theorem isBech32Mainnet_iff (lower : List Char) : isBech32Mainnet lower = true ↔ lower ∈ bech32Grammar.matches' := by
  rw [bech32Grammar, mem_seq, isBech32Mainnet]
  cases hStart : stripPrefix ['b', 'c', '1'] lower with
  | none =>
    apply iff_of_false Bool.false_ne_true
    rintro ⟨front, hFront, rest, -, rfl⟩
    rw [mem_literal.mp hFront, stripPrefix_eq_some.mpr rfl] at hStart
    cases hStart
  | some rest =>
    dsimp only
    rw [Bool.and_eq_true, Bool.and_eq_true, decide_eq_true_eq, decide_eq_true_eq, bech32Class.all]
    have hText := stripPrefix_eq_some.mp hStart
    constructor
    · rintro ⟨hLength, hLetters⟩
      rw [bech32Class.byteLen_eq hLetters] at hLength
      exact ⟨_, mem_literal.mpr rfl, rest, (mem_repeated_oneOf (by decide)).mpr ⟨hLength, hLetters⟩, hText.symm⟩
    · rintro ⟨front, hFront, back, hBack, hCut⟩
      rw [mem_literal.mp hFront, hText] at hCut
      obtain ⟨hLength, hLetters⟩ := (mem_repeated_oneOf (by decide)).mp hBack
      rw [List.append_cancel_left hCut] at hLength hLetters
      rw [bech32Class.byteLen_eq hLetters]
      exact ⟨hLength, hLetters⟩

theorem mem_legacy_cons {c : Char} {rest : List Char} : c :: rest ∈ legacyGrammar.matches' ↔
    c ∈ ['1', '3'] ∧ (25 ≤ byteLen rest ∧ byteLen rest ≤ 34) ∧ (utf8 rest).all isBase58 = true := by
  rw [legacyGrammar, mem_seq, base58Class.all]
  constructor
  · rintro ⟨front, hFront, back, hBack, hText⟩
    obtain ⟨first, hFirst, rfl⟩ := mem_oneOf.mp hFront
    obtain ⟨rfl, rfl⟩ : first = c ∧ back = rest := List.cons.inj hText
    obtain ⟨hLength, hLetters⟩ := (mem_repeated_oneOf (by decide)).mp hBack
    rw [base58Class.byteLen_eq hLetters]
    exact ⟨hFirst, hLength, hLetters⟩
  · rintro ⟨hFirst, hLength, hLetters⟩
    rw [base58Class.byteLen_eq hLetters] at hLength
    exact ⟨[c], mem_oneOf.mpr ⟨c, hFirst, rfl⟩, rest, (mem_repeated_oneOf (by decide)).mpr ⟨hLength, hLetters⟩, rfl⟩

theorem isLegacyMainnet_iff (text : List Char) : isLegacyMainnet text = true ↔ text ∈ legacyGrammar.matches' := by
  cases text with
  | nil =>
    apply iff_of_false Bool.false_ne_true
    rw [legacyGrammar, mem_seq]
    rintro ⟨front, hFront, rest, -, hText⟩
    obtain ⟨c, -, rfl⟩ := mem_oneOf.mp hFront
    cases hText
  | cons c rest =>
    rw [mem_legacy_cons, isLegacyMainnet, utf8_cons]
    obtain ⟨hSmall, hByte⟩ | ⟨hLarge, first, others, hBytes, hFirst, -⟩ := utf8EncodeChar_cases c
    · have hClass := legacyClass.same c
      rw [hByte]
      dsimp only [List.cons_append, List.nil_append]
      rw [Bool.and_eq_true, Bool.and_eq_true, Bool.and_eq_true, decide_eq_true_eq, decide_eq_true_eq, and_assoc, and_assoc,
        ← hClass, and_assoc]
      simp only [hSmall, true_and, byteLen, and_assoc]
    · rw [hBytes]
      apply iff_of_false
      · intro h
        dsimp only [List.cons_append] at h
        simp only [Bool.and_eq_true] at h
        have hFirstSmall := legacyClass.ascii first h.1.1.1
        have hFirstLarge : 128 ≤ first.toNat := lt_of_leadingOnes (by omega)
        omega
      · rintro ⟨hc, -⟩
        have hSmall := ((legacyClass.same c).mpr hc).1
        omega

/-! ## Names -/

def domainGrammar : RegularExpression Char :=
  oneOrMore (oneOf labelLetters) * (literal ['.'] * atLeast 2 (oneOf (lowercase ++ uppercase)))

def nameGrammar : RegularExpression Char := oneOrMore (oneOf userLetters) * (literal ['@'] * domainGrammar)

/-- The last dot of a domain is the one before the top level, which has no dot. -/
theorem mem_domainGrammar {domain : List Char} : domain ∈ domainGrammar.matches' ↔
    ∃ labels tld, rsplitOnce '.' domain = some (labels, tld) ∧ (labels ≠ [] ∧ ∀ c ∈ labels, c ∈ labelLetters) ∧
      2 ≤ tld.length ∧ ∀ c ∈ tld, c ∈ lowercase ++ uppercase := by
  rw [domainGrammar, mem_seq]
  constructor
  · rintro ⟨labels, hLabels, rest, hRest, rfl⟩
    obtain ⟨dot, hDot, tld, hTld, rfl⟩ := mem_seq.mp hRest
    obtain ⟨hLength, hLetters⟩ := mem_atLeast_oneOf.mp hTld
    have hNoDot : '.' ∉ tld := fun hMem => absurd (hLetters _ hMem) (by decide)
    rw [mem_literal.mp hDot]
    exact ⟨labels, tld, rsplitOnce_eq_some.mpr ⟨rfl, hNoDot⟩, mem_oneOrMore_oneOf.mp hLabels, hLength, hLetters⟩
  · rintro ⟨labels, tld, hSplit, hLabels, hTld⟩
    obtain ⟨rfl, -⟩ := rsplitOnce_eq_some.mp hSplit
    exact ⟨labels, mem_oneOrMore_oneOf.mpr hLabels, _,
      mem_seq.mpr ⟨_, mem_literal.mpr rfl, tld, mem_atLeast_oneOf.mpr hTld, rfl⟩, rfl⟩

theorem at_notMem_domainGrammar {domain : List Char} (h : domain ∈ domainGrammar.matches') : '@' ∉ domain := by
  obtain ⟨labels, tld, hSplit, ⟨-, hLabels⟩, -, hTld⟩ := mem_domainGrammar.mp h
  rw [(rsplitOnce_eq_some.mp hSplit).1, List.mem_append, List.mem_cons, not_or, not_or]
  constructor
  · exact fun hMem => absurd (hLabels _ hMem) (by decide)
  · constructor
    · decide
    · exact fun hMem => absurd (hTld _ hMem) (by decide)

theorem mem_nameGrammar {text : List Char} : text ∈ nameGrammar.matches' ↔
    ∃ user domain, splitOnce '@' text = some (user, domain) ∧ (user ≠ [] ∧ ∀ c ∈ user, c ∈ userLetters) ∧
      domain ∈ domainGrammar.matches' := by
  rw [nameGrammar, mem_seq]
  constructor
  · rintro ⟨user, hUser, rest, hRest, rfl⟩
    obtain ⟨sign, hSign, domain, hDomain, rfl⟩ := mem_seq.mp hRest
    have hLetters := mem_oneOrMore_oneOf.mp hUser
    have hNoSign : '@' ∉ user := fun hMem => absurd (hLetters.2 _ hMem) (by decide)
    rw [mem_literal.mp hSign]
    exact ⟨user, domain, splitOnce_eq_some.mpr ⟨rfl, hNoSign⟩, hLetters, hDomain⟩
  · rintro ⟨user, domain, hSplit, hUser, hDomain⟩
    obtain ⟨rfl, -⟩ := splitOnce_eq_some.mp hSplit
    exact ⟨user, mem_oneOrMore_oneOf.mpr hUser, _, mem_seq.mpr ⟨_, mem_literal.mpr rfl, domain, hDomain, rfl⟩, rfl⟩

/-- The sign in front is no letter of a name, so there is one way to take it off. -/
theorem mem_bip353Grammar {input : List Char} : input ∈ bip353Grammar.matches' ↔
    (stripPrefix ['\u20bf'] input).getD input ∈ nameGrammar.matches' := by
  rw [bip353Grammar, mem_seq]
  change (∃ front ∈ _, ∃ back ∈ nameGrammar.matches', front ++ back = input) ↔ _
  cases hStrip : stripPrefix ['\u20bf'] input with
  | none =>
    constructor
    · rintro ⟨front, hFront, back, hBack, rfl⟩
      obtain rfl | hSign := mem_optional.mp hFront
      · exact hBack
      · rw [mem_literal.mp hSign, stripPrefix_eq_some.mpr rfl] at hStrip
        cases hStrip
    · intro h
      exact ⟨[], mem_optional.mpr (.inl rfl), input, h, rfl⟩
  | some rest =>
    have hInput := stripPrefix_eq_some.mp hStrip
    constructor
    · rintro ⟨front, hFront, back, hBack, hText⟩
      rw [hInput] at hText
      obtain rfl | hSign := mem_optional.mp hFront
      · obtain ⟨user, domain, hSplit, ⟨hNonempty, hUser⟩, -⟩ := mem_nameGrammar.mp hBack
        obtain ⟨c, others, rfl⟩ := List.exists_cons_of_ne_nil hNonempty
        rw [List.nil_append, (splitOnce_eq_some.mp hSplit).1] at hText
        obtain ⟨rfl, -⟩ := List.cons.inj hText
        exact absurd (hUser _ List.mem_cons_self) (by decide)
      · rw [mem_literal.mp hSign] at hText
        rw [Option.getD_some, ← List.append_cancel_left hText]
        exact hBack
    · intro h
      exact ⟨['\u20bf'], mem_optional.mpr (.inr (mem_literal.mpr rfl)), rest, h, hInput.symm⟩

theorem domain_check (domain : List Char) :
    ∃ fits, (match rfind (· == '.') domain with
      | none => .ok false
      | some lastDot =>
        (sliceTo domain lastDot).bind fun labels =>
          (sliceFrom domain (lastDot + 1)).map fun tld =>
            labels ≠ [] && (utf8 labels).all isLabelByte && 2 ≤ byteLen tld && (utf8 tld).all isAsciiAlphabetic : Run Bool) =
        .ok fits ∧ (fits = true ↔ domain ∈ domainGrammar.matches') := by
  rw [rfind_eq, mem_domainGrammar]
  cases hSplit : rsplitOnce '.' domain with
  | none =>
    refine ⟨false, rfl, iff_of_false Bool.false_ne_true ?_⟩
    rintro ⟨labels, tld, ⟨⟩, -⟩
  | some cut =>
    obtain ⟨labels, tld⟩ := cut
    obtain ⟨rfl, -⟩ := rsplitOnce_eq_some.mp hSplit
    dsimp only [Option.map_some]
    rw [sliceTo_append, sliceFrom_cons _ _ (by decide)]
    refine ⟨_, rfl, ?_⟩
    simp only [Bool.and_eq_true, decide_eq_true_eq, labelClass.all, alphabeticClass.all, Option.some_inj, Prod.mk.injEq,
      and_assoc]
    constructor
    · rintro ⟨hNonempty, hLabels, hLength, hTld⟩
      rw [alphabeticClass.byteLen_eq hTld] at hLength
      exact ⟨labels, tld, rfl, rfl, hNonempty, hLabels, hLength, hTld⟩
    · rintro ⟨_, _, rfl, rfl, hNonempty, hLabels, hLength, hTld⟩
      rw [alphabeticClass.byteLen_eq hTld]
      exact ⟨hNonempty, hLabels, hLength, hTld⟩

theorem isBip353Candidate_iff (input : List Char) :
    ∃ candidate, isBip353Candidate input = .ok candidate ∧ (candidate = true ↔ input ∈ bip353Grammar.matches') := by
  rw [mem_bip353Grammar, mem_nameGrammar, isBip353Candidate]
  cases hSplit : splitOnce '@' ((stripPrefix ['\u20bf'] input).getD input) with
  | none =>
    refine ⟨false, rfl, iff_of_false Bool.false_ne_true ?_⟩
    rintro ⟨user, domain, ⟨⟩, -⟩
  | some cut =>
    obtain ⟨user, domain⟩ := cut
    dsimp only
    have hCut : (∃ front back, some (user, domain) = some (front, back) ∧ (front ≠ [] ∧ ∀ c ∈ front, c ∈ userLetters) ∧
        back ∈ domainGrammar.matches') ↔
          (user ≠ [] ∧ ∀ c ∈ user, c ∈ userLetters) ∧ domain ∈ domainGrammar.matches' := by
      constructor
      · rintro ⟨_, _, ⟨⟩, h⟩
        exact h
      · intro h
        exact ⟨user, domain, rfl, h⟩
    rw [hCut]
    by_cases hShape : '@' ∈ domain ∨ user = []
    · refine ⟨false, if_pos hShape, iff_of_false Bool.false_ne_true ?_⟩
      rintro ⟨⟨hNonempty, -⟩, hDomain⟩
      obtain hSign | hEmpty := hShape
      · exact at_notMem_domainGrammar hDomain hSign
      · exact hNonempty hEmpty
    · rw [if_neg hShape]
      rw [not_or] at hShape
      by_cases hUser : (utf8 user).all isUserByte = true
      · rw [if_neg (not_not.mpr hUser)]
        rw [userClass.all] at hUser
        obtain ⟨fits, hFits, hDomain⟩ := domain_check domain
        refine ⟨fits, hFits, hDomain.trans ?_⟩
        exact ⟨fun h => ⟨⟨hShape.2, hUser⟩, h⟩, And.right⟩
      · rw [if_pos hUser]
        refine ⟨false, rfl, iff_of_false Bool.false_ne_true ?_⟩
        rintro ⟨⟨-, hLetters⟩, -⟩
        exact hUser ((userClass.all user).mpr hLetters)

end WalletCore.Send
