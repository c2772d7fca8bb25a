import Mathlib.Data.List.TakeWhile
import WalletCore.Lib.Utf8

/-! # The host of a web address

The URL standard's reading of an absolute `https` address, up to its host. What comes behind the authority is
never an error, so it is left out. The host parser is a parameter: it decodes a host and maps it to ASCII.
-/

namespace Lib.WebUrl

def isControlOrSpace (c : Char) : Bool := c.toNat ≤ 0x20

def isTabOrNewline (c : Char) : Bool := c == '\t' || c == '\n' || c == '\r'

def isSlash (c : Char) : Bool := c == '/' || c == '\\'

def endsAuthority (c : Char) : Bool := isSlash c || c == '?' || c == '#'

/-- Controls and spaces are taken off both ends. -/
def strip (input : List Char) : List Char :=
  ((input.dropWhile isControlOrSpace).reverse.dropWhile isControlOrSpace).reverse

def clean (input : List Char) : List Char := (strip input).filter (! isTabOrNewline ·)

/-- What is behind the last at sign, which ends the credentials. -/
def hostAndPort (authority : List Char) : List Char := (authority.reverse.takeWhile (· != '@')).reverse

/-- The host ends at the first colon that is in no brackets. -/
def splitPort : Bool → List Char → List Char × Option (List Char)
  | _, [] => ([], none)
  | inside, c :: text =>
    if c = ':' ∧ inside = false then ([], some text)
    else
      let cut := splitPort (if c = '[' then true else if c = ']' then false else inside) text
      (c :: cut.1, cut.2)

def portFits (port : List Char) : Bool := port.all Char.isDigit && Nat.ofDigitChars 10 port 0 < 65536

/-- What is behind the scheme and its slashes, which may be of either kind and of any number. -/
def behindSlashes (cleaned : List Char) : List Char := ((cleaned.dropWhile (· != ':')).drop 1).dropWhile isSlash

/-- The authority of a cleaned address whose scheme is `https`. -/
def authorityOf (cleaned : List Char) : Option (List Char) :=
  if (cleaned.takeWhile (· != ':')).map Char.toLower = ['h', 't', 't', 'p', 's'] ∧ ':' ∈ cleaned then
    some ((behindSlashes cleaned).takeWhile (! endsAuthority ·))
  else none

def hostOf (hostParser : List Char → Option (List Char)) (authority : List Char) : Option (List Char) :=
  let cut := splitPort false (hostAndPort authority)
  if cut.1 = [] ∨ ¬ cut.2.all portFits then none else hostParser cut.1

def httpsHost (hostParser : List Char → Option (List Char)) (input : List Char) : Option (List Char) :=
  (authorityOf (clean input)).bind (hostOf hostParser)

/-! ## Plain hosts -/

def isHostLetter (c : Char) : Bool := c.isAlphanum || c == '.' || c == '-' || c == '_'

/-- An ASCII host in whose labels nothing is encoded and whose last label is a word. -/
structure PlainHost (host : List Char) : Prop where
  letters : ∀ c ∈ host, isHostLetter c = true
  labels : ∀ label ∈ host.splitOn '.', (label.take 4).map Char.toLower ≠ ['x', 'n', '-', '-']
  last : ∃ label ∈ (host.splitOn '.').getLast?, label ≠ [] ∧ ∀ c ∈ label, c.isAlpha = true

instance (host : List Char) : Decidable (PlainHost host) :=
  decidable_of_iff ((∀ c ∈ host, isHostLetter c = true) ∧
      (∀ label ∈ host.splitOn '.', (label.take 4).map Char.toLower ≠ ['x', 'n', '-', '-']) ∧
      ∃ label ∈ (host.splitOn '.').getLast?, label ≠ [] ∧ ∀ c ∈ label, c.isAlpha = true)
    ⟨fun ⟨hLetters, hLabels, hLast⟩ => ⟨hLetters, hLabels, hLast⟩, fun h => ⟨h.letters, h.labels, h.last⟩⟩

def isVisible (c : Char) : Bool := 0x21 ≤ c.toNat && c.toNat ≤ 0x7E

/-- The text of the host and of the port, in an address in which they stand where they seem to: small letters and two
slashes in front of an authority without a backslash, behind whose last at sign are no controls and spaces. A host
in brackets is alone there. -/
def hostText (address : List Char) : Option (List Char × Option (List Char)) :=
  if address.take 8 = "https://".toList then
    let authority := (address.drop 8).takeWhile fun c => ! (c == '/' || c == '?' || c == '#')
    let hostPort := hostAndPort authority
    let cut := splitPort false hostPort
    if '\\' ∉ authority ∧ (∀ c ∈ hostPort, isControlOrSpace c = false) ∧ cut.1 ≠ [] ∧
        ('[' ∈ cut.1 → hostPort.head? = some '[' ∧ cut.2 = none) then some cut
    else none
  else none

/-- What the standard says of hosts that need no tables: a plain one is put in small letters, and one with a
control or a space is none. -/
structure StandardHosts (hostParser : List Char → Option (List Char)) : Prop where
  plain : ∀ host, PlainHost host → hostParser host = some (host.map Char.toLower)
  blank : ∀ host, (∃ c ∈ host, isControlOrSpace c = true) → hostParser host = none

/-! ## Ends -/

theorem dropWhile_append_of_exists {α : Type} {p : α → Bool} {text : List α} (h : ∃ c ∈ text, p c = false)
    (back : List α) : (text ++ back).dropWhile p = text.dropWhile p ++ back := by
  induction text with
  | nil =>
    obtain ⟨_, ⟨⟩, -⟩ := h
  | cons c text ih =>
    rw [List.cons_append, List.dropWhile_cons, List.dropWhile_cons]
    split
    · next hc =>
      apply ih
      obtain ⟨d, hd, hStop⟩ := h
      obtain rfl | hRest := List.mem_cons.mp hd
      · rw [hc] at hStop
        cases hStop
      · exact ⟨d, hRest, hStop⟩
    · rfl

theorem takeWhile_append_of_exists {α : Type} {p : α → Bool} {text : List α} (h : ∃ c ∈ text, p c = false)
    (back : List α) : (text ++ back).takeWhile p = text.takeWhile p := by
  induction text with
  | nil =>
    obtain ⟨_, ⟨⟩, -⟩ := h
  | cons c text ih =>
    rw [List.cons_append, List.takeWhile_cons, List.takeWhile_cons]
    split
    · next hc =>
      rw [ih]
      obtain ⟨d, hd, hStop⟩ := h
      obtain rfl | hRest := List.mem_cons.mp hd
      · rw [hc] at hStop
        cases hStop
      · exact ⟨d, hRest, hStop⟩
    · rfl

theorem takeWhile_front {α : Type} {p : α → Bool} {front tail : List α} (hFront : ∀ c ∈ front, p c = true)
    (hTail : ∀ c ∈ tail.head?, p c = false) : (front ++ tail).takeWhile p = front := by
  rw [List.takeWhile_append_of_pos hFront]
  cases tail with
  | nil => rw [List.takeWhile_nil, List.append_nil]
  | cons c tail => rw [List.takeWhile_cons, hTail c rfl, if_neg Bool.false_ne_true, List.append_nil]

theorem mem_dropWhile {α : Type} {p : α → Bool} {text : List α} {c : α} (h : c ∈ text) (hc : p c = false) :
    c ∈ text.dropWhile p := by
  rw [← List.takeWhile_append_dropWhile (p := p) (l := text), List.mem_append] at h
  obtain hFront | hBack := h
  · rw [List.mem_takeWhile_imp hFront] at hc
    cases hc
  · exact hBack

theorem ne_of_control {c d : Char} (hc : isControlOrSpace c = true) (hd : isControlOrSpace d = false) : c ≠ d := by
  rintro rfl
  rw [hc] at hd
  cases hd

theorem not_tabOrNewline {c : Char} (hc : isControlOrSpace c = false) : isTabOrNewline c = false := by
  rw [isTabOrNewline]
  simp only [Bool.or_eq_false_iff, beq_eq_false_iff_ne]
  exact ⟨⟨(ne_of_control (by decide) hc).symm, (ne_of_control (by decide) hc).symm⟩,
    (ne_of_control (by decide) hc).symm⟩

theorem mem_clean {address : List Char} {c : Char} (h : c ∈ address) (hc : isControlOrSpace c = false) :
    c ∈ clean address := by
  have hStrip : c ∈ strip address :=
    List.mem_reverse.mpr (mem_dropWhile (List.mem_reverse.mpr (mem_dropWhile h hc)) hc)
  exact List.mem_filter.mpr ⟨hStrip, by rw [not_tabOrNewline hc]; rfl⟩

theorem mem_of_mem_clean {address : List Char} {c : Char} (h : c ∈ clean address) : c ∈ address := by
  have hStrip := List.mem_reverse.mp (List.mem_filter.mp h).1
  exact (List.dropWhile_sublist _).subset (List.mem_reverse.mp ((List.dropWhile_sublist _).subset hStrip))

theorem dropWhile_of_head {α : Type} {p : α → Bool} {text : List α} (h : ∀ c ∈ text.head?, p c = false) :
    text.dropWhile p = text := by
  cases text with
  | nil => rfl
  | cons c text => rw [List.dropWhile_cons, h c rfl, if_neg Bool.false_ne_true]

theorem dropWhile_append_of_head {α : Type} {p : α → Bool} {back : List α} (h : ∀ c ∈ back.head?, p c = false)
    (text : List α) : ∃ kept, (text ++ back).dropWhile p = kept ++ back := by
  induction text with
  | nil => exact ⟨[], dropWhile_of_head h⟩
  | cons c text ih =>
    rw [List.cons_append, List.dropWhile_cons]
    split
    · exact ih
    · exact ⟨c :: text, rfl⟩

theorem takeWhile_filter {α : Type} {p q : α → Bool} (h : ∀ c, q c = false → p c = true) (text : List α) :
    (text.filter p).takeWhile q = (text.takeWhile q).filter p := by
  induction text with
  | nil => rfl
  | cons c text ih =>
    cases hq : q c with
    | false => rw [List.filter_cons_of_pos (h c hq), List.takeWhile_cons, List.takeWhile_cons, hq]; rfl
    | true =>
      cases hp : p c with
      | false => simp [hp, hq, ih]
      | true => simp [hp, hq, ih]

/-! ## Visible texts -/

theorem not_control_of_isDigit {c : Char} (h : c.isDigit = true) : isControlOrSpace c = false := by
  simp only [Char.isDigit, Bool.and_eq_true, decide_eq_true_eq, ge_iff_le, UInt32.le_iff_toNat_le] at h
  change 48 ≤ c.toNat ∧ _ at h
  simp only [isControlOrSpace, decide_eq_false_iff_not]
  omega

theorem not_control_of_visible {c : Char} (h : isVisible c = true) : isControlOrSpace c = false := by
  simp only [isVisible, Bool.and_eq_true, decide_eq_true_eq] at h
  simp only [isControlOrSpace, decide_eq_false_iff_not]
  omega

section

variable {front : List Char} (hFront : ∀ c ∈ front, isControlOrSpace c = false)

include hFront

theorem filter_visible : front.filter (! isTabOrNewline ·) = front := by
  rw [List.filter_eq_self]
  intro c hc
  rw [not_tabOrNewline (hFront c hc)]
  rfl

theorem clean_visible : clean front = front := by
  have hFirst : ∀ c ∈ front.head?, isControlOrSpace c = false := fun c hc => hFront c (List.mem_of_mem_head? hc)
  have hLast : ∀ c ∈ front.reverse.head?, isControlOrSpace c = false :=
    fun c hc => hFront c (List.mem_reverse.mp (List.mem_of_mem_head? hc))
  rw [clean, strip, dropWhile_of_head hFirst, dropWhile_of_head hLast, List.reverse_reverse, filter_visible hFront]

end

/-! ## A query behind an address -/

section

variable {address query : List Char} (hQuery : ∀ c ∈ query, isControlOrSpace c = false)

include hQuery

/-- A query that is put behind an address brings back the blanks at the address's end. -/
theorem clean_append (hNonempty : query ≠ []) (hAddress : ∃ c ∈ address, isControlOrSpace c = false) :
    ∃ blanks, (∀ c ∈ blanks, isControlOrSpace c = true) ∧ clean (address ++ query) = clean address ++ blanks ++ query := by
  have hStop : ∃ c ∈ query.reverse, isControlOrSpace c = false := by
    obtain ⟨c, hc⟩ := List.exists_mem_of_ne_nil query hNonempty
    exact ⟨c, List.mem_reverse.mpr hc, hQuery c hc⟩
  have hBack : query.reverse.dropWhile isControlOrSpace = query.reverse :=
    dropWhile_of_head fun c hc => hQuery c (List.mem_reverse.mp (List.mem_of_mem_head? hc))
  have hStrip : strip (address ++ query) = address.dropWhile isControlOrSpace ++ query := by
    rw [strip, dropWhile_append_of_exists hAddress, List.reverse_append, dropWhile_append_of_exists hStop, hBack,
      List.reverse_append, List.reverse_reverse, List.reverse_reverse]
  obtain ⟨blanks, hBlanks, hCut⟩ : ∃ blanks, (∀ c ∈ blanks, isControlOrSpace c = true) ∧
      address.dropWhile isControlOrSpace = strip address ++ blanks := by
    refine ⟨((address.dropWhile isControlOrSpace).reverse.takeWhile isControlOrSpace).reverse, ?_, ?_⟩
    · intro c hc
      exact List.mem_takeWhile_imp (List.mem_reverse.mp hc)
    · rw [strip, ← List.reverse_append, List.takeWhile_append_dropWhile, List.reverse_reverse]
  refine ⟨blanks.filter (! isTabOrNewline ·), ?_, ?_⟩
  · intro c hc
    exact hBlanks c (List.mem_filter.mp hc).1
  · rw [clean, hStrip, hCut, List.filter_append, List.filter_append, filter_visible hQuery, clean]

end

section

variable {cleaned : List Char}

theorem behindSlashes_append (hColon : ':' ∈ cleaned) (h : behindSlashes cleaned ≠ []) (back : List Char) :
    behindSlashes (cleaned ++ back) = behindSlashes cleaned ++ back := by
  have hStop : ∃ c ∈ cleaned, (c != ':') = false := ⟨':', hColon, rfl⟩
  obtain ⟨c, rest, hRest⟩ := List.exists_cons_of_ne_nil
    (show cleaned.dropWhile (· != ':') ≠ [] from fun hNil => h (by rw [behindSlashes, hNil]; rfl))
  have hSlash : ∃ c ∈ rest, isSlash c = false := by
    by_contra hAll
    apply h
    rw [behindSlashes, hRest, List.drop_one, List.tail_cons, List.dropWhile_eq_nil_iff]
    intro d hd
    by_contra hPlain
    exact hAll ⟨d, hd, Bool.eq_false_iff.mpr hPlain⟩
  rw [behindSlashes, behindSlashes, dropWhile_append_of_exists hStop, hRest, List.cons_append, List.drop_one, List.drop_one,
    List.tail_cons, List.tail_cons, dropWhile_append_of_exists hSlash]

theorem mem_behindSlashes (hScheme : (cleaned.takeWhile (· != ':')).map Char.toLower = ['h', 't', 't', 'p', 's'])
    (h : '?' ∈ cleaned) : '?' ∈ behindSlashes cleaned := by
  have hRest : '?' ∈ (cleaned.dropWhile (· != ':')).drop 1 := by
    rw [← List.takeWhile_append_dropWhile (l := cleaned), List.mem_append] at h
    obtain hFront | hBack := h
    · have hLower := List.mem_map_of_mem (f := Char.toLower) hFront
      rw [hScheme] at hLower
      exact absurd hLower (by decide)
    · cases hCut : cleaned.dropWhile (· != ':') with
      | nil =>
        rw [hCut] at hBack
        cases hBack
      | cons c rest =>
        rw [hCut] at hBack
        obtain rfl | hRest := List.mem_cons.mp hBack
        · have hFirst := List.head_dropWhile_not (l := cleaned) (· != ':') (by rw [hCut]; exact List.cons_ne_nil _ _)
          simp only [hCut, List.head_cons] at hFirst
          cases hFirst
        · exact hRest
  rw [← List.takeWhile_append_dropWhile (p := isSlash) (l := List.drop 1 _), List.mem_append] at hRest
  obtain hSlashes | hBehind := hRest
  · exact absurd (List.mem_takeWhile_imp hSlashes) (by decide)
  · exact hBehind

/-- An authority that nothing in the address ends is ended by the query behind it. -/
theorem authorityOf_append {blanks query authority : List Char} {mark : Char}
    (hBlanks : ∀ c ∈ blanks, isControlOrSpace c = true) (hMark : mark = '?' ∨ mark = '&' ∧ '?' ∈ cleaned)
    (h : authorityOf cleaned = some authority) (hAuthority : authority ≠ []) :
    authorityOf (cleaned ++ blanks ++ mark :: query) = some authority ∨
      authorityOf (cleaned ++ blanks ++ mark :: query) = some (authority ++ blanks) := by
  rw [authorityOf] at h
  obtain ⟨⟨hScheme, hColon⟩, hCut⟩ := Option.ite_none_right_eq_some.mp h
  have hCut := Option.some.inj hCut
  have hBehind : behindSlashes cleaned ≠ [] := by
    intro hNil
    rw [hNil] at hCut
    exact hAuthority hCut.symm
  have hStop : ∃ c ∈ cleaned, (c != ':') = false := ⟨':', hColon, rfl⟩
  have hWhole : authorityOf (cleaned ++ (blanks ++ mark :: query)) =
      some ((behindSlashes cleaned ++ (blanks ++ mark :: query)).takeWhile (! endsAuthority ·)) := by
    rw [authorityOf, takeWhile_append_of_exists hStop, if_pos ⟨hScheme, List.mem_append_left _ hColon⟩,
      behindSlashes_append hColon hBehind]
  rw [List.append_assoc, hWhole]
  by_cases hEnds : ∃ c ∈ behindSlashes cleaned, (! endsAuthority c) = false
  · left
    rw [takeWhile_append_of_exists hEnds, hCut]
  · right
    have hNone : ∀ c ∈ behindSlashes cleaned, (! endsAuthority c) = true := by
      intro c hc
      by_contra hEnd
      exact hEnds ⟨c, hc, Bool.eq_false_iff.mpr hEnd⟩
    have hMark : mark = '?' := by
      obtain hMark | ⟨-, hQuestion⟩ := hMark
      · exact hMark
      · exact absurd (hNone _ (mem_behindSlashes hScheme hQuestion)) (by decide)
    have hBlanks : ∀ c ∈ blanks, (! endsAuthority c) = true := by
      intro c hc
      rw [Bool.not_eq_true', endsAuthority, isSlash]
      simp only [Bool.or_eq_false_iff, beq_eq_false_iff_ne]
      exact ⟨⟨⟨ne_of_control (hBlanks c hc) (by decide), ne_of_control (hBlanks c hc) (by decide)⟩,
        ne_of_control (hBlanks c hc) (by decide)⟩, ne_of_control (hBlanks c hc) (by decide)⟩
    have hAll : behindSlashes cleaned = authority := by
      rw [← hCut, List.takeWhile_eq_self_iff.mpr hNone]
    rw [List.takeWhile_append_of_pos hNone, List.takeWhile_append_of_pos hBlanks, hMark, List.takeWhile_cons,
      if_neg (by decide), List.append_nil, hAll]

theorem hostAndPort_of_notMem {text : List Char} (h : '@' ∉ text) : hostAndPort text = text := by
  have hAll : ∀ c ∈ text.reverse, (c != '@') = true := by
    intro c hc
    apply bne_iff_ne.mpr
    rintro rfl
    exact h (List.mem_reverse.mp hc)
  rw [hostAndPort, List.takeWhile_eq_self_iff.mpr hAll, List.reverse_reverse]

theorem hostAndPort_behind {text : List Char} (h : '@' ∉ text) (credentials : List Char) :
    hostAndPort (credentials ++ '@' :: text) = text := by
  have hText := hostAndPort_of_notMem h
  rw [hostAndPort] at hText
  have hStop : ∃ c ∈ text.reverse ++ ['@'], (c != '@') = false :=
    ⟨'@', List.mem_append_right _ (List.mem_singleton.mpr rfl), rfl⟩
  have hAll : ∀ c ∈ text.reverse, (c != '@') = true := by
    intro c hc
    apply bne_iff_ne.mpr
    rintro rfl
    exact h (List.mem_reverse.mp hc)
  rw [hostAndPort, List.reverse_append, List.reverse_cons, takeWhile_append_of_exists hStop,
    List.takeWhile_append_of_pos hAll, List.takeWhile_cons, if_neg (by decide), List.append_nil, List.reverse_reverse]

theorem splitPort_fst {text : List Char} (h : '[' ∉ (splitPort false text).1) :
    (splitPort false text).1 = text.takeWhile (· != ':') := by
  induction text with
  | nil => rfl
  | cons c text ih =>
    rw [splitPort] at h ⊢
    rw [List.takeWhile_cons]
    by_cases hColon : c = ':'
    · rw [if_pos ⟨hColon, rfl⟩, if_neg (by simp [hColon])]
    · rw [if_neg (fun hBoth => hColon hBoth.1)] at h ⊢
      rw [if_pos (bne_iff_ne.mpr hColon)]
      by_cases hBracket : c = '['
      · rw [hBracket] at h
        exact absurd List.mem_cons_self h
      · rw [if_neg hBracket, ite_self] at h ⊢
        dsimp only at h ⊢
        rw [ih (List.not_mem_of_not_mem_cons h)]

theorem hostAndPort_append {authority blanks : List Char} (h : ∀ c ∈ blanks, c ≠ '@') :
    hostAndPort (authority ++ blanks) = hostAndPort authority ++ blanks := by
  have hBlanks : ∀ c ∈ blanks.reverse, (c != '@') = true := by
    intro c hc
    exact bne_iff_ne.mpr (h c (List.mem_reverse.mp hc))
  rw [hostAndPort, hostAndPort, List.reverse_append, List.takeWhile_append_of_pos hBlanks, List.reverse_append,
    List.reverse_reverse]

theorem splitPort_append {blanks : List Char} (h : ∀ c ∈ blanks, c ≠ ':') (text : List Char) (inside : Bool) :
    splitPort inside (text ++ blanks) =
      match splitPort inside text with
      | (host, some port) => (host, some (port ++ blanks))
      | (host, none) => (host ++ blanks, none) := by
  induction text generalizing inside with
  | nil =>
    rw [splitPort, List.nil_append]
    dsimp only
    rw [List.nil_append]
    induction blanks generalizing inside with
    | nil => rfl
    | cons c blanks ih =>
      obtain ⟨hc, hRest⟩ := List.forall_mem_cons.mp h
      rw [splitPort, if_neg (fun hSplit => hc hSplit.1), ih hRest]
  | cons c text ih =>
    rw [List.cons_append, splitPort, splitPort]
    split_ifs
    · rfl
    all_goals
      dsimp only
      rw [ih]
      generalize splitPort _ text = cut
      obtain ⟨host, _ | port⟩ := cut <;> rfl

/-- The port takes no blanks, and a host with a blank is none. -/
theorem hostOf_append {hostParser : List Char → Option (List Char)} (hParser : StandardHosts hostParser)
    {authority blanks host other : List Char} (hBlanks : ∀ c ∈ blanks, isControlOrSpace c = true)
    (h : hostOf hostParser authority = some host) (hOther : hostOf hostParser (authority ++ blanks) = some other) :
    other = host := by
  cases blanks with
  | nil =>
    rw [List.append_nil, h] at hOther
    exact (Option.some.inj hOther).symm
  | cons blank blanks =>
    exfalso
    have hBlank := hBlanks blank List.mem_cons_self
    rw [hostOf, hostAndPort_append (fun c hc => ne_of_control (hBlanks c hc) (by decide)),
      splitPort_append (fun c hc => ne_of_control (hBlanks c hc) (by decide))] at hOther
    rcases hCut : splitPort false (hostAndPort authority) with ⟨written, port⟩
    cases port with
    | none =>
      rw [hCut] at hOther
      obtain ⟨-, hParsed⟩ := Option.ite_none_left_eq_some.mp hOther
      rw [hParser.blank _ ⟨blank, List.mem_append_right _ List.mem_cons_self, hBlank⟩] at hParsed
      cases hParsed
    | some port =>
      rw [hCut] at hOther
      obtain ⟨hFits, -⟩ := Option.ite_none_left_eq_some.mp hOther
      rw [not_or, not_not, Option.all_some, portFits, Bool.and_eq_true, List.all_eq_true] at hFits
      have hDigit := hFits.2.1 blank (List.mem_append_right _ List.mem_cons_self)
      rw [not_control_of_isDigit hDigit] at hBlank
      cases hBlank

/-- A query behind an address does not change the address's host. -/
theorem httpsHost_append {hostParser : List Char → Option (List Char)} (hParser : StandardHosts hostParser)
    {address query host other : List Char} {mark : Char} (hQuery : ∀ c ∈ mark :: query, isControlOrSpace c = false)
    (hMark : mark = '?' ∨ mark = '&' ∧ '?' ∈ address) (h : httpsHost hostParser address = some host)
    (hOther : httpsHost hostParser (address ++ mark :: query) = some other) : other = host := by
  obtain ⟨authority, hAuthority, hHost⟩ := Option.bind_eq_some_iff.mp h
  have hNonempty : authority ≠ [] := by
    rintro rfl
    rw [hostOf] at hHost
    exact (Option.ite_none_left_eq_some.mp hHost).1 (.inl rfl)
  have hColon : ':' ∈ address := by
    rw [authorityOf] at hAuthority
    exact mem_of_mem_clean (Option.ite_none_right_eq_some.mp hAuthority).1.2
  obtain ⟨blanks, hBlanks, hClean⟩ := clean_append hQuery (List.cons_ne_nil _ _) ⟨':', hColon, by decide⟩
  have hMark : mark = '?' ∨ mark = '&' ∧ '?' ∈ clean address := by
    obtain hMark | ⟨hMark, hQuestion⟩ := hMark
    · exact .inl hMark
    · exact .inr ⟨hMark, mem_clean hQuestion (by decide)⟩
  rw [httpsHost, hClean] at hOther
  obtain hSame | hLonger := authorityOf_append hBlanks hMark hAuthority hNonempty
  · rw [hSame, Option.bind_some, hHost] at hOther
    exact (Option.some.inj hOther).symm
  · rw [hLonger, Option.bind_some] at hOther
    exact hostOf_append hParser hBlanks hHost hOther

end

/-! ## Addresses whose host can be read off -/

section

variable {address host : List Char}

theorem PlainHost.ne_nil (h : PlainHost host) : host ≠ [] := by
  rintro rfl
  exact absurd h (by decide)

theorem ne_of_hostLetter {c d : Char} (hc : isHostLetter c = true) (hd : isHostLetter d = false) : c ≠ d := by
  rintro rfl
  rw [hc] at hd
  cases hd

theorem visible_of_hostLetter {c : Char} (h : isHostLetter c = true) : isVisible c = true := by
  simp only [isHostLetter, Bool.or_eq_true, isAlphanum_iff, beq_iff_eq] at h
  simp only [isVisible, Bool.and_eq_true, decide_eq_true_eq]
  obtain (((h | rfl) | rfl) | rfl) := h
  · omega
  all_goals decide

theorem endsAuthority_hostLetter {c : Char} (h : isHostLetter c = true) : endsAuthority c = false := by
  rw [endsAuthority, isSlash]
  simp only [Bool.or_eq_false_iff, beq_eq_false_iff_ne]
  exact ⟨⟨⟨ne_of_hostLetter h (by decide), ne_of_hostLetter h (by decide)⟩, ne_of_hostLetter h (by decide)⟩,
    ne_of_hostLetter h (by decide)⟩

theorem hostText_eq_some {port : Option (List Char)} (h : hostText address = some (host, port)) :
    ∃ authority tail, address = "https://".toList ++ authority ++ tail ∧ (∀ c ∈ tail.head?, c = '/' ∨ c = '?' ∨ c = '#') ∧
      (∀ c ∈ authority, endsAuthority c = false) ∧ (∀ c ∈ hostAndPort authority, isControlOrSpace c = false) ∧
      splitPort false (hostAndPort authority) = (host, port) ∧ host ≠ [] ∧
      ('[' ∈ host → (hostAndPort authority).head? = some '[' ∧ port = none) := by
  rw [hostText] at h
  obtain ⟨hScheme, hHost⟩ := Option.ite_none_right_eq_some.mp h
  obtain ⟨⟨hSlash, hVisible, hNonempty, hBracket⟩, hSame⟩ := Option.ite_none_right_eq_some.mp hHost
  have hSame := Option.some.inj hSame
  rw [hSame] at hNonempty hBracket
  refine ⟨_, (address.drop 8).dropWhile fun c => ! (c == '/' || c == '?' || c == '#'), ?_, ?_, ?_, hVisible, hSame,
    hNonempty, hBracket⟩
  · rw [List.append_assoc, List.takeWhile_append_dropWhile, ← hScheme, List.take_append_drop]
  · intro c hc
    have hStop := List.head?_dropWhile_not (fun c => ! (c == '/' || c == '?' || c == '#')) (address.drop 8)
    rw [Option.mem_def.mp hc] at hStop
    simpa [or_iff_not_imp_left] using hStop
  · intro c hc
    have hOutside := List.mem_takeWhile_imp hc
    have hOther : c ≠ '\\' := by
      rintro rfl
      exact hSlash hc
    rw [endsAuthority, isSlash]
    simp only [Bool.not_eq_true', Bool.or_eq_false_iff, beq_eq_false_iff_ne] at hOutside ⊢
    exact ⟨⟨⟨hOutside.1.1, hOther⟩, hOutside.1.2⟩, hOutside.2⟩

/-- Tabs and newlines go, and the end of the front stays where it is. -/
theorem clean_front {front tail : List Char} (hFirst : ∃ c ∈ front.head?, isControlOrSpace c = false)
    (hLast : ∀ c ∈ front.getLast?, isControlOrSpace c = false) (hTail : ∀ c ∈ tail.head?, c = '/' ∨ c = '?' ∨ c = '#') :
    ∃ kept, clean (front ++ tail) = front.filter (! isTabOrNewline ·) ++ kept ∧
      ∀ c ∈ kept.head?, endsAuthority c = true := by
  obtain ⟨first, hFirst, hLetter⟩ := hFirst
  have hFore : (front ++ tail).dropWhile isControlOrSpace = front ++ tail := by
    apply dropWhile_of_head
    rw [List.head?_append, Option.mem_def.mp hFirst]
    rintro _ ⟨⟩
    exact hLetter
  rw [clean, strip, hFore]
  cases tail with
  | nil =>
    refine ⟨[], ?_, by rintro _ ⟨⟩⟩
    rw [List.append_nil, List.append_nil, dropWhile_of_head, List.reverse_reverse]
    rwa [List.head?_reverse]
  | cons mark tail =>
    have hMark : isControlOrSpace mark = false ∧ isTabOrNewline mark = false ∧ endsAuthority mark = true := by
      obtain rfl | rfl | rfl := hTail mark rfl
      · decide
      · decide
      · decide
    have hBack : ∀ c ∈ (mark :: front.reverse).head?, isControlOrSpace c = false := by
      rintro _ ⟨⟩
      exact hMark.1
    obtain ⟨kept, hKept⟩ := dropWhile_append_of_head hBack tail.reverse
    refine ⟨mark :: kept.reverse.filter (! isTabOrNewline ·), ?_, ?_⟩
    · have hForm : (front ++ mark :: tail).reverse = tail.reverse ++ mark :: front.reverse := by simp
      rw [hForm, hKept, List.reverse_append, List.reverse_cons, List.reverse_reverse, List.filter_append,
        List.filter_append, List.filter_cons_of_pos (by rw [hMark.2.1]; rfl), List.filter_nil, List.append_assoc]
      rfl
    · rintro _ ⟨⟩
      exact hMark.2.2

theorem not_control_of_scheme : ∀ c ∈ "https://".toList, isControlOrSpace c = false := by decide

theorem authorityOf_plain {authority kept : List Char} (hLetters : ∀ c ∈ authority, endsAuthority c = false)
    (hNonempty : authority ≠ []) (hKept : ∀ c ∈ kept.head?, endsAuthority c = true) :
    authorityOf ("https://".toList ++ (authority ++ kept)) = some authority := by
  have hScheme : ("https://".toList ++ (authority ++ kept)).takeWhile (· != ':') = "https".toList := rfl
  have hOutside : ∀ c ∈ authority, (! endsAuthority c) = true := by
    intro c hc
    rw [hLetters c hc]
    rfl
  have hEnd : ∀ c ∈ kept.head?, (! endsAuthority c) = false := by
    intro c hc
    rw [hKept c hc]
    rfl
  have hBehind : behindSlashes ("https://".toList ++ (authority ++ kept)) = authority ++ kept := by
    change (authority ++ kept).dropWhile isSlash = authority ++ kept
    obtain ⟨c, rest, rfl⟩ := List.exists_cons_of_ne_nil hNonempty
    have hFirst := hLetters c List.mem_cons_self
    rw [endsAuthority, Bool.or_eq_false_iff, Bool.or_eq_false_iff] at hFirst
    rw [List.cons_append, List.dropWhile_cons, hFirst.1.1, if_neg Bool.false_ne_true]
  rw [authorityOf, hBehind, hScheme, if_pos ⟨rfl, List.mem_append_left _ (by decide)⟩, takeWhile_front hOutside hEnd]

theorem hostAndPort_filter {p : Char → Bool} (hSign : p '@' = true) (text : List Char) :
    hostAndPort (text.filter p) = (hostAndPort text).filter p := by
  have hStop : ∀ c, (c != '@') = false → p c = true := by
    intro c hc
    rw [bne_eq_false_iff_eq.mp hc]
    exact hSign
  rw [hostAndPort, hostAndPort, ← List.filter_reverse, takeWhile_filter hStop, List.filter_reverse]

/-- The standard finds the host where it can be read off. -/
theorem httpsHost_hostText {hostParser : List Char → Option (List Char)} {port : Option (List Char)}
    (h : hostText address = some (host, port)) :
    httpsHost hostParser address = if port.all portFits = true then hostParser host else none := by
  obtain ⟨authority, tail, rfl, hTail, hOutside, hVisible, hCut, hNonempty, -⟩ := hostText_eq_some h
  have hHostPort : hostAndPort authority ≠ [] := by
    intro hNil
    rw [hNil] at hCut
    exact hNonempty (congrArg Prod.fst hCut).symm
  have hFront : ∃ user, authority = user ++ hostAndPort authority := by
    have hSuffix := List.takeWhile_prefix (l := authority.reverse) (· != '@')
    rw [← List.reverse_suffix, List.reverse_reverse] at hSuffix
    obtain ⟨user, hUser⟩ := hSuffix
    exact ⟨user, hUser.symm⟩
  obtain ⟨user, hUser⟩ := hFront
  have hLast : ∀ c ∈ ("https://".toList ++ authority).getLast?, isControlOrSpace c = false := by
    intro c hc
    rw [hUser, ← List.append_assoc, List.getLast?_append_of_ne_nil _ hHostPort] at hc
    exact hVisible c (List.mem_of_mem_getLast? hc)
  obtain ⟨kept, hClean, hKept⟩ := clean_front ⟨'h', rfl, by decide⟩ hLast hTail
  have hLess : hostAndPort (authority.filter (! isTabOrNewline ·)) = hostAndPort authority := by
    rw [hostAndPort_filter (by decide), filter_visible hVisible]
  have hSome : authority.filter (! isTabOrNewline ·) ≠ [] := by
    intro hNil
    rw [hNil] at hLess
    exact hHostPort hLess.symm
  have hScheme : ("https://".toList ++ authority).filter (! isTabOrNewline ·) =
      "https://".toList ++ authority.filter (! isTabOrNewline ·) := by
    rw [List.filter_append]
    rfl
  rw [httpsHost, hClean, hScheme, List.append_assoc,
    authorityOf_plain (fun c hc => hOutside c (List.mem_filter.mp hc).1) hSome hKept, Option.bind_some, hostOf, hLess, hCut]
  dsimp only
  split_ifs with hNone hFits hFits
  · exact absurd (hNone.resolve_right (not_not.mpr hFits)) hNonempty
  · rfl
  · rfl
  · exact absurd (.inr hFits) hNone

theorem splitPort_none {inside : Bool} {text : List Char} (h : splitPort inside text = (host, none)) : host = text := by
  induction text generalizing inside host with
  | nil =>
    cases h
    rfl
  | cons c text ih =>
    rw [splitPort] at h
    split at h
    · cases h
    · rcases hCut : splitPort (if c = '[' then true else if c = ']' then false else inside) text with ⟨front, port⟩
      rw [hCut] at h
      obtain ⟨rfl, rfl⟩ := Prod.mk.inj h
      rw [ih hCut]

/-- A backslash ends an authority, whatever is behind it. -/
theorem httpsHost_backslash {hostParser : List Char → Option (List Char)} (hParser : StandardHosts hostParser)
    (hHost : PlainHost host) {tail : List Char} (hTail : ∀ c ∈ tail, isVisible c = true) :
    httpsHost hostParser ("https://".toList ++ (host ++ '\\' :: tail)) = some (host.map Char.toLower) := by
  have hVisible : ∀ c ∈ "https://".toList ++ (host ++ '\\' :: tail), isControlOrSpace c = false := by
    intro c hc
    rw [List.mem_append, List.mem_append, List.mem_cons] at hc
    obtain hScheme | hHosts | rfl | hRest := hc
    · exact not_control_of_scheme c hScheme
    · exact not_control_of_visible (visible_of_hostLetter (hHost.letters c hHosts))
    · decide
    · exact not_control_of_visible (hTail c hRest)
  have hKept : ∀ c ∈ ('\\' :: tail).head?, endsAuthority c = true := by
    rintro _ ⟨⟩
    decide
  have hSign : hostAndPort host = host :=
    hostAndPort_of_notMem fun h => ne_of_hostLetter (hHost.letters _ h) (by decide) rfl
  have hPort : splitPort false host = (host, none) :=
    splitPort_append (fun c hc => ne_of_hostLetter (hHost.letters c hc) (by decide)) [] false
  rw [httpsHost, clean_visible hVisible,
    authorityOf_plain (fun c hc => endsAuthority_hostLetter (hHost.letters c hc)) hHost.ne_nil hKept, Option.bind_some, hostOf,
    hSign, hPort, if_neg, hParser.plain host hHost]
  rintro (hNil | hFits)
  · exact hHost.ne_nil hNil
  · exact hFits rfl

end

end Lib.WebUrl
