import Mathlib.Data.List.TakeWhile
import Mathlib.Data.UInt

/-! # Socket addresses

The readers and writers of Rust's standard library. A reader takes what it accepts off the front of a text,
and nothing where it fails. An IPv6 address is bracketed in a socket address and stands alone in its own text.
-/

namespace Lib

/-! ## Addresses -/

structure Ipv4Addr where
  first : UInt8
  second : UInt8
  third : UInt8
  fourth : UInt8
deriving DecidableEq

abbrev Ipv6Addr := Vector UInt16 8

inductive IpAddr where
  | v4 (ip : Ipv4Addr)
  | v6 (ip : Ipv6Addr)
deriving DecidableEq

inductive SocketAddr where
  | v4 (ip : Ipv4Addr) (port : UInt16)
  | v6 (ip : Ipv6Addr) (port : UInt16) (flowinfo scopeId : UInt32)
deriving DecidableEq

namespace SocketAddr

def ip : SocketAddr → IpAddr
  | .v4 ip _ => .v4 ip
  | .v6 ip _ _ _ => .v6 ip

def port : SocketAddr → UInt16
  | .v4 _ port => port
  | .v6 _ port _ _ => port

def isIpv4 : SocketAddr → Bool
  | .v4 .. => true
  | .v6 .. => false

/-! ## Readers -/

def readGivenChar (target : Char) : List Char → Option (List Char)
  | [] => none
  | c :: text => if c = target then some text else none

/-- A separator stands in front of every part but the first. -/
def readSeparator {α : Type} (separator : Char) (index : Nat) (inner : List Char → Option α) (text : List Char) : Option α :=
  if 0 < index then (readGivenChar separator text).bind inner else inner text

def toDigit (radix : Nat) (c : Char) : Option Nat :=
  let value :=
    if c.isDigit then c.toNat - '0'.toNat
    else if c.isLower then c.toNat - 'a'.toNat + 10
    else if c.isUpper then c.toNat - 'A'.toNat + 10
    else radix
  if value < radix then some value else none

def digitsValue (radix : Nat) (digits : List Char) : Nat :=
  digits.foldl (fun value c => value * radix + (toDigit radix c).getD 0) 0

def readNumber (radix size : Nat) (maxDigits : Option Nat) (allowZeroPrefix : Bool) (text : List Char) :
    Option (Nat × List Char) :=
  let digits := text.takeWhile fun c => (toDigit radix c).isSome
  let value := digitsValue radix digits
  if digits = [] ∨ maxDigits.any (· < digits.length) ∨ size ≤ value ∨
    (allowZeroPrefix = false ∧ digits.head? = some '0' ∧ 1 < digits.length) then none
  else some (value, text.dropWhile fun c => (toDigit radix c).isSome)

def readOctet (index : Nat) : List Char → Option (Nat × List Char) :=
  readSeparator '.' index (readNumber 10 UInt8.size (some 3) false)

def readIpv4Addr (text : List Char) : Option (Ipv4Addr × List Char) :=
  (readOctet 0 text).bind fun (first, text) =>
  (readOctet 1 text).bind fun (second, text) =>
  (readOctet 2 text).bind fun (third, text) =>
  (readOctet 3 text).map fun (fourth, text) =>
    (⟨.ofNat first, .ofNat second, .ofNat third, .ofNat fourth⟩, text)

def joined (high low : UInt8) : UInt16 := .ofNat (high.toNat * 256 + low.toNat)

/-- A chunk of groups and whether an IPv4 address ends it, which takes the place of two. -/
def readGroups : Nat → Nat → List Char → List UInt16 × Bool × List Char
  | 0, _, text => ([], false, text)
  | left + 1, index, text =>
    match if 0 < left then readSeparator ':' index readIpv4Addr text else none with
    | some (ip, text) => ([joined ip.first ip.second, joined ip.third ip.fourth], true, text)
    | none =>
      match readSeparator ':' index (readNumber 16 UInt16.size (some 4) true) text with
      | some (group, text) =>
        let (groups, endsInIpv4, text) := readGroups left (index + 1) text
        (.ofNat group :: groups, endsInIpv4, text)
      | none => ([], false, text)

def ipv6OfGroups (head tail : List UInt16) : Ipv6Addr :=
  .ofFn fun i => (head ++ List.replicate (8 - head.length - tail.length) 0 ++ tail).getD i 0

def readIpv6Addr (text : List Char) : Option (Ipv6Addr × List Char) :=
  let (head, headIpv4, text) := readGroups 8 0 text
  if head.length = 8 then some (ipv6OfGroups head [], text)
  else if headIpv4 then none
  else
    (readGivenChar ':' text).bind fun text =>
    (readGivenChar ':' text).map fun text =>
      let (tail, _, text) := readGroups (8 - (head.length + 1)) 0 text
      (ipv6OfGroups head tail, text)

def readPort (text : List Char) : Option (Nat × List Char) :=
  (readGivenChar ':' text).bind (readNumber 10 UInt16.size none true)

def readScopeId (text : List Char) : Option (Nat × List Char) :=
  (readGivenChar '%' text).bind (readNumber 10 UInt32.size none true)

def readSocketAddrV4 (text : List Char) : Option (SocketAddr × List Char) :=
  (readIpv4Addr text).bind fun (ip, text) =>
  (readPort text).map fun (port, text) => (.v4 ip (.ofNat port), text)

def readSocketAddrV6 (text : List Char) : Option (SocketAddr × List Char) :=
  (readGivenChar '[' text).bind fun text =>
  (readIpv6Addr text).bind fun (ip, text) =>
    let (scopeId, text) := (readScopeId text).getD (0, text)
    (readGivenChar ']' text).bind fun text =>
    (readPort text).map fun (port, text) => (.v6 ip (.ofNat port) 0 (.ofNat scopeId), text)

/-- The whole text is one address. -/
def fromStr (text : List Char) : Option SocketAddr :=
  match (readSocketAddrV4 text).or (readSocketAddrV6 text) with
  | some (address, []) => some address
  | _ => none

end SocketAddr

/-! ## Writers -/

def Ipv4Addr.display (ip : Ipv4Addr) : List Char :=
  Nat.toDigits 10 ip.first.toNat ++ '.' :: (Nat.toDigits 10 ip.second.toNat ++ '.' ::
    (Nat.toDigits 10 ip.third.toNat ++ '.' :: Nat.toDigits 10 ip.fourth.toNat))

/-- Runs of zeros by their start and length: the longest one, and the one at the end of what was read. -/
structure ZeroSpans where
  longest : Nat × Nat
  current : Nat × Nat

def ZeroSpans.next (spans : ZeroSpans) (index : Nat) (segment : UInt16) : ZeroSpans :=
  if segment = 0 then
    let current := if spans.current.2 = 0 then (index, 1) else (spans.current.1, spans.current.2 + 1)
    ⟨if spans.longest.2 < current.2 then current else spans.longest, current⟩
  else ⟨spans.longest, (0, 0)⟩

def innerZeros (segments : List UInt16) : Nat × Nat :=
  (segments.zipIdx.foldl (fun spans segment => ZeroSpans.next spans segment.2 segment.1) ⟨(0, 0), (0, 0)⟩).longest

def fmtSubslice (chunk : List UInt16) : List Char :=
  [':'].intercalate (chunk.map fun segment => Nat.toDigits 16 segment.toNat)

def Ipv6Addr.display (ip : Ipv6Addr) : List Char :=
  let segments := ip.toList
  if segments.take 6 = [0, 0, 0, 0, 0, 0xffff] then
    let octet (shift : Nat) (segment : UInt16) : UInt8 := .ofNat (segment.toNat / shift)
    let ipv4 : Ipv4Addr := ⟨octet 256 ip[6], octet 1 ip[6], octet 256 ip[7], octet 1 ip[7]⟩
    "::ffff:".toList ++ ipv4.display
  else
    let zeroes := innerZeros segments
    if 1 < zeroes.2 then
      fmtSubslice (segments.take zeroes.1) ++ "::".toList ++ fmtSubslice (segments.drop (zeroes.1 + zeroes.2))
    else fmtSubslice segments

def IpAddr.display : IpAddr → List Char
  | .v4 ip => ip.display
  | .v6 ip => ip.display

namespace SocketAddr

/-! ## Numbers -/

theorem toDigit_ten (c : Char) : toDigit 10 c = if c.isDigit then some (c.toNat - '0'.toNat) else none := by
  cases hDigit : c.isDigit with
  | true =>
    have hRange := hDigit
    simp only [Char.isDigit, Bool.and_eq_true, decide_eq_true_eq, ge_iff_le, UInt32.le_iff_toNat_le] at hRange
    change 48 ≤ c.toNat ∧ c.toNat ≤ 57 at hRange
    have hSmall : c.toNat - '0'.toNat < 10 := by
      change c.toNat - 48 < 10
      omega
    simp only [toDigit, hDigit, if_true, hSmall]
  | false =>
    have hLarge : ¬ (if c.isLower then c.toNat - 'a'.toNat + 10 else if c.isUpper then c.toNat - 'A'.toNat + 10 else 10) < 10 := by
      split_ifs <;> omega
    simp only [toDigit, hDigit, Bool.false_eq_true, if_false, hLarge]

theorem isSome_toDigit_ten (c : Char) : (toDigit 10 c).isSome = c.isDigit := by
  rw [toDigit_ten]
  cases c.isDigit <;> rfl

theorem digitsValue_ten {digits : List Char} (h : ∀ c ∈ digits, c.isDigit = true) :
    digitsValue 10 digits = Nat.ofDigitChars 10 digits 0 := by
  have hFold : ∀ value, digits.foldl (fun value c => value * 10 + (toDigit 10 c).getD 0) value =
      Nat.ofDigitChars 10 digits value := by
    induction digits with
    | nil => exact fun _ => rfl
    | cons c digits ih =>
      obtain ⟨hc, hDigits⟩ := List.forall_mem_cons.mp h
      intro value
      rw [List.foldl_cons, Nat.ofDigitChars_cons, toDigit_ten, if_pos hc, Option.getD_some, Nat.mul_comm value 10]
      exact ih hDigits _
  exact hFold 0

section

variable {size : Nat} {maxDigits : Option Nat} {allowZeroPrefix : Bool}

theorem readNumber_digits {digits rest : List Char} (hDigits : ∀ c ∈ digits, c.isDigit = true)
    (hRest : ∀ c ∈ rest.head?, c.isDigit = false) :
    readNumber 10 size maxDigits allowZeroPrefix (digits ++ rest) =
      if digits = [] ∨ maxDigits.any (· < digits.length) ∨ size ≤ Nat.ofDigitChars 10 digits 0 ∨
        (allowZeroPrefix = false ∧ digits.head? = some '0' ∧ 1 < digits.length) then none
      else some (Nat.ofDigitChars 10 digits 0, rest) := by
  have hAll : ∀ c ∈ digits, (toDigit 10 c).isSome = true := by
    intro c hc
    rw [isSome_toDigit_ten, hDigits c hc]
  have hCut : (digits ++ rest).takeWhile (fun c => (toDigit 10 c).isSome) = digits ∧
      (digits ++ rest).dropWhile (fun c => (toDigit 10 c).isSome) = rest := by
    rw [List.takeWhile_append_of_pos hAll, List.dropWhile_append_of_pos hAll]
    cases rest with
    | nil => exact ⟨List.append_nil _, rfl⟩
    | cons c rest =>
      have hStop : ¬ (toDigit 10 c).isSome = true := by
        rw [isSome_toDigit_ten, hRest c rfl]
        exact Bool.false_ne_true
      rw [List.takeWhile_cons, List.dropWhile_cons, if_neg hStop, if_neg hStop]
      exact ⟨List.append_nil _, rfl⟩
  rw [readNumber, hCut.1, hCut.2, digitsValue_ten hDigits]

theorem readNumber_toDigits {n : Nat} {rest : List Char} (hn : n < size)
    (hMax : ∀ most ∈ maxDigits, (Nat.toDigits 10 n).length ≤ most)
    (hZero : allowZeroPrefix = false → (Nat.toDigits 10 n).head? = some '0' → (Nat.toDigits 10 n).length ≤ 1)
    (hRest : ∀ c ∈ rest.head?, c.isDigit = false) :
    readNumber 10 size maxDigits allowZeroPrefix (Nat.toDigits 10 n ++ rest) = some (n, rest) := by
  have hDigits : ∀ c ∈ Nat.toDigits 10 n, c.isDigit = true := fun c hc =>
    Nat.isDigit_of_mem_toDigits (by decide) (by decide) hc
  rw [readNumber_digits hDigits hRest, Nat.ofDigitChars_ten_toDigits, if_neg]
  rintro (hNil | hLong | hLarge | ⟨hAllow, hHead, hLength⟩)
  · exact Nat.toDigits_ne_nil hNil
  · cases maxDigits with
    | none => cases hLong
    | some most =>
      have hFits := hMax most rfl
      have hOver := of_decide_eq_true hLong
      omega
  · omega
  · have hShort := hZero hAllow hHead
    omega

theorem readNumber_eq_some {text rest : List Char} {n : Nat}
    (h : readNumber 10 size maxDigits allowZeroPrefix text = some (n, rest)) :
    ∃ digits, text = digits ++ rest ∧ digits ≠ [] ∧ (∀ c ∈ digits, c.isDigit = true) ∧ n = Nat.ofDigitChars 10 digits 0 ∧
      n < size := by
  rw [readNumber] at h
  obtain ⟨hFits, hPair⟩ := Option.ite_none_left_eq_some.mp h
  rw [not_or, not_or, not_or] at hFits
  have hDigits : ∀ c ∈ text.takeWhile fun c => (toDigit 10 c).isSome, c.isDigit = true := by
    intro c hc
    rw [← isSome_toDigit_ten]
    exact List.mem_takeWhile_imp (p := fun c => (toDigit 10 c).isSome) hc
  obtain ⟨hValue, hRest⟩ := Prod.mk.inj (Option.some.inj hPair)
  refine ⟨_, ?_, hFits.1, hDigits, ?_, ?_⟩
  · rw [← hRest, List.takeWhile_append_dropWhile]
  · rw [← hValue, digitsValue_ten hDigits]
  · omega

end

/-! ## IPv4 -/

theorem stops {separator : Char} (h : separator.isDigit = false) (text : List Char) :
    ∀ c ∈ (separator :: text).head?, c.isDigit = false := by
  rintro _ ⟨⟩
  exact h

theorem octet_fits (octet : UInt8) : (Nat.toDigits 10 octet.toNat).length ≤ 3 ∧
    ((Nat.toDigits 10 octet.toNat).head? = some '0' → (Nat.toDigits 10 octet.toNat).length ≤ 1) := by
  have hAll : ∀ n < 256, (Nat.toDigits 10 n).length ≤ 3 ∧
      ((Nat.toDigits 10 n).head? = some '0' → (Nat.toDigits 10 n).length ≤ 1) := by decide +kernel
  exact hAll octet.toNat octet.toNat_lt

theorem readOctet_zero (octet : UInt8) {rest : List Char} (hRest : ∀ c ∈ rest.head?, c.isDigit = false) :
    readOctet 0 (Nat.toDigits 10 octet.toNat ++ rest) = some (octet.toNat, rest) := by
  obtain ⟨hLength, hZero⟩ := octet_fits octet
  have hMax : ∀ most ∈ some 3, (Nat.toDigits 10 octet.toNat).length ≤ most := by
    rintro _ ⟨⟩
    exact hLength
  exact readNumber_toDigits octet.toNat_lt hMax (fun _ => hZero) hRest

theorem readOctet_succ (index : Nat) (octet : UInt8) {rest : List Char} (hRest : ∀ c ∈ rest.head?, c.isDigit = false) :
    readOctet (index + 1) ('.' :: (Nat.toDigits 10 octet.toNat ++ rest)) = some (octet.toNat, rest) := by
  rw [readOctet, readSeparator, if_pos (Nat.succ_pos index), readGivenChar, if_pos rfl, Option.bind_some]
  exact readOctet_zero octet hRest

theorem readIpv4Addr_display (ip : Ipv4Addr) {rest : List Char} (hRest : ∀ c ∈ rest.head?, c.isDigit = false) :
    readIpv4Addr (ip.display ++ rest) = some (ip, rest) := by
  have hText : ip.display ++ rest = Nat.toDigits 10 ip.first.toNat ++ '.' :: (Nat.toDigits 10 ip.second.toNat ++
      '.' :: (Nat.toDigits 10 ip.third.toNat ++ '.' :: (Nat.toDigits 10 ip.fourth.toNat ++ rest))) := by
    simp only [Ipv4Addr.display, List.append_assoc, List.cons_append]
  rw [hText, readIpv4Addr, readOctet_zero ip.first (stops rfl _), Option.bind_some]
  dsimp only
  rw [readOctet_succ 0 ip.second (stops rfl _), Option.bind_some]
  dsimp only
  rw [readOctet_succ 1 ip.third (stops rfl _), Option.bind_some]
  dsimp only
  rw [readOctet_succ 2 ip.fourth hRest, Option.map_some]
  simp only [UInt8.ofNat_toNat]

theorem readPort_toDigits (port : UInt16) : readPort (':' :: Nat.toDigits 10 port.toNat) = some (port.toNat, []) := by
  have hMax : ∀ most ∈ (none : Option Nat), (Nat.toDigits 10 port.toNat).length ≤ most := by
    rintro _ ⟨⟩
  have hEnd : ∀ c ∈ ([] : List Char).head?, c.isDigit = false := by
    rintro _ ⟨⟩
  have hRead : readNumber 10 UInt16.size none true (Nat.toDigits 10 port.toNat ++ []) = some (port.toNat, []) :=
    readNumber_toDigits port.toNat_lt hMax nofun hEnd
  rw [List.append_nil] at hRead
  rw [readPort, readGivenChar, if_pos rfl, Option.bind_some]
  exact hRead

theorem fromStr_ipv4 (ip : Ipv4Addr) (port : UInt16) :
    fromStr (ip.display ++ ':' :: Nat.toDigits 10 port.toNat) = some (.v4 ip port) := by
  have hRead : readSocketAddrV4 (ip.display ++ ':' :: Nat.toDigits 10 port.toNat) = some (.v4 ip port, []) := by
    rw [readSocketAddrV4, readIpv4Addr_display ip (stops rfl _), Option.bind_some]
    dsimp only
    rw [readPort_toDigits, Option.map_some]
    dsimp only
    rw [UInt16.ofNat_toNat]
  rw [fromStr, hRead]
  rfl

/-! ## IPv6 -/

section

variable {text rest : List Char}

theorem readGivenChar_eq_some {target : Char} : readGivenChar target text = some rest ↔ text = target :: rest := by
  cases text with
  | nil => simp [readGivenChar]
  | cons c text =>
    rw [readGivenChar, Option.ite_none_right_eq_some, List.cons.injEq, Option.some.injEq]

theorem readIpv4Addr_dot {ip : Ipv4Addr} (h : readIpv4Addr text = some (ip, rest)) :
    ∃ digits behind, text = digits ++ '.' :: behind ∧ ∀ c ∈ digits, c.isDigit = true := by
  obtain ⟨⟨first, text'⟩, hFirst, hBehind⟩ := Option.bind_eq_some_iff.mp h
  obtain ⟨⟨second, text''⟩, hSecond, -⟩ := Option.bind_eq_some_iff.mp hBehind
  obtain ⟨digits, rfl, -, hDigits, -⟩ := readNumber_eq_some hFirst
  rw [readOctet, readSeparator, if_pos Nat.one_pos] at hSecond
  obtain ⟨behind, hDot, -⟩ := Option.bind_eq_some_iff.mp hSecond
  rw [readGivenChar_eq_some.mp hDot]
  exact ⟨digits, behind, rfl, hDigits⟩

/-- An IPv4 address needs a dot in front of the first colon. -/
theorem readIpv4Addr_colon {front : List Char} (h : '.' ∉ front) : readIpv4Addr (front ++ ':' :: rest) = none := by
  by_contra hSome
  obtain ⟨⟨ip, left⟩, hRead⟩ := Option.ne_none_iff_exists'.mp hSome
  obtain ⟨digits, behind, hText, hDigits⟩ := readIpv4Addr_dot hRead
  obtain ⟨between, rfl, hBehind⟩ | ⟨between, rfl, hBehind⟩ := List.append_eq_append_iff.mp hText
  · cases between with
    | nil => cases hBehind
    | cons c between =>
      cases hBehind
      exact absurd (hDigits ':' (List.mem_append_right _ List.mem_cons_self)) (by decide)
  · cases between with
    | nil => cases hBehind
    | cons c between =>
      cases hBehind
      exact h (List.mem_append_right _ List.mem_cons_self)

theorem readGivenChar_append {target : Char} {front : List Char} (h : target ∉ front) (hRest : ∀ c ∈ rest.head?, c ≠ target) :
    readGivenChar target (front ++ rest) = none := by
  rw [← Option.not_isSome_iff_eq_none, Option.isSome_iff_exists]
  rintro ⟨behind, hRead⟩
  have hText := readGivenChar_eq_some.mp hRead
  cases front with
  | nil =>
    rw [List.nil_append] at hText
    rw [hText] at hRest
    exact hRest target rfl rfl
  | cons c front =>
    cases hText
    exact h List.mem_cons_self

end

theorem hex_letters {n : Nat} {c : Char} (h : c ∈ Nat.toDigits 16 n) : c ≠ '.' ∧ c ≠ '[' := by
  have hDigit : ∀ d < 16, Nat.digitChar d ≠ '.' ∧ Nat.digitChar d ≠ '[' := by decide
  induction n using Nat.strong_induction_on with
  | _ n ih =>
    rw [Nat.toDigits_eq_if (by decide)] at h
    split_ifs at h with hSmall
    · rw [List.mem_singleton.mp h]
      exact hDigit n hSmall
    · obtain hFront | hLast := List.mem_append.mp h
      · exact ih (n / 16) (by omega) hFront
      · rw [List.mem_singleton.mp hLast]
        exact hDigit (n % 16) (by omega)

theorem mem_fmtSubslice {chunk : List UInt16} {c : Char} (h : c ∈ fmtSubslice chunk) : c ≠ '.' ∧ c ≠ '[' := by
  induction chunk with
  | nil => cases h
  | cons first chunk ih =>
    cases chunk with
    | nil =>
      rw [fmtSubslice, List.map_singleton, List.intercalate_singleton] at h
      exact hex_letters h
    | cons second chunk =>
      rw [fmtSubslice, List.map_cons, List.map_cons, List.intercalate_cons_cons, List.append_assoc, List.mem_append,
        List.mem_append] at h
      obtain hFirst | hColon | hRest := h
      · exact hex_letters hFirst
      · rw [List.mem_singleton.mp hColon]
        decide
      · exact ih hRest

theorem ipv6_display_colon (ip : Ipv6Addr) :
    ∃ front rest, ip.display = front ++ ':' :: rest ∧ '.' ∉ front ∧ '[' ∉ front := by
  rw [Ipv6Addr.display]
  dsimp only
  split_ifs
  · exact ⟨[], _, rfl, List.not_mem_nil, List.not_mem_nil⟩
  · refine ⟨fmtSubslice (ip.toList.take (innerZeros ip.toList).1), _, List.append_assoc _ _ _, ?_, ?_⟩
    · exact fun h => (mem_fmtSubslice h).1 rfl
    · exact fun h => (mem_fmtSubslice h).2 rfl
  · obtain ⟨first, second, chunk, hChunk⟩ : ∃ first second chunk, ip.toList = first :: second :: chunk := by
      have hLength : ip.toList.length = 8 := ip.length_toList
      match hList : ip.toList with
      | [] | [_] =>
        rw [hList] at hLength
        cases hLength
      | first :: second :: chunk => exact ⟨first, second, chunk, rfl⟩
    refine ⟨Nat.toDigits 16 first.toNat, fmtSubslice (second :: chunk), ?_, ?_, ?_⟩
    · rw [hChunk, fmtSubslice, List.map_cons, List.map_cons, List.intercalate_cons_cons, List.append_assoc]
      rfl
    · exact fun h => (hex_letters h).1 rfl
    · exact fun h => (hex_letters h).2 rfl

/-- The text of an IPv6 address begins no socket address, where it has brackets. -/
theorem fromStr_ipv6 (ip : Ipv6Addr) (tail : List Char) : fromStr (ip.display ++ tail) = none := by
  obtain ⟨front, rest, hDisplay, hDot, hBracket⟩ := ipv6_display_colon ip
  have hV4 : readIpv4Addr (front ++ ':' :: (rest ++ tail)) = none := readIpv4Addr_colon hDot
  have hV6 : readGivenChar '[' (front ++ ':' :: (rest ++ tail)) = none := by
    apply readGivenChar_append hBracket
    rintro _ ⟨⟩
    decide
  rw [hDisplay, List.append_assoc, List.cons_append, fromStr, readSocketAddrV4, hV4, readSocketAddrV6, hV6]
  rfl

/-! ## Ports -/

section

variable {α : Type} {text rest : List Char}

theorem readGivenChar_suffix {target : Char} (h : readGivenChar target text = some rest) : rest <:+ text := by
  rw [readGivenChar_eq_some.mp h]
  exact List.suffix_cons target rest

theorem readNumber_suffix {radix size n : Nat} {maxDigits : Option Nat} {allowZeroPrefix : Bool}
    (h : readNumber radix size maxDigits allowZeroPrefix text = some (n, rest)) : rest <:+ text := by
  rw [readNumber] at h
  obtain ⟨-, hPair⟩ := Option.ite_none_left_eq_some.mp h
  rw [← (Prod.mk.inj (Option.some.inj hPair)).2]
  exact List.dropWhile_suffix _

theorem readSeparator_suffix {separator : Char} {index : Nat} {inner : List Char → Option (α × List Char)} {value : α}
    (hInner : ∀ {text}, inner text = some (value, rest) → rest <:+ text)
    (h : readSeparator separator index inner text = some (value, rest)) : rest <:+ text := by
  rw [readSeparator] at h
  split_ifs at h
  · obtain ⟨behind, hGiven, hRead⟩ := Option.bind_eq_some_iff.mp h
    exact (hInner hRead).trans (readGivenChar_suffix hGiven)
  · exact hInner h

theorem readIpv4Addr_suffix {ip : Ipv4Addr} (h : readIpv4Addr text = some (ip, rest)) : rest <:+ text := by
  obtain ⟨⟨_, first⟩, hFirst, h⟩ := Option.bind_eq_some_iff.mp h
  obtain ⟨⟨_, second⟩, hSecond, h⟩ := Option.bind_eq_some_iff.mp h
  obtain ⟨⟨_, third⟩, hThird, h⟩ := Option.bind_eq_some_iff.mp h
  obtain ⟨⟨_, fourth⟩, hFourth, hPair⟩ := Option.map_eq_some_iff.mp h
  cases hPair
  exact (((readSeparator_suffix readNumber_suffix hFourth).trans (readSeparator_suffix readNumber_suffix hThird)).trans
    (readSeparator_suffix readNumber_suffix hSecond)).trans (readSeparator_suffix readNumber_suffix hFirst)

theorem readGroups_suffix (left index : Nat) (text : List Char) : (readGroups left index text).2.2 <:+ text := by
  induction left generalizing index text with
  | zero => exact List.suffix_refl text
  | succ left ih =>
    rw [readGroups]
    split
    · next ip behind hIpv4 =>
      split_ifs at hIpv4
      exact readSeparator_suffix readIpv4Addr_suffix hIpv4
    · split
      · next group behind hGroup =>
        exact (ih (index + 1) behind).trans (readSeparator_suffix readNumber_suffix hGroup)
      · exact List.suffix_refl text

theorem readIpv6Addr_suffix {ip : Ipv6Addr} (h : readIpv6Addr text = some (ip, rest)) : rest <:+ text := by
  have hHead := readGroups_suffix 8 0 text
  rw [readIpv6Addr] at h
  dsimp only at h
  split_ifs at h
  · cases h
    exact hHead
  · obtain ⟨first, hFirst, h⟩ := Option.bind_eq_some_iff.mp h
    obtain ⟨second, hSecond, hPair⟩ := Option.map_eq_some_iff.mp h
    cases hPair
    exact (((readGroups_suffix _ 0 second).trans (readGivenChar_suffix hSecond)).trans (readGivenChar_suffix hFirst)).trans hHead

theorem readPort_eq_some {port : Nat} (h : readPort text = some (port, rest)) :
    ∃ digits, text = ':' :: digits ++ rest ∧ digits ≠ [] ∧ (∀ c ∈ digits, c.isDigit = true) ∧
      Nat.ofDigitChars 10 digits 0 = port ∧ port < UInt16.size := by
  obtain ⟨behind, hColon, hNumber⟩ := Option.bind_eq_some_iff.mp h
  obtain ⟨digits, rfl, hNonempty, hDigits, hValue, hFits⟩ := readNumber_eq_some hNumber
  exact ⟨digits, readGivenChar_eq_some.mp hColon, hNonempty, hDigits, hValue.symm, hFits⟩

end

/-- A socket address ends in a colon and the digits of its port. -/
theorem port_of_fromStr {text : List Char} {address : SocketAddr} (h : fromStr text = some address) :
    ∃ front digits, text = front ++ ':' :: digits ∧ digits ≠ [] ∧ (∀ c ∈ digits, c.isDigit = true) ∧
      Nat.ofDigitChars 10 digits 0 = address.port.toNat := by
  have hEnd : ∃ behind port, behind <:+ text ∧ readPort behind = some (port, []) ∧ address.port = .ofNat port := by
    rw [fromStr] at h
    split at h
    · next address' hRead =>
      cases h
      obtain hV4 | ⟨-, hV6⟩ := Option.or_eq_some_iff.mp hRead
      · obtain ⟨⟨ip, behind⟩, hIp, h⟩ := Option.bind_eq_some_iff.mp hV4
        obtain ⟨⟨port, _⟩, hPort, hPair⟩ := Option.map_eq_some_iff.mp h
        cases hPair
        exact ⟨behind, port, readIpv4Addr_suffix hIp, hPort, rfl⟩
      · obtain ⟨inside, hOpen, h⟩ := Option.bind_eq_some_iff.mp hV6
        obtain ⟨⟨ip, scope⟩, hIp, h⟩ := Option.bind_eq_some_iff.mp h
        have hScope : ((readScopeId scope).getD (0, scope)).2 <:+ scope := by
          cases hRead : readScopeId scope with
          | none => exact List.suffix_refl scope
          | some read =>
            obtain ⟨digits, hPercent, hNumber⟩ := Option.bind_eq_some_iff.mp hRead
            exact (readNumber_suffix hNumber).trans (readGivenChar_suffix hPercent)
        obtain ⟨behind, hClose, h⟩ := Option.bind_eq_some_iff.mp h
        obtain ⟨⟨port, _⟩, hPort, hPair⟩ := Option.map_eq_some_iff.mp h
        cases hPair
        exact ⟨behind, port, (((readGivenChar_suffix hClose).trans hScope).trans (readIpv6Addr_suffix hIp)).trans
          (readGivenChar_suffix hOpen), hPort, rfl⟩
    · cases h
  obtain ⟨behind, port, ⟨front, rfl⟩, hPort, hSame⟩ := hEnd
  obtain ⟨digits, rfl, hNonempty, hDigits, hValue, hFits⟩ := readPort_eq_some hPort
  refine ⟨front, digits, by rw [List.append_nil], hNonempty, hDigits, ?_⟩
  rw [hValue, hSame, UInt16.toNat_ofNat_of_lt' hFits]

end SocketAddr

end Lib
