import WalletCore.Lib.SocketAddr
import WalletCore.Send.Letters

/-! # Addresses of peers

A peer is written as its key, an at sign, and the socket address it is dialled at. Keys are read and written by
a parameter.
-/

namespace WalletCore.Peers

open Lib
open Send (trim splitOnce rsplitOnce parseUnsigned Tight)

/-! ## Keys -/

/-- The texts of public keys. -/
structure PublicKeys (κ : Type) where
  fromStr : List Char → Option κ
  toString : κ → List Char

def isLowerHex (c : Char) : Bool := c.isDigit || ('a' ≤ c && c ≤ 'f')

/-- A key is written in 66 small hex digits, and read back from them. -/
structure PublicKeys.Lawful {κ : Type} (keys : PublicKeys κ) : Prop where
  read_shown : ∀ key, keys.fromStr (keys.toString key) = some key
  length : ∀ key, (keys.toString key).length = 66
  hex : ∀ key, ∀ c ∈ keys.toString key, isLowerHex c = true

/-! ## Parsing -/

inductive PeerAddressError where
  | missingAt
  | missingPort
  | invalidPort
  | invalidPubkey
  | hostnameUnsupported (host : List Char)
  | invalidHost (host : List Char)
deriving DecidableEq

def PeerAddressError.display : PeerAddressError → String
  | .missingAt => "Invalid peer address: expected pubkey@host:port"
  | .missingPort => "Invalid peer address: expected host:port after @"
  | .invalidPort => "Invalid peer address: port must be a number between 1 and 65535"
  | .invalidPubkey => "Invalid peer address: pubkey must be 66 lowercase hex characters"
  | .hostnameUnsupported host =>
    "Invalid peer address: hostname " ++ .ofList host ++ " is not supported; use an ip:port address"
  | .invalidHost host => "Invalid peer address: " ++ .ofList host ++ " is not a valid host"

def isHostnameLetter (c : Char) : Bool := c.isAlphanum || c == '.' || c == '-' || c == '_'

section

variable {κ : Type} (keys : PublicKeys κ)

/-- The port is checked before the key, and the address as a whole behind both. -/
def parsePeerAddress (address : List Char) : Except PeerAddressError (κ × SocketAddr) :=
  match splitOnce '@' (trim address) with
  | none => .error .missingAt
  | some (pubkeyStr, hostPort) =>
    match rsplitOnce ':' hostPort with
    | none => .error .missingPort
    | some (host, portStr) =>
      if ((parseUnsigned UInt16.size portStr).filter (1 ≤ ·)).isNone then .error .invalidPort
      else if pubkeyStr.length ≠ 66 ∨ ¬ pubkeyStr.all isLowerHex then .error .invalidPubkey
      else
        match keys.fromStr pubkeyStr with
        | none => .error .invalidPubkey
        | some pubkey =>
          match SocketAddr.fromStr hostPort with
          | some socketAddr => .ok (pubkey, socketAddr)
          | none =>
            if host ≠ [] ∧ host.all isHostnameLetter then .error (.hostnameUnsupported host) else .error (.invalidHost host)

/-! ## Accepted addresses -/

variable {keys} {address : List Char} {pubkey : κ} {socketAddr : SocketAddr}

theorem parsePeerAddress_eq_ok : parsePeerAddress keys address = .ok (pubkey, socketAddr) ↔
    ∃ pubkeyStr hostPort host portStr port, splitOnce '@' (trim address) = some (pubkeyStr, hostPort) ∧
      rsplitOnce ':' hostPort = some (host, portStr) ∧ parseUnsigned UInt16.size portStr = some port ∧ 1 ≤ port ∧
      pubkeyStr.length = 66 ∧ (∀ c ∈ pubkeyStr, isLowerHex c = true) ∧ keys.fromStr pubkeyStr = some pubkey ∧
      SocketAddr.fromStr hostPort = some socketAddr := by
  constructor
  · intro h
    rw [parsePeerAddress] at h
    split at h
    · cases h
    · next pubkeyStr hostPort hSplit =>
      split at h
      · cases h
      · next host portStr hPort =>
        by_cases hRange : ((parseUnsigned UInt16.size portStr).filter (1 ≤ ·)).isNone = true
        · rw [if_pos hRange] at h
          cases h
        rw [if_neg hRange] at h
        by_cases hPubkey : pubkeyStr.length ≠ 66 ∨ ¬ pubkeyStr.all isLowerHex = true
        · rw [if_pos hPubkey] at h
          cases h
        rw [if_neg hPubkey] at h
        obtain ⟨port, hFilter⟩ : ∃ port, (parseUnsigned UInt16.size portStr).filter (1 ≤ ·) = some port := by
          rw [← Option.isSome_iff_exists, ← Option.not_isNone]
          simpa using hRange
        obtain ⟨hValue, hPositive⟩ := Option.filter_eq_some_iff.mp hFilter
        rw [not_or, not_not, not_not, List.all_eq_true] at hPubkey
        split at h
        · cases h
        · next key hKey =>
          split at h
          · next found hFound =>
            cases h
            exact ⟨pubkeyStr, hostPort, host, portStr, port, hSplit, hPort, hValue, of_decide_eq_true hPositive, hPubkey.1,
              hPubkey.2, hKey, hFound⟩
          · split at h <;> cases h
  · rintro ⟨pubkeyStr, hostPort, host, portStr, port, hSplit, hPort, hValue, hPositive, hLength, hHex, hKey, hFound⟩
    have hRange : ¬ ((parseUnsigned UInt16.size portStr).filter (1 ≤ ·)).isNone = true := by
      rw [hValue, Option.filter_some, if_pos (decide_eq_true hPositive)]
      exact Bool.false_ne_true
    have hPubkey : ¬ (pubkeyStr.length ≠ 66 ∨ ¬ pubkeyStr.all isLowerHex = true) := by
      rw [not_or, not_not, not_not, List.all_eq_true]
      exact ⟨hLength, hHex⟩
    rw [parsePeerAddress, hSplit]
    dsimp only
    rw [hPort]
    dsimp only
    rw [if_neg hRange, if_neg hPubkey, hKey]
    dsimp only
    rw [hFound]

theorem parseUnsigned_isDigit {size : Nat} {digits : List Char} (hNonempty : digits ≠ [])
    (hDigits : ∀ c ∈ digits, c.isDigit = true) (hSize : Nat.ofDigitChars 10 digits 0 < size) :
    parseUnsigned size digits = some (Nat.ofDigitChars 10 digits 0) := by
  rw [parseUnsigned]
  · exact if_pos ⟨hNonempty, List.all_eq_true.mpr hDigits, hSize⟩
  · rintro signed rfl
    exact absurd (hDigits '+' List.mem_cons_self) (by decide)

theorem port_pos (h : parsePeerAddress keys address = .ok (pubkey, socketAddr)) : 1 ≤ socketAddr.port.toNat := by
  obtain ⟨_, hostPort, host, portStr, port, -, hCut, hValue, hPositive, -, -, -, hFound⟩ := parsePeerAddress_eq_ok.mp h
  obtain ⟨front, digits, rfl, hNonempty, hDigits, hPort⟩ := SocketAddr.port_of_fromStr hFound
  have hNoColon : ':' ∉ digits := fun hColon => absurd (hDigits ':' hColon) (by decide)
  rw [Send.rsplitOnce_eq_some.mpr ⟨rfl, hNoColon⟩] at hCut
  obtain ⟨-, hSame⟩ := Prod.mk.inj (Option.some.inj hCut)
  have hFits : Nat.ofDigitChars 10 digits 0 < UInt16.size := by
    rw [hPort]
    exact socketAddr.port.toNat_lt
  rw [← hSame, parseUnsigned_isDigit hNonempty hDigits hFits, hPort] at hValue
  cases hValue
  exact hPositive

theorem isAlphanum_of_lowerHex {c : Char} (h : isLowerHex c = true) : c.isAlphanum = true := by
  rw [isLowerHex, Bool.or_eq_true] at h
  obtain hDigit | hLetter := h
  · rw [Char.isAlphanum, hDigit, Bool.or_true]
  · rw [Bool.and_eq_true, decide_eq_true_eq, decide_eq_true_eq] at hLetter
    have hFirst : 97 ≤ c.toNat := hLetter.1
    have hLast : c.toNat ≤ 102 := hLetter.2
    exact isAlphanum_iff.mpr (by omega)

/-- What is shown of a peer is read as its key and the address that is read in the rest. -/
theorem parsePeerAddress_shown (hKeys : keys.Lawful) {host : List Char} {port : UInt16} (hPort : 1 ≤ port.toNat) :
    parsePeerAddress keys (keys.toString pubkey ++ '@' :: (host ++ ':' :: Nat.toDigits 10 port.toNat)) =
      .ok (pubkey, socketAddr) ↔ SocketAddr.fromStr (host ++ ':' :: Nat.toDigits 10 port.toNat) = some socketAddr := by
  have hDigits : ∀ c ∈ Nat.toDigits 10 port.toNat, c.isDigit = true := fun c hc =>
    Nat.isDigit_of_mem_toDigits (by decide) (by decide) hc
  have hTrim : trim (keys.toString pubkey ++ '@' :: (host ++ ':' :: Nat.toDigits 10 port.toNat)) =
      keys.toString pubkey ++ '@' :: (host ++ ':' :: Nat.toDigits 10 port.toNat) := by
    apply Tight.trim_eq
    constructor
    · obtain ⟨first, key, hKey⟩ := List.exists_cons_of_length_pos (l := keys.toString pubkey) (by rw [hKeys.length]; decide)
      rw [hKey]
      rintro _ ⟨⟩
      exact Send.notSpace_of_alphanum (isAlphanum_of_lowerHex (hKeys.hex pubkey first (by rw [hKey]; exact List.mem_cons_self)))
    · intro c hc
      have hForm : keys.toString pubkey ++ '@' :: (host ++ ':' :: Nat.toDigits 10 port.toNat) =
          keys.toString pubkey ++ '@' :: (host ++ [':']) ++ Nat.toDigits 10 port.toNat := by simp
      have hLast : c ∈ (Nat.toDigits 10 port.toNat).getLast? := by
        rwa [hForm, List.getLast?_append_of_ne_nil _ Nat.toDigits_ne_nil] at hc
      exact Send.notSpace_of_alphanum (by rw [Char.isAlphanum, hDigits c (List.mem_of_mem_getLast? hLast), Bool.or_true])
  have hNoSign : '@' ∉ keys.toString pubkey := fun hSign => absurd (hKeys.hex pubkey '@' hSign) (by decide)
  have hNoColon : ':' ∉ Nat.toDigits 10 port.toNat := fun hColon => absurd (hDigits ':' hColon) (by decide)
  have hValue : parseUnsigned UInt16.size (Nat.toDigits 10 port.toNat) = some port.toNat := by
    have hFits : Nat.ofDigitChars 10 (Nat.toDigits 10 port.toNat) 0 < UInt16.size := by
      rw [Nat.ofDigitChars_ten_toDigits]
      exact port.toNat_lt
    rw [parseUnsigned_isDigit Nat.toDigits_ne_nil hDigits hFits, Nat.ofDigitChars_ten_toDigits]
  constructor
  · intro h
    obtain ⟨_, _, _, _, _, hSplit, -, -, -, -, -, -, hFound⟩ := parsePeerAddress_eq_ok.mp h
    rw [hTrim, Send.splitOnce_eq_some.mpr ⟨rfl, hNoSign⟩] at hSplit
    cases hSplit
    exact hFound
  · intro hFound
    apply parsePeerAddress_eq_ok.mpr
    exact ⟨keys.toString pubkey, _, host, _, port.toNat, by rw [hTrim, Send.splitOnce_eq_some.mpr ⟨rfl, hNoSign⟩],
      Send.rsplitOnce_eq_some.mpr ⟨rfl, hNoColon⟩, hValue, hPort, hKeys.length pubkey, hKeys.hex pubkey,
      hKeys.read_shown pubkey, hFound⟩

end

end WalletCore.Peers
