import WalletCore.Payments.Send
import WalletCore.Send.Text

/-! # Classification of send inputs

One input is a URI, an invoice, an offer, a name or an address; invoices and offers are checked for network
and expiry at once. The parsers of invoices, offers and names are parameters.
-/

namespace WalletCore.Send

open Lib
open Payments (OfferAmount)
open Restore (hexStr)

/-! ## Error texts -/

def maxInputChars : Nat := 2000

def errUnrecognized : String := "Unrecognized payment format"

def errInvalidInvoice : String := "Invalid Lightning invoice"

def errInvoiceNetwork : String := "Invoice is for a different Bitcoin network"

def errInvoiceExpired : String := "Invoice has expired"

def errInvalidOffer : String := "Invalid BOLT 12 offer"

def errOfferNetwork : String := "Offer is for a different Bitcoin network"

def errOfferExpired : String := "Offer has expired"

def errInvalidAddressFormat : String := "Invalid address format"

def errEmptyUri : String := "Empty Bitcoin URI"

def errMalformedUri : String := "Malformed Bitcoin URI"

def errUriNoMethod : String := "Bitcoin URI has no payment method"

def errUriAddressNetwork : String := "Address is for a different Bitcoin network"

def errInputTooLong : String := "Scanned input is too long"

/-! ## Classifications -/

structure LnurlPayMetadata where
  domain : List Char
  user : List Char
  callback : List Char
  minSendableMsat : UInt64
  maxSendableMsat : UInt64
  description : List Char
  expectedDescriptionHash : Option (List UInt8)
deriving DecidableEq

/-- Of a URI, `preferred` is what it will be paid by. -/
inductive Classified where
  | bolt11 (raw : List Char) (amountMsat : Option UInt64) (description : Option (List Char)) (paymentHash : String)
  | bolt12 (raw : List Char) (amountMsat : Option UInt64) (description : Option (List Char))
  | bip321 (preferred : Classified) (onchainFallback : Option (List Char)) (amountSats : Option UInt64)
  | bip353 (user domain raw : List Char)
  | lnurl (metadata : LnurlPayMetadata) (raw : List Char)
  | onchain (address : List Char) (amountSats : Option UInt64)
  | invalid (reason : String)
deriving DecidableEq

def Classified.effective : Classified → Classified
  | .bip321 preferred _ _ => preferred.effective
  | other => other

/-! ## Parsers -/

inductive InvoiceDescription where
  | direct (text : List Char)
  | hash (bytes : List UInt8)
deriving DecidableEq

structure Invoice extends Payments.Bolt11Invoice where
  description : InvoiceDescription
deriving DecidableEq

structure Offer extends Payments.Offer where
  description : Option (List Char)

/-- A name is read as its user and domain. -/
structure Parsers where
  bolt11 : List Char → Option Invoice
  offer : List Char → Option Offer
  humanReadableName : List Char → Option (List Char × List Char)

def Invoice.classified (invoice : Invoice) (raw : List Char) : Classified :=
  let description := match invoice.description with
    | .direct text => some text
    | .hash _ => none
  .bolt11 raw invoice.amountMilliSatoshis description (hexStr invoice.paymentHash)

/-- Only amounts in bitcoin are taken over. -/
def Offer.classified (offer : Offer) (raw : List Char) : Classified :=
  let amountMsat := match offer.amount with
    | some (.bitcoin amountMsats) => some amountMsats
    | _ => none
  .bolt12 raw amountMsat offer.description

section

variable (parsers : Parsers)

def parseBolt11 (raw : List Char) (now : Nat) : Classified :=
  match parsers.bolt11 raw with
  | none => .invalid errInvalidInvoice
  | some invoice =>
    if invoice.network ≠ .bitcoin then .invalid errInvoiceNetwork
    else if invoice.wouldExpire now then .invalid errInvoiceExpired
    else invoice.classified raw

def parseBolt12 (raw : List Char) (now : Nat) : Classified :=
  match parsers.offer raw with
  | none => .invalid errInvalidOffer
  | some offer =>
    if ¬ offer.supportsChain .bitcoin then .invalid errOfferNetwork
    else if offer.isExpiredNoStd now then .invalid errOfferExpired
    else offer.classified raw

def trimEndDots (text : List Char) : List Char := (text.reverse.dropWhile (· == '.')).reverse

def parseBip353 (input : List Char) : Classified :=
  let cleaned := (stripPrefix ['\u20bf'] input).getD input
  match parsers.humanReadableName cleaned with
  | some (user, domain) => .bip353 user (trimEndDots domain) cleaned
  | none => .invalid errInvalidAddressFormat

end

/-! ## Recognisers -/

def isAsciiLowercase (byte : UInt8) : Bool := 0x61 ≤ byte.toNat && byte.toNat ≤ 0x7A

def isAsciiUppercase (byte : UInt8) : Bool := 0x41 ≤ byte.toNat && byte.toNat ≤ 0x5A

def isAsciiDigit (byte : UInt8) : Bool := 0x30 ≤ byte.toNat && byte.toNat ≤ 0x39

def isAsciiAlphabetic (byte : UInt8) : Bool := isAsciiLowercase byte || isAsciiUppercase byte

def isAsciiAlphanumeric (byte : UInt8) : Bool := isAsciiAlphabetic byte || isAsciiDigit byte

def hasPrefixCi (text start : List Char) : Run Bool :=
  if byteLen start ≤ byteLen text ∧ isCharBoundary text (byteLen start) then
    (sliceTo text (byteLen start)).map (eqIgnoreAsciiCase · start)
  else .ok false

def isBech32Mainnet (lower : List Char) : Bool :=
  match stripPrefix ['b', 'c', '1'] lower with
  | none => false
  | some rest =>
    25 ≤ byteLen rest && byteLen rest ≤ 87 && (utf8 rest).all fun byte => isAsciiLowercase byte || isAsciiDigit byte

/-- The letters without those that look alike. -/
def isBase58 (byte : UInt8) : Bool :=
  (isAsciiLowercase byte && byte != 0x6C) || (isAsciiUppercase byte && byte != 0x49 && byte != 0x4F) ||
    (isAsciiDigit byte && byte != 0x30)

def isLegacyMainnet (text : List Char) : Bool :=
  match utf8 text with
  | [] => false
  | first :: rest => (first == 0x31 || first == 0x33) && 25 ≤ rest.length && rest.length ≤ 34 && rest.all isBase58

def isUserByte (byte : UInt8) : Bool := isAsciiAlphanumeric byte || byte == 0x2E || byte == 0x5F || byte == 0x2D

def isLabelByte (byte : UInt8) : Bool := isAsciiAlphanumeric byte || byte == 0x2E || byte == 0x2D

def isBip353Candidate (input : List Char) : Run Bool :=
  let rest := (stripPrefix ['\u20bf'] input).getD input
  match splitOnce '@' rest with
  | none => .ok false
  | some (user, domain) =>
    if '@' ∈ domain ∨ user = [] then .ok false
    else if ¬ (utf8 user).all isUserByte then .ok false
    else
      match rfind (· == '.') domain with
      | none => .ok false
      | some lastDot =>
        (sliceTo domain lastDot).bind fun labels =>
          (sliceFrom domain (lastDot + 1)).map fun tld =>
            labels ≠ [] && (utf8 labels).all isLabelByte && 2 ≤ byteLen tld && (utf8 tld).all isAsciiAlphabetic

/-! ## Amounts and escapes -/

def hexDigit (byte : UInt8) : Option Nat :=
  if isAsciiDigit byte then some (byte.toNat - 0x30)
  else if 0x41 ≤ byte.toNat ∧ byte.toNat ≤ 0x46 then some (byte.toNat - 0x41 + 10)
  else if 0x61 ≤ byte.toNat ∧ byte.toNat ≤ 0x66 then some (byte.toNat - 0x61 + 10)
  else none

def percentBytes : List UInt8 → Option (List UInt8)
  | [] => some []
  | byte :: rest =>
    if byte = 0x25 then
      match rest with
      | high :: low :: rest => do
        let high ← hexDigit high
        let low ← hexDigit low
        let out ← percentBytes rest
        some (.ofNat (high * 16 + low) :: out)
      | _ => none
    else (percentBytes rest).map (byte :: ·)

def percentDecode (text : List Char) : Option (List Char) := (percentBytes (utf8 text)).bind fromUtf8

/-- An unsigned number of Rust: an optional plus sign, then digits, within range. -/
def parseUnsigned (size : Nat) (text : List Char) : Option Nat :=
  let digits := match text with
    | '+' :: rest => rest
    | _ => text
  if digits ≠ [] ∧ digits.all Char.isDigit ∧ Nat.ofDigitChars 10 digits 0 < size then some (Nat.ofDigitChars 10 digits 0)
  else none

def checked (size value : Nat) : Option Nat := if value < size then some value else none

/-- A fraction beyond eight decimals is cut off. -/
def btcStringToSats (btc : List Char) : Run (Option UInt64) :=
  let trimmed := trim btc
  let (whole, frac) := (splitOnce '.' trimmed).getD (trimmed, [])
  if whole = [] ∨ ¬ (utf8 whole).all isAsciiDigit then .ok none
  else if '.' ∈ trimmed ∧ (frac = [] ∨ ¬ (utf8 frac).all isAsciiDigit) then .ok none
  else
    match parseUnsigned (2 ^ 128) whole with
    | none => .ok none
    | some whole =>
      (sliceTo frac (min (byteLen frac) 8)).map fun front => do
        let fracSats ← parseUnsigned (2 ^ 128) (front ++ List.replicate (8 - byteLen front) '0')
        let wholeSats ← checked (2 ^ 128) (whole * 100000000)
        let sats ← checked (2 ^ 128) (wholeSats + fracSats)
        (checked (2 ^ 64) sats).map .ofNat

/-! ## URIs -/

structure UriParts where
  lno : Option (List Char)
  lightning : Option (List Char)
  amount : Option (List Char)
deriving DecidableEq

/-- Later values replace earlier ones; unknown keys are passed over. -/
def UriParts.set (parts : UriParts) (key value : List Char) : UriParts :=
  if toLowercase key = "lno".toList then { parts with lno := some value }
  else if toLowercase key = "lightning".toList then { parts with lightning := some value }
  else if toLowercase key = "amount".toList then { parts with amount := some value }
  else parts

/-- `none` is for a pair that cannot be decoded. -/
def readPair (parts : UriParts) (pair : List Char) : Run (Option UriParts) :=
  if pair = [] then .ok (some parts)
  else
    let cut : Run (List Char × List Char) := match find (· == '=') pair with
      | some eq => (sliceTo pair eq).bind fun key => (sliceFrom pair (eq + 1)).map fun value => (key, value)
      | none => .ok (pair, [])
    cut.map fun (rawKey, rawValue) =>
      match percentDecode rawKey, percentDecode rawValue with
      | some key, some value => some (parts.set key value)
      | _, _ => none

/-- A value that is no amount is as good as none. -/
def UriParts.amountSats (parts : UriParts) : Run (Option UInt64) :=
  match parts.amount with
  | some amount => btcStringToSats amount
  | none => .ok none

def readPairs : UriParts → List (List Char) → Run (Option UriParts)
  | parts, [] => .ok (some parts)
  | parts, pair :: pairs =>
    (readPair parts pair).bind fun
      | none => .ok none
      | some parts => readPairs parts pairs

def onchainFallbackOf (address : List Char) : Option (List Char) :=
  if address ≠ [] ∧ (isBech32Mainnet (toLowercase address) ∨ isLegacyMainnet address) then some address else none

section

variable (parsers : Parsers)

/-- An offer is preferred to an invoice, and either to the address. -/
def preferredOf (parts : UriParts) (address : List Char) (amountSats : Option UInt64) (now : Nat) :
    Except String Classified :=
  match parts.lno, parts.lightning with
  | some lno, _ => .ok (parseBolt12 parsers lno now)
  | none, some lightning => .ok (parseBolt11 parsers lightning now)
  | none, none =>
    if address = [] then .error errUriNoMethod
    else
      match onchainFallbackOf address with
      | some address => .ok (.onchain address amountSats)
      | none => .error errUriAddressNetwork

/-- The address and the query; what is behind a second question mark is dropped. -/
def cutUri (withoutScheme : List Char) : List Char × Option (List Char) :=
  match splitOnce '?' withoutScheme with
  | some (address, rest) => (trim address, some (((splitOnce '?' rest).map Prod.fst).getD rest))
  | none => (trim withoutScheme, none)

def parseBip321 (input : List Char) (now : Nat) : Run Classified :=
  (sliceFrom input (byteLen "bitcoin:".toList)).bind fun withoutScheme =>
    let (address, query) := cutUri withoutScheme
    if (query = none ∨ query = some []) ∧ address = [] then .ok (.invalid errEmptyUri)
    else
      (readPairs ⟨none, none, none⟩ ((query.map (·.splitOn '&')).getD [])).bind fun
        | none => .ok (.invalid errMalformedUri)
        | some parts =>
          parts.amountSats.map fun amountSats =>
            match preferredOf parsers parts address amountSats now with
            | .error reason => .invalid reason
            | .ok preferred => .bip321 preferred (onchainFallbackOf address) amountSats

/-! ## Classification -/

/-- What an input is once it has none of the prefixes. -/
def classifyPlain (input : List Char) : Run Classified :=
  (isBip353Candidate input).map fun candidate =>
    if candidate then parseBip353 parsers input
    else if isBech32Mainnet (toLowercase input) || isLegacyMainnet input then .onchain input none
    else .invalid errUnrecognized

/-- A `lightning:` prefix is taken off and the rest is classified again. -/
def classifyFuel (now : Nat) : Nat → List Char → Run Classified
  | 0, _ => .error .outOfFuel
  | fuel + 1, raw =>
    if maxInputChars < raw.length then .ok (.invalid errInputTooLong)
    else do
      let input := trim raw
      if ← hasPrefixCi input "bitcoin:".toList then parseBip321 parsers input now
      else if ← hasPrefixCi input "lightning:".toList then
        let rest ← sliceFrom input (byteLen "lightning:".toList)
        classifyFuel now fuel rest
      else if ← hasPrefixCi input "lnbc".toList then return parseBolt11 parsers input now
      else if ← hasPrefixCi input "lntb".toList then return parseBolt11 parsers input now
      else if ← hasPrefixCi input "lno1".toList then return parseBolt12 parsers input now
      else classifyPlain parsers input

def classifyAt (raw : List Char) (now : Nat) : Run Classified := classifyFuel parsers now (raw.length + 1) raw

end

end WalletCore.Send
