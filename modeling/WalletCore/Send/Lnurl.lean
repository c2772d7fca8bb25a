import WalletCore.Lib.Json
import WalletCore.Send.Classify

/-! # Lightning Address payments

A name without a record is looked up at its domain. What the domain answers is validated, its callback is
bound to the domain, and the invoice behind the callback is validated against what was asked for. The reader
of JSON texts and the hash are parameters, and so is what a callback answers.
-/

namespace WalletCore.Send

open Lib

inductive ResolveError where
  | notFound (raw : List Char)
  | serverError (reason : String)
  | callbackNotHttps
  | invalidCallback
  | callbackDomainMismatch
  | invoiceFetchFailed
  | noInvoice
  | invalidProviderInvoice
  | invoiceAmountMismatch
  | descriptionHashMismatch
  | amountOutOfBounds (minMsat maxMsat : UInt64)
deriving DecidableEq

def ResolveError.display : ResolveError → String
  | .notFound raw => "No Lightning Address or BIP 353 record found for " ++ .ofList raw
  | .serverError reason => reason
  | .callbackNotHttps => "Lightning Address callback is not HTTPS"
  | .invalidCallback => "Lightning Address has invalid callback URL"
  | .callbackDomainMismatch => "Lightning Address callback domain mismatch"
  | .invoiceFetchFailed => "Failed to fetch invoice"
  | .noInvoice => "No invoice in response"
  | .invalidProviderInvoice => "Invalid invoice from Lightning Address provider"
  | .invoiceAmountMismatch => "Invoice amount does not match requested amount"
  | .descriptionHashMismatch => "Invoice does not match the Lightning Address metadata"
  | .amountOutOfBounds _ _ => "Amount is outside the Lightning Address limits"

structure LnurlInit where
  callback : List Char
  minSendableMsat : UInt64
  maxSendableMsat : UInt64
  description : Option (List Char)
  expectedDescriptionHash : Option (List UInt8)
deriving DecidableEq

/-! ## The callback -/

def splitOnceAt (separator : List Char) : List Char → Option (List Char × List Char)
  | [] => (stripPrefix separator []).map fun after => ([], after)
  | c :: text =>
    match stripPrefix separator (c :: text) with
    | some after => some ([], after)
    | none => (splitOnceAt separator text).map fun (before, after) => (c :: before, after)

def endsAuthority (c : Char) : Bool := c == '/' || c == '?' || c == '#'

/-- The host and port behind the user, in what is left of the path, the query and the fragment. -/
def hostPortOf (afterScheme : List Char) : List Char :=
  let authority := afterScheme.takeWhile (! endsAuthority ·)
  ((rsplitOnce '@' authority).map Prod.snd).getD authority

def urlHostname (url : List Char) : Option (List Char) :=
  (splitOnceAt "://".toList url).bind fun (_, afterScheme) =>
    let hostPort := hostPortOf afterScheme
    let host := if hostPort.head? = some '[' then hostPort else hostPort.takeWhile (· != ':')
    if host = [] then none else some (toLowercase host)

def endsWith (text last : List Char) : Bool := last.isSuffixOf text

def finishLnurl (init : LnurlInit) (user domain raw : List Char) : Except ResolveError Classified :=
  if stripPrefix "https://".toList init.callback = none then .error .callbackNotHttps
  else
    match urlHostname init.callback with
    | none => .error .invalidCallback
    | some host =>
      if host ≠ domain ∧ ¬ endsWith host ('.' :: domain) then .error .callbackDomainMismatch
      else
        let metadata : LnurlPayMetadata := {
          domain, user
          callback := init.callback
          minSendableMsat := init.minSendableMsat
          maxSendableMsat := init.maxSendableMsat
          description := init.description.getD (user ++ '@' :: domain)
          expectedDescriptionHash := init.expectedDescriptionHash }
        .ok (.lnurl metadata raw)

def callbackUrl (callback : List Char) (amountMsat : UInt64) : List Char :=
  let separator := if '?' ∈ callback then '&' else '?'
  callback ++ separator :: "amount=".toList ++ Nat.toDigits 10 amountMsat.toNat

/-! ## Answers -/

section

variable (fromStr : List Char → Option Json) (sha256 : List UInt8 → List UInt8) (parsers : Parsers)

def field (data : Json) (key : String) : Option Json := data.asObject.bind (·.lookup key)

def strField (data : Json) (key : String) : Option (List Char) := ((field data key).bind Json.asStr).map String.toList

/-- The first text in a metadata string that is a list of lists. -/
def metadataText (metadata : List Char) : Option (List Char) :=
  ((fromStr metadata).bind Json.asArray).bind fun entries =>
    (entries.mapM Json.asArray).bind fun entries =>
      entries.findSome? fun
        | mime :: value :: _ => if mime.asStr = some "text/plain" then value.asStr.map String.toList else none
        | _ => none

def validateLnurlInit (body : List Char) : Except ResolveError (Option LnurlInit) :=
  match fromStr body with
  | none => .ok none
  | some data =>
    if strField data "status" = some "ERROR".toList then
      .error (.serverError
        (((field data "reason").bind Json.asStr).getD "Lightning Address returned an error"))
    else if strField data "tag" ≠ some "payRequest".toList then .ok none
    else
      match (strField data "callback").filter (· ≠ []) with
      | none => .ok none
      | some callback =>
        let minSendableMsat := ((field data "minSendable").bind Json.asU64).getD 0
        let maxSendableMsat := ((field data "maxSendable").bind Json.asU64).getD 0
        if minSendableMsat = 0 ∨ maxSendableMsat = 0 then .ok none
        else
          let metadata := strField data "metadata"
          .ok (some {
            callback, minSendableMsat, maxSendableMsat
            description := metadata.bind (metadataText fromStr)
            expectedDescriptionHash := metadata.map fun metadata => sha256 (utf8 metadata) })

/-- The text is read a second time for its description hash. -/
def validateLnurlInvoice (body : List Char) (requestedAmountMsat : UInt64) (expectedDescriptionHash : Option (List UInt8))
    (now : Nat) : Run (Except ResolveError Classified) :=
  match fromStr body with
  | none => .ok (.error .invoiceFetchFailed)
  | some data =>
    if strField data "status" = some "ERROR".toList then
      .ok (.error (.serverError (((field data "reason").bind Json.asStr).getD "LNURL error")))
    else
      match (strField data "pr").filter (· ≠ []) with
      | none => .ok (.error .noInvoice)
      | some pr =>
        (classifyAt parsers pr now).map fun classified =>
          match classified with
          | .bolt11 _ amountMsat _ _ =>
            if amountMsat ≠ some requestedAmountMsat then .error .invoiceAmountMismatch
            else
              match expectedDescriptionHash with
              | none => .ok classified
              | some expected =>
                match parsers.bolt11 pr with
                | none => .error .invalidProviderInvoice
                | some invoice =>
                  if invoice.description = .hash expected then .ok classified else .error .descriptionHashMismatch
          | _ => .error .invalidProviderInvoice

/-- A callback that does not answer in time is `none`. -/
def fetchLnurlInvoice (lnurlCallback : List Char → Option (Except ResolveError (List Char))) (metadata : LnurlPayMetadata)
    (amountMsat : UInt64) (now : Nat) : Run (Except ResolveError Classified) :=
  if amountMsat < metadata.minSendableMsat ∨ metadata.maxSendableMsat < amountMsat then
    .ok (.error (.amountOutOfBounds metadata.minSendableMsat metadata.maxSendableMsat))
  else
    match lnurlCallback (callbackUrl metadata.callback amountMsat) with
    | none => .ok (.error .invoiceFetchFailed)
    | some (.error error) => .ok (.error error)
    | some (.ok body) => validateLnurlInvoice fromStr parsers body amountMsat metadata.expectedDescriptionHash now

end

end WalletCore.Send
