import WalletCore.Events.Event

/-! # The steps of the send screen

The pure half of the send flow. A classified input, a resolved name, an estimate or an error comes from the
core; these functions decide which step is next, what the core is asked for, and what the step shows. No fee
and no bound is computed here.
-/

namespace WalletCore.SendFlow

open Events

def sendMinDustSats : UInt64 := 294

def sendInputMaxLength : Nat := 2000

/-! ## Texts and figures -/

def commaGrouped (abs : Int64) : String :=
  let digits := (toString abs).toList
  .ofList (digits.zipIdx.flatMap fun (digit, index) =>
    if 0 < index ∧ (digits.length - index) % 3 = 0 then [',', digit] else [digit])

def formatBtc (sats : Int64) : String :=
  if sats < 0 then "-₿" ++ commaGrouped (-sats) else "₿" ++ commaGrouped sats

def msatToSatFloor (msat : Int64) : Int64 := msat / 1000

def msatToSatCeil (msat : Int64) : Int64 := (msat + 999) / 1000

def isWhitespace (c : Char) : Bool :=
  let n := c.toNat
  (0x9 ≤ n && n ≤ 0xD) || (0x1C ≤ n && n ≤ 0x20) || n == 0xA0 || n == 0x1680 || (0x2000 ≤ n && n ≤ 0x200A) ||
    n == 0x2028 || n == 0x2029 || n == 0x202F || n == 0x205F || n == 0x3000

def trim (raw : String) : String :=
  .ofList ((raw.toList.dropWhile isWhitespace).reverse.dropWhile isWhitespace).reverse

def isBlank (text : String) : Bool := text.toList.all isWhitespace

/-- A length in UTF-16 units. -/
def length (text : String) : Nat := text.toList.foldl (fun count c => if c.toNat < 0x10000 then count + 1 else count + 2) 0

def take (count : Nat) (text : String) : String := .ofList (text.toList.take count)

def takeLast (count : Nat) (text : String) : String := .ofList (text.toList.reverse.take count).reverse

def balanceTooLowMessage : String := "Balance too low to cover fees"

def feesTooHighMessage : String := "Network fees are too high right now — try again later."

/-! ## What the core answers -/

inductive ClassifiedKind where
  | bolt11
  | bolt12
  | bip353
  | lnurl
  | onchain
  | invalid
deriving DecidableEq

structure ClassifiedView where
  kind : ClassifiedKind
  bolt11 : Option String
  paymentHash : Option String
  offer : Option String
  amountMsat : Option UInt64
  description : Option String
  address : Option String
  amountSats : Option UInt64
  error : Option String
deriving DecidableEq

structure LnurlPayView where
  user : String
  domain : String
  callback : String
  minSendableMsat : UInt64
  maxSendableMsat : UInt64
  minSats : UInt64
  maxSats : UInt64
  skipAmountEntry : Bool
  description : String
  expectedDescriptionHashHex : Option String
deriving DecidableEq

structure FeeEstimate where
  feeSats : UInt64
  feeRateSatPerVb : UInt64
deriving DecidableEq

structure MaxSendEstimate where
  amountSats : UInt64
  feeSats : UInt64
  feeRateSatPerVb : UInt64
  reserveSats : UInt64
deriving DecidableEq

/-- The errors that the screen tells apart, and the message of any other. -/
inductive WalletException where
  | onchainFeesTooHigh
  | onchainBalanceTooLow
  | wrongAddressNetwork
  | invalidAddress
  | onchainInsufficientFunds (reserveSats : UInt64)
  | onchainAmountBelowDust
  | onchainAmountChanged
  | onchainSendFailed (detail : String)
  | resolveFailed (detail : String)
  | sendFailed (reason : String)
  | invalidInvoice (detail : String)
  | invoiceExpired
  | wrongNetwork (network : String)
  | invalidOffer (detail : String)
  | offerExpired
  | offerWrongNetwork
  | amountlessInvoice
  | amountOverrideNotAllowed
  | duplicatePayment
  | notRunning
  | other (message : Option String)
deriving DecidableEq

def walletErrorMessage : WalletException → String
  | .onchainFeesTooHigh => feesTooHighMessage
  | .onchainBalanceTooLow => balanceTooLowMessage
  | .wrongAddressNetwork => "This address is for a different Bitcoin network"
  | .invalidAddress => "Invalid Bitcoin address"
  | .onchainInsufficientFunds reserveSats =>
    "Insufficient funds after reserving " ++ formatBtc reserveSats.toInt64 ++ " for Lightning channel safety"
  | .onchainAmountBelowDust => "Amount is below the minimum for this address"
  | .onchainAmountChanged => "Send amount changed since review"
  | .onchainSendFailed detail => detail
  | .resolveFailed detail => detail
  | .sendFailed reason => reason
  | .invalidInvoice detail => "invalid bolt11 invoice: " ++ detail
  | .invoiceExpired => "the invoice is expired"
  | .wrongNetwork network =>
    "the invoice is for the " ++ network ++ " network, this wallet only pays bitcoin (mainnet) invoices"
  | .invalidOffer detail => "invalid bolt12 offer: " ++ detail
  | .offerExpired => "the offer is expired"
  | .offerWrongNetwork => "the offer is for a different network, this wallet only pays bitcoin offers"
  | .amountlessInvoice => "Amount is required for invoices without an embedded amount"
  | .amountOverrideNotAllowed => "an amount override is only allowed for requests without an embedded amount"
  | .duplicatePayment => "a payment for this invoice is already pending"
  | .notRunning => "the node is not running"
  | .other message => (message.filter (!isBlank ·)).getD "Something went wrong"

def isAmountStepGuardError (e : WalletException) : Bool := e = .onchainBalanceTooLow || e = .onchainFeesTooHigh

/-! ## Steps -/

inductive NumpadKey where
  | digit (digit : Fin 10)
  | backspace

def NumpadKey.char (digit : Fin 10) : Char := Char.ofNat ('0'.toNat + digit)

def numpadMaxDigits : Nat := 8

def numpadDigitReducer (prev : List Char) : NumpadKey → List Char
  | .backspace => prev.dropLast
  | .digit digit =>
    if numpadMaxDigits ≤ prev.length then prev
    else if prev = ['0'] ∧ digit = 0 then prev
    else if prev = [] ∧ digit = 0 then ['0']
    else if prev = ['0'] then [NumpadKey.char digit]
    else prev ++ [NumpadKey.char digit]

/-- The value of a row of digits. -/
def toULong (digits : List Char) : UInt64 :=
  (digits.foldl (fun value c => 10 * value + (c.toNat - '0'.toNat)) 0).toUInt64

structure Amount where
  target : ClassifiedView
  rawInput : String
  lnurl : Option LnurlPayView
  digits : List Char
  isSendMax : Bool
  error : Option String
  fetchingInvoice : Bool
deriving DecidableEq

def Amount.amountSats (step : Amount) : UInt64 := if step.digits = [] then 0 else toULong step.digits

def Amount.minSats (step : Amount) : Option UInt64 := step.lnurl.map (·.minSats)

def Amount.maxSats (step : Amount) : Option UInt64 := step.lnurl.map (·.maxSats)

def Amount.isOnchain (step : Amount) : Bool := step.target.kind = .onchain

def Amount.enter (target : ClassifiedView) (rawInput : String) (lnurl : Option LnurlPayView) : Amount :=
  ⟨target, rawInput, lnurl, [], false, none, false⟩

structure ReviewLightning where
  target : ClassifiedView
  amountMsat : UInt64
  recipient : String
  returnTo : Option Amount
deriving DecidableEq

structure ReviewOnchain where
  address : String
  amountSats : UInt64
  feeSats : UInt64
  feeRateSatPerVb : UInt64
  reserveSats : UInt64
  isSendMax : Bool
  amountsUpdated : Bool
  broadcasting : Bool
  returnTo : Option Amount
deriving DecidableEq

/-- Only an on-chain review is ever offered for another try. -/
inductive SendStep where
  | input (error : Option String) (resolving : Bool)
  | amount (amount : Amount)
  | reviewLightning (review : ReviewLightning)
  | reviewOnchain (review : ReviewOnchain)
  | dispatching (amountMsat : UInt64) (paymentHash : Option String)
  | success (amountSats : UInt64) (txid : Option String)
  | failure (message : String) (retry : Option ReviewOnchain)
  | timedOut (amountMsat : UInt64)
deriving DecidableEq

inductive SendDecision where
  | step (step : SendStep)
  | inlineError (message : String)
  | resolve (input : String)
  | fetchLnurlInvoice (lnurl : LnurlPayView) (amountMsat : UInt64) (rawInput : String) (returnTo : Option Amount)
  | estimateOnchain (address : String) (amountSats : UInt64) (returnTo : Option Amount)
  | estimateOnchainMax (address : String) (returnTo : Option Amount)

/-! ## Labels -/

def truncateInvoice (raw : String) : String :=
  if length raw ≤ 24 then raw else take 12 raw ++ "…" ++ takeLast 8 raw

def lightningRecipientLabel (view : ClassifiedView) (rawInput : String) (fromAmount : Bool) : String :=
  let invoice := view.bolt11 <|> view.offer
  let wrapped := (rawInput.toList.take 8).map Char.toLower = "bitcoin:".toList
  if invoice.isSome ∧ wrapped then take 10 (invoice.getD "") ++ "…"
  else if fromAmount then rawInput
  else if invoice.isSome ∧ invoice ≠ some rawInput then rawInput
  else (view.description.filter (!isBlank ·)).getD (truncateInvoice (invoice.getD rawInput))

/-! ## Routing -/

def dustMessage : String := "Amount must be at least " ++ formatBtc sendMinDustSats.toInt64 ++ " (dust limit)"

/-- What the wallet can pay right now. -/
structure Capacity where
  lnCapacityMsat : UInt64
  onchainBalanceSats : UInt64

def routeInput (raw : String) (view : ClassifiedView) (lnurl : Option LnurlPayView) (capacity : Capacity) :
    SendDecision :=
  match view.kind with
  | .invalid => .inlineError (view.error.getD "Not a valid payment code")
  | .bip353 => .resolve raw
  | .lnurl =>
    lnurl.elim (.inlineError "Not a valid payment code") fun lnurl =>
      if lnurl.skipAmountEntry then .fetchLnurlInvoice lnurl lnurl.minSendableMsat raw none
      else .step (.amount (.enter view raw (some lnurl)))
  | .onchain =>
    let address := view.address.getD ""
    view.amountSats.elim (.step (.amount (.enter view raw none))) fun embedded =>
      if embedded < sendMinDustSats then .inlineError dustMessage
      else if capacity.onchainBalanceSats < embedded then
        .inlineError "Amount exceeds available on-chain balance"
      else .estimateOnchain address embedded none
  | .bolt11 | .bolt12 =>
    view.amountMsat.elim (.step (.amount (.enter view raw none))) fun embeddedMsat =>
      if capacity.lnCapacityMsat < embeddedMsat then .inlineError "Not enough funds"
      else .step (.reviewLightning ⟨view, embeddedMsat, lightningRecipientLabel view raw false, none⟩)

def reduceAmountKey (step : Amount) (key : NumpadKey) : Amount :=
  { step with digits := numpadDigitReducer step.digits key, isSendMax := false, error := none }

def lnAvailablePrefillSats (unifiedTotalSats : UInt64) (maxSats : Option UInt64) : UInt64 :=
  maxSats.elim unifiedTotalSats fun max => if max < unifiedTotalSats then max else unifiedTotalSats

def unifiedTotalSats (capacity : Capacity) : UInt64 :=
  capacity.onchainBalanceSats + (msatToSatFloor capacity.lnCapacityMsat.toInt64).toUInt64

/-- A target of a kind that has no amount step is refused; a name's has its bounds. -/
def submitAmount (step : Amount) (capacity : Capacity) : SendDecision :=
  let amountSats := step.amountSats
  if amountSats = 0 then .inlineError ""
  else if step.minSats.any (amountSats < ·) then
    .inlineError ("Minimum amount is " ++ formatBtc (step.minSats.getD 0).toInt64)
  else if step.maxSats.any (· < amountSats) then
    .inlineError ("Maximum amount is " ++ formatBtc (step.maxSats.getD 0).toInt64)
  else
    match step.target.kind with
    | .lnurl =>
      -- The amount step of a name is only entered with its bounds.
      step.lnurl.elim (.inlineError "Not a valid payment code") fun lnurl =>
        .fetchLnurlInvoice lnurl (amountSats * 1000) step.rawInput (some step)
    | .bolt11 | .bolt12 =>
      let amountMsat := amountSats * 1000
      if capacity.lnCapacityMsat < amountMsat then .inlineError "Not enough funds"
      else
        let recipient := lightningRecipientLabel step.target step.rawInput true
        .step (.reviewLightning ⟨step.target, amountMsat, recipient, some step⟩)
    | .onchain =>
      let address := step.target.address.getD ""
      if step.isSendMax then .estimateOnchainMax address (some step)
      else if amountSats < sendMinDustSats then .inlineError dustMessage
      else if capacity.onchainBalanceSats < amountSats then
        .inlineError "Amount exceeds available on-chain balance"
      else .estimateOnchain address amountSats (some step)
    | .bip353 | .invalid => .inlineError "Not a valid payment code"

/-! ## Reviews -/

def lnurlInvoiceReview (invoice : ClassifiedView) (requestedMsat : UInt64) (rawInput : String)
    (returnTo : Option Amount) : ReviewLightning where
  target := invoice
  amountMsat := invoice.amountMsat.getD requestedMsat
  recipient := lightningRecipientLabel invoice rawInput true
  returnTo := returnTo

def onchainReview (address : String) (amountSats : UInt64) (estimate : FeeEstimate) (returnTo : Option Amount) :
    ReviewOnchain where
  address := address
  amountSats := amountSats
  feeSats := estimate.feeSats
  feeRateSatPerVb := estimate.feeRateSatPerVb
  reserveSats := 0
  isSendMax := false
  amountsUpdated := false
  broadcasting := false
  returnTo := returnTo

def onchainMaxReview (address : String) (estimate : MaxSendEstimate) (returnTo : Option Amount) : ReviewOnchain where
  address := address
  amountSats := estimate.amountSats
  feeSats := estimate.feeSats
  feeRateSatPerVb := estimate.feeRateSatPerVb
  reserveSats := estimate.reserveSats
  isSendMax := true
  amountsUpdated := false
  broadcasting := false
  returnTo := returnTo

def refreshedMaxReview (review : ReviewOnchain) (fresh : MaxSendEstimate) : ReviewOnchain :=
  { review with
    amountSats := fresh.amountSats
    feeSats := fresh.feeSats
    feeRateSatPerVb := fresh.feeRateSatPerVb
    reserveSats := fresh.reserveSats
    amountsUpdated := true
    broadcasting := false }

def refreshedExactReview (review : ReviewOnchain) (fresh : FeeEstimate) : ReviewOnchain :=
  { review with
    feeSats := fresh.feeSats
    feeRateSatPerVb := fresh.feeRateSatPerVb
    amountsUpdated := true
    broadcasting := false }

/-! ## Outcomes -/

/-- Without a hash of the dispatch every outcome counts. -/
def isPaymentOutcome (event : Event) (dispatchPaymentHash : Option String) : Bool :=
  match event with
  | .paymentSuccessful paymentHash _ => dispatchPaymentHash = none || dispatchPaymentHash = some paymentHash
  | .paymentFailed paymentHash _ => dispatchPaymentHash = none || dispatchPaymentHash = paymentHash
  | _ => false

def applyOutcome (amountMsat : UInt64) (paymentHash : Option String) (event : Event) : Option SendStep :=
  if isPaymentOutcome event paymentHash then
    match event with
    | .paymentSuccessful .. => some (.success (msatToSatCeil amountMsat.toInt64).toUInt64 none)
    | .paymentFailed _ reason => some (.failure reason none)
    | _ => none
  else none

end WalletCore.SendFlow
