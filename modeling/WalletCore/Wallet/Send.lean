import WalletCore.Restore.Plan
import WalletCore.Wallet.Onchain

/-! # Sending on chain

A send is reviewed first, and built at the moment it is broadcast: what is built has to pay the reviewed
amount at the reviewed fee. While a channel is open, a reserve for its fee bumps is held back. The
funding transaction of a channel is built the same way, with nothing to compare it with.
-/

namespace WalletCore.Wallet

open Restore (hexStr)

/-! ## Reserve and ceiling -/

def anchorReserve : Nat := 10000

def maxFeeSats : Nat := 50000

def anchorReserveSats (channelCount : Nat) : Nat := if 0 < channelCount then anchorReserve else 0

/-- The digits in groups of three. -/
def formatBtc (sats : Nat) : String :=
  let digits := (Nat.repr sats).toList
  "₿" ++ .ofList (digits.zipIdx.flatMap fun (digit, index) =>
    if 0 < index ∧ (digits.length - index) % 3 = 0 then [',', digit] else [digit])

def OnchainSendError.display : OnchainSendError → String
  | notRunning => "the node is not running"
  | invalidAddress detail => "invalid bitcoin address: " ++ detail
  | wrongNetwork => "This address is for a different Bitcoin network"
  | feeTooHigh => "Network fees are too high right now — try again later."
  | balanceTooLow => "Balance too low to cover fees"
  | driftDetected => "Send amount changed since review"
  | insufficientFunds reserveSats =>
    "Insufficient funds after reserving " ++ formatBtc reserveSats ++ " for Lightning channel safety"
  | amountBelowDust minSats => "Amount is below the minimum (" ++ formatBtc minSats ++ ")"
  | buildFailed detail => "failed to build the transaction: " ++ detail
  | signingFailed detail => "failed to sign the transaction: " ++ detail

/-! ## Addresses -/

inductive Network where
  | bitcoin
  | testnet
  | testnet4
  | signet
  | regtest
deriving DecidableEq

structure UncheckedAddress where
  scriptPubkey : Script
  isValidFor : Network → Bool

/-- How an address is read, and the dust floor of a script. -/
structure AddressLibrary where
  fromStr : String → Except String UncheckedAddress
  minimalNonDust : Script → Nat

def isWhiteSpace (c : Char) : Bool :=
  (0x09 ≤ c.toNat && c.toNat ≤ 0x0D) || (0x2000 ≤ c.toNat && c.toNat ≤ 0x200A) ||
    c.toNat ∈ [0x20, 0x85, 0xA0, 0x1680, 0x2028, 0x2029, 0x202F, 0x205F, 0x3000]

def trim (text : String) : String :=
  .ofList ((text.toList.dropWhile isWhiteSpace).reverse.dropWhile isWhiteSpace).reverse

def parseAddress (library : AddressLibrary) (address : String) (network : Network) : Except OnchainSendError Script :=
  match library.fromStr (trim address) with
  | .error detail => .error (.invalidAddress detail)
  | .ok unchecked => if unchecked.isValidFor network then .ok unchecked.scriptPubkey else .error .wrongNetwork

/-! ## Guards -/

structure DriftGuard where
  scriptHex : String
  expectedAmountSats : Nat
  expectedFeeSats : Nat
deriving DecidableEq

def DriftGuard.forAddress (library : AddressLibrary) (address : String) (network : Network)
    (expectedAmountSats expectedFeeSats : Nat) : Except OnchainSendError DriftGuard :=
  (parseAddress library address network).map fun script => ⟨hexStr script, expectedAmountSats, expectedFeeSats⟩

def BuiltTxFacts.outputValueForScriptHex (facts : BuiltTxFacts) (scriptHexWanted : String) : Option Nat :=
  (facts.outputs.find? fun out => hexStr out.scriptPubkey = scriptHexWanted).map (·.value)

def checkFeeCeiling (feeSats : Nat) : Except OnchainSendError Unit :=
  if maxFeeSats < feeSats then .error .feeTooHigh else .ok ()

/-- The ceiling comes first. -/
def checkMaxSendGuards (amountSats : Int) (feeSats dustFloorSats : Nat) : Except OnchainSendError Unit :=
  if maxFeeSats < feeSats then .error .feeTooHigh
  else if amountSats < dustFloorSats then .error .balanceTooLow
  else .ok ()

def checkAmountDrift (expectedSats : Nat) (builtOutputSats : Option Nat) : Except OnchainSendError Unit :=
  if builtOutputSats = some expectedSats then .ok () else .error .driftDetected

def verifyDrift (guard : DriftGuard) (facts : BuiltTxFacts) : Except OnchainSendError Unit := do
  checkAmountDrift guard.expectedAmountSats (facts.outputValueForScriptHex guard.scriptHex)
  if facts.feeSats ≠ guard.expectedFeeSats then .error .driftDetected else .ok ()

def checkReserve (amountSats feeSats reserveSats spendableSats : Nat) : Except OnchainSendError Unit :=
  if reserveSats = 0 then .ok ()
  else if spendableSats < amountSats + feeSats + reserveSats then .error (.insufficientFunds reserveSats)
  else .ok ()

/-- Checked before anything is signed. -/
def verifySend (expected : DriftGuard) (facts : BuiltTxFacts) : Except OnchainSendError Unit := do
  verifyDrift expected facts
  checkFeeCeiling facts.feeSats

theorem verifySend_ok_iff {expected : DriftGuard} {facts : BuiltTxFacts} :
    verifySend expected facts = .ok () ↔
      facts.outputValueForScriptHex expected.scriptHex = some expected.expectedAmountSats ∧
        facts.feeSats = expected.expectedFeeSats ∧ facts.feeSats ≤ maxFeeSats := by
  unfold verifySend verifyDrift checkAmountDrift checkFeeCeiling
  by_cases hAmount : facts.outputValueForScriptHex expected.scriptHex = some expected.expectedAmountSats
  · by_cases hFee : facts.feeSats = expected.expectedFeeSats
    · by_cases hCeiling : maxFeeSats < facts.feeSats
      · simp [hAmount, hFee, hFee ▸ hCeiling, bind, Except.bind]
      · simp [hAmount, hFee, hFee ▸ hCeiling, Nat.not_lt.mp (hFee ▸ hCeiling), bind, Except.bind]
    · simp [hAmount, hFee, bind, Except.bind]
  · simp [hAmount, bind, Except.bind]

theorem checkReserve_ok_iff {amountSats feeSats reserveSats spendableSats : Nat} :
    checkReserve amountSats feeSats reserveSats spendableSats = .ok () ↔
      reserveSats = 0 ∨ amountSats + feeSats + reserveSats ≤ spendableSats := by
  unfold checkReserve
  by_cases hNone : reserveSats = 0
  · simp [hNone]
  · by_cases hShort : spendableSats < amountSats + feeSats + reserveSats
    · simp [hNone, hShort]
    · simp [hNone, hShort, Nat.not_lt.mp hShort]

theorem checkMaxSendGuards_ok_iff {amountSats : Int} {feeSats dustFloorSats : Nat} :
    checkMaxSendGuards amountSats feeSats dustFloorSats = .ok () ↔ feeSats ≤ maxFeeSats ∧ dustFloorSats ≤ amountSats := by
  unfold checkMaxSendGuards
  by_cases hCeiling : maxFeeSats < feeSats
  · simp [hCeiling]
  · by_cases hDust : amountSats < dustFloorSats
    · simp [hCeiling, hDust]
    · simp [hCeiling, hDust, Nat.not_lt.mp hCeiling, Int.not_lt.mp hDust]

/-- Sats per kilo weight unit, unless they overflow. -/
def fromSatPerVb (satPerVb : Nat) : Option Nat := if satPerVb * 250 < 2 ^ 64 then some (satPerVb * 250) else none

def feeRateFrom (satPerVb : Nat) : Except OnchainSendError Nat :=
  match fromSatPerVb satPerVb with
  | some rate => .ok rate
  | none => .error (.buildFailed ("fee rate " ++ Nat.repr satPerVb ++ " sat/vB overflows"))

def maxSendSpec (recipient : Script) (reserveSats : Nat) : TxSpec :=
  if reserveSats = 0 then .drainAll recipient else .drainWithReserve recipient reserveSats

def fixedSendBuildError (library : AddressLibrary) (script : Script) : TxBuildFailure → OnchainSendError
  | .outputBelowDust => .amountBelowDust (library.minimalNonDust script)
  | .insufficientFunds detail | .other detail => .buildFailed detail

def maxSendBuildError : TxBuildFailure → OnchainSendError
  | .outputBelowDust | .insufficientFunds _ => .balanceTooLow
  | .other detail => .buildFailed detail

/-! ## Sends -/

structure MaxSendEstimate where
  amountSats : Nat
  feeSats : Nat
  feeRateSatPerVb : Nat
  reserveSats : Nat
deriving DecidableEq

/-- What the library, the signer and the file answer to a build that is meant to be sent. -/
structure BuildIo where
  answer : BuildAnswer
  signing : Signing
  writeError : Option String

section

variable (keys : Descriptors) (library : AddressLibrary) (network : Network)

def estimateMaxSendable (w : OnchainWallet) (address : String) (reserveSats feeRateSatPerVb : Nat)
    (estimate : BuildAnswer) : Except OnchainSendError MaxSendEstimate × OnchainWallet :=
  match parseAddress library address network with
  | .error e => (.error e, w)
  | .ok script =>
    match feeRateFrom feeRateSatPerVb with
    | .error e => (.error e, w)
    | .ok _ =>
      let (facts, w) := w.estimateOnchainTx keys (maxSendSpec script reserveSats) estimate
      match facts with
      | .error failure => (.error (maxSendBuildError failure), w)
      | .ok facts =>
        let amountSats : Int := w.trustedSpendableSats keys - facts.feeSats - reserveSats
        (do
          checkMaxSendGuards amountSats facts.feeSats (library.minimalNonDust script)
          return ⟨amountSats.toNat, facts.feeSats, feeRateSatPerVb, reserveSats⟩, w)

/-- With a reserve, the shape is built once before to learn its fee. -/
def checkSendReserve (w : OnchainWallet) (script : Script) (amountSats reserveSats : Nat) (estimate : BuildAnswer) :
    Except OnchainSendError Unit × OnchainWallet :=
  if 0 < reserveSats then
    let (facts, w) := w.estimateOnchainTx keys (.recipient script amountSats) estimate
    match facts with
    | .error failure => (.error (fixedSendBuildError library script failure), w)
    | .ok facts => (checkReserve amountSats facts.feeSats reserveSats (w.trustedSpendableSats keys), w)
  else (.ok (), w)

def sendToAddress (w : OnchainWallet) (address : String) (amountSats : Nat) (expected : DriftGuard)
    (reserveSats feeRateSatPerVb : Nat) (estimate : BuildAnswer) (io : BuildIo) :
    Except OnchainSendError (Psbt × Transaction) × OnchainWallet :=
  match parseAddress library address network with
  | .error e => (.error e, w)
  | .ok script =>
    match feeRateFrom feeRateSatPerVb with
    | .error e => (.error e, w)
    | .ok _ =>
      let (checked, w) := checkSendReserve keys library w script amountSats reserveSats estimate
      match checked with
      | .error e => (.error e, w)
      | .ok () =>
        w.createOnchainTx keys (.recipient script amountSats) io.answer (verifySend expected)
          (fixedSendBuildError library script) io.signing io.writeError

def checkMaxSend (w : OnchainWallet) (address : String) (reserveSats feeRateSatPerVb : Nat) (estimate : BuildAnswer) :
    Except OnchainSendError Unit × OnchainWallet :=
  if 0 < reserveSats then
    (estimateMaxSendable keys library network w address reserveSats feeRateSatPerVb estimate).map
      (Except.map fun _ => ()) id
  else (.ok (), w)

/-- With a reserve, the guards of the estimate come first. -/
def sendMax (w : OnchainWallet) (address : String) (expected : DriftGuard) (reserveSats feeRateSatPerVb : Nat)
    (estimate : BuildAnswer) (io : BuildIo) : Except OnchainSendError (Psbt × Transaction) × OnchainWallet :=
  match parseAddress library address network with
  | .error e => (.error e, w)
  | .ok script =>
    match feeRateFrom feeRateSatPerVb with
    | .error e => (.error e, w)
    | .ok _ =>
      let (checked, w) := checkMaxSend keys library network w address reserveSats feeRateSatPerVb estimate
      match checked with
      | .error e => (.error e, w)
      | .ok () =>
        w.createOnchainTx keys (maxSendSpec script reserveSats) io.answer (verifySend expected) maxSendBuildError
          io.signing io.writeError

/-! ## The node's sends -/

/-- What a send reads of the node when it is called. -/
structure NodeView where
  running : Bool
  feeRateSatPerVb : Nat
  channelCount : Nat

/-- The transaction is broadcast and a sync is asked for; the wallet is not told. -/
def sendOnchain (w : OnchainWallet) (node : NodeView) (address : String)
    (amountSats expectedAmountSats expectedFeeSats : Nat) (estimate : BuildAnswer) (io : BuildIo) :
    Except OnchainSendError (Psbt × Transaction) × OnchainWallet :=
  if node.running then
    match DriftGuard.forAddress library address network expectedAmountSats expectedFeeSats with
    | .error e => (.error e, w)
    | .ok expected =>
      sendToAddress keys library network w address amountSats expected (anchorReserveSats node.channelCount)
        node.feeRateSatPerVb estimate io
  else (.error .notRunning, w)

def sendOnchainMax (w : OnchainWallet) (node : NodeView) (address : String) (expectedAmountSats expectedFeeSats : Nat)
    (estimate : BuildAnswer) (io : BuildIo) : Except OnchainSendError (Psbt × Transaction) × OnchainWallet :=
  if node.running then
    match DriftGuard.forAddress library address network expectedAmountSats expectedFeeSats with
    | .error e => (.error e, w)
    | .ok expected =>
      sendMax keys library network w address expected (anchorReserveSats node.channelCount) node.feeRateSatPerVb
        estimate io
  else (.error .notRunning, w)

/-! ## Channel funding -/

inductive FundingFlowError where
  | build (detail : String)
  | persist (detail : String)
  | notify (detail : String)
deriving DecidableEq

/-- `quoted` writes a text the way it is written in debug output. -/
def TxBuildFailure.debug (quoted : String → String) : TxBuildFailure → String
  | outputBelowDust => "OutputBelowDust"
  | insufficientFunds detail => "InsufficientFunds(" ++ quoted detail ++ ")"
  | other detail => "Other(" ++ quoted detail ++ ")"

/-- What the funding store and the channel manager answer. -/
structure FundingIo where
  build : BuildIo
  quoted : String → String
  persistError : Option String
  notifyError : Option String

/-- Kept under the temporary channel id before the channel manager gets it. Neither the reserve nor the
fee is looked at. -/
def handleFundingGenerationReady (w : OnchainWallet) (feeRateSatPerVb channelValueSatoshis : Nat) (outputScript : Script)
    (io : FundingIo) : Except FundingFlowError (Psbt × Transaction) × OnchainWallet :=
  match fromSatPerVb feeRateSatPerVb with
  | none => (.error (.build ("fee rate " ++ Nat.repr feeRateSatPerVb ++ " sat/vB overflows")), w)
  | some _ =>
    let (built, w) := w.createOnchainTx keys (.fundingOutput outputScript channelValueSatoshis) io.build.answer
      (fun _ => .ok ()) (fun failure => .buildFailed (failure.debug io.quoted)) io.build.signing io.build.writeError
    match built with
    | .error e => (.error (.build e.display), w)
    | .ok signed =>
      match io.persistError with
      | some detail => (.error (.persist detail), w)
      | none =>
        match io.notifyError with
        | some detail => (.error (.notify detail), w)
        | none => (.ok signed, w)

end

end WalletCore.Wallet
