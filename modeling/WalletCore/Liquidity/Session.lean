import WalletCore.Lib.Transition
import WalletCore.Liquidity.Accept

/-! # A session of quotes and accepts

Calls that ask for a menu or accept a quote wait for answers of the provider, each parked under the id of its
request. The event pump routes the answers, timeouts unpark what was not answered, and the channel manager
reports payments in between. All calls run side by side.
-/

namespace WalletCore.Liquidity

open Lib Payments

/-! ## Answers -/

/-- The protocol's error codes in words. -/
def describeLspsError (code : Int) (message : String) : String :=
  let detail :=
    if code = 200 then "unrecognized or stale token"
    else if code = 201 then "invalid opening_fee_params (promise rejected or expired)"
    else if code = 202 then "payment size too small for the LSP"
    else if code = 203 then "payment size too large for the LSP"
    else "unexpected LSP error"
  "LSP error " ++ toString code ++ ": " ++ detail ++ " (" ++ message ++ ")"

inductive LiquidityEvent where
  | openingParametersReady (requestId counterpartyNodeId : String) (menu : List OpeningFeeParams)
  | getInfoFailed (requestId counterpartyNodeId : String) (code : Int) (message : String)
  | invoiceParametersReady (requestId counterpartyNodeId : String) (buy : BuyResponse)
  | buyRequestFailed (requestId counterpartyNodeId : String) (code : Int) (message : String)

/-! ## Calls -/

/-- A call that asks for the menu, for a quote of an amount or for the floor. -/
inductive FeeCall where
  | idle
  | waiting (amountMsat : Option UInt64) (requestId : String)
  | answered (amountMsat : Option UInt64) (result : Except Lsps2Error (List OpeningFeeParams))
  | quoted (quote : JitQuote)
  | ended (error : Option Lsps2Error)

/-- A call that accepts a quote. -/
inductive AcceptCall where
  | idle
  | prepared (quoteToken : Nat) (prepared : PreparedAccept)
  | waiting (prepared : PreparedAccept) (requestId : String)
  | answered (prepared : PreparedAccept) (requestId : String) (result : Except Lsps2Error BuyResponse)
  | created (prepared : PreparedAccept) (requestId : String) (buy : BuyResponse) (paymentHash paymentSecret : List UInt8)
  | accepted (requestId : String) (buy : BuyResponse) (result : Accepted)
  | failed (error : Lsps2Error)

/-- The parked requests lead to their calls. Of the channel manager, which hashes it has named, and which of them
are in no invoice yet. -/
structure Session where
  quotes : PendingQuotes
  nextQuoteToken : Nat
  feeCalls : Nat → FeeCall
  pendingFeeRequests : String → Option Nat
  accepts : Nat → AcceptCall
  pendingBuyRequests : String → Option Nat
  claims : ClaimTracker
  named : List (List UInt8)
  unannounced : List (List UInt8)

/-- A request id and a payment come from the protocol library and the channel manager. -/
inductive SessionEvent where
  | getInfo (call : Nat) (amountMsat : Option UInt64) (requestId : String)
  | feeTimeout (call : Nat)
  | feeDropped (call : Nat)
  | quote (call nowUnixSecs : Nat)
  | accept (call quoteToken : Nat) (amountMsat : UInt64) (nowUnixSecs : Nat)
  | connectFailed (call : Nat)
  | buy (call : Nat) (request : Except String String)
  | buyTimeout (call : Nat)
  | buyDropped (call : Nat)
  | create (call : Nat) (payment : Option (List UInt8 × List UInt8))
  | finish (call nowUnixSecs : Nat) (signs : Bool)
  | liquidity (event : LiquidityEvent)
  | paymentClaimable (paymentHash : List UInt8) (skimmedFeeMsat : UInt64) (preimage : Option (List UInt8))
  | paymentClaimed (paymentHash : List UInt8) (recorded : Bool)

namespace Session

def start : Session where
  quotes := fun _ => none
  nextQuoteToken := 1
  feeCalls := fun _ => .idle
  pendingFeeRequests := fun _ => none
  accepts := fun _ => .idle
  pendingBuyRequests := fun _ => none
  claims := .empty
  named := []
  unannounced := []

variable (config : LiquidityConfig) (feeRule : FeeRule) (session : Session)

def setFeeCall (call : Nat) (state : FeeCall) : Session :=
  { session with feeCalls := Function.update session.feeCalls call state }

def setAccept (call : Nat) (state : AcceptCall) : Session :=
  { session with accepts := Function.update session.accepts call state }

def unparkFee (requestId : String) : Session :=
  { session with pendingFeeRequests := Function.update session.pendingFeeRequests requestId none }

def unparkBuy (requestId : String) : Session :=
  { session with pendingBuyRequests := Function.update session.pendingBuyRequests requestId none }

/-- An answer reaches the call that is parked under its id, if any. -/
def routeFee (requestId : String) (result : Except Lsps2Error (List OpeningFeeParams)) : Session :=
  match session.pendingFeeRequests requestId with
  | none => session
  | some call =>
    match session.feeCalls call with
    | .waiting amountMsat _ => (session.unparkFee requestId).setFeeCall call (.answered amountMsat result)
    | _ => session.unparkFee requestId

def routeBuy (requestId : String) (result : Except Lsps2Error BuyResponse) : Session :=
  match session.pendingBuyRequests requestId with
  | none => session
  | some call =>
    match session.accepts call with
    | .waiting prepared _ => (session.unparkBuy requestId).setAccept call (.answered prepared requestId result)
    | _ => session.unparkBuy requestId

/-- A result counts from the provider only, a failure from anyone. -/
def handleLiquidityEvent : LiquidityEvent → Session
  | .openingParametersReady requestId counterpartyNodeId menu =>
    if counterpartyNodeId ≠ config.lspNodeId then session else session.routeFee requestId (.ok menu)
  | .getInfoFailed requestId _ code message =>
    session.routeFee requestId (.error (.getInfoFailed (describeLspsError code message)))
  | .invoiceParametersReady requestId counterpartyNodeId buy =>
    if counterpartyNodeId ≠ config.lspNodeId then session else session.routeBuy requestId (.ok buy)
  | .buyRequestFailed requestId _ code message =>
    session.routeBuy requestId (.error (.buyFailed (describeLspsError code message)))

/-- A quote takes the next token. -/
def storeQuote (call : Nat) (amountMsat openingFeeMsat : UInt64) (params : OpeningFeeParams) (nowUnixSecs : Nat) :
    Session :=
  { session with
    quotes := Function.update session.quotes session.nextQuoteToken (some ⟨amountMsat, openingFeeMsat, params⟩)
    nextQuoteToken := session.nextQuoteToken + 1
    feeCalls := Function.update session.feeCalls call
      (.quoted ⟨session.nextQuoteToken, amountMsat, openingFeeMsat, amountMsat - min openingFeeMsat amountMsat,
        params.validUntil, quoteFreshEnough params.validUntil nowUnixSecs⟩) }

def answerQuote (call nowUnixSecs : Nat) : Option UInt64 → Except Lsps2Error (List OpeningFeeParams) → Session
  | _, .error e => session.setFeeCall call (.ended (some e))
  | none, .ok _ => session.setFeeCall call (.ended none)
  | some amountMsat, .ok menu =>
    match selectCheapestValidParams feeRule menu amountMsat nowUnixSecs with
    | .error e => session.setFeeCall call (.ended (some e))
    | .ok (openingFeeMsat, params) => session.storeQuote call amountMsat openingFeeMsat params nowUnixSecs

def startAccept (call quoteToken : Nat) (amountMsat : UInt64) (nowUnixSecs : Nat) : Session :=
  { session with
    quotes := (prepareAccept session.quotes quoteToken amountMsat nowUnixSecs).1
    accepts := Function.update session.accepts call
      (match (prepareAccept session.quotes quoteToken amountMsat nowUnixSecs).2 with
        | .ok prepared => .prepared quoteToken prepared
        | .error e => .failed e) }

/-- The request is sent and its answer awaited under its id. -/
def startBuy (call : Nat) (prepared : PreparedAccept) : Except String String → Session
  | .error detail => session.setAccept call (.failed (.buyFailed ("failed to send buy request: " ++ detail)))
  | .ok requestId =>
    { session.setAccept call (.waiting prepared requestId) with
      pendingBuyRequests := Function.update session.pendingBuyRequests requestId (some call) }

def invoiceParams (prepared : PreparedAccept) (buy : BuyResponse) (paymentHash paymentSecret : List UInt8) :
    JitInvoiceParams where
  lspNodeId := config.lspNodeId
  interceptScid := buy.interceptScid
  lspCltvExpiryDelta := buy.cltvExpiryDelta
  amountMsat := prepared.amountMsat
  paymentHash := paymentHash
  paymentSecret := paymentSecret
  expirySecs := prepared.expirySecs
  network := config.network
  description := jitInvoiceDescription

/-- The claim guard is armed once the invoice is built. -/
def finishWith (call : Nat) (prepared : PreparedAccept) (requestId : String) (buy : BuyResponse)
    (paymentHash paymentSecret : List UInt8) (nowUnixSecs : Nat) : Session :=
  let invoice := buildJitInvoice (invoiceParams config prepared buy paymentHash paymentSecret)
    config.minFinalCltvExpiryDelta nowUnixSecs
  { session.setAccept call (.accepted requestId buy ⟨invoice, prepared.expiresAtUnix, prepared.openingFeeMsat⟩) with
    claims := session.claims.registerExpectedFee paymentHash prepared.openingFeeMsat }

/-- The channel manager creates a hash it has not named before, and reports no payment under a hash that is in no
invoice yet. -/
def step (session : Session) : SessionEvent → Option Session
  | .getInfo call amountMsat requestId =>
    match session.feeCalls call with
    | .idle =>
      some { session.setFeeCall call (.waiting amountMsat requestId) with
        pendingFeeRequests := Function.update session.pendingFeeRequests requestId (some call) }
    | _ => none
  | .feeTimeout call =>
    match session.feeCalls call with
    | .waiting _ requestId =>
      some ((session.unparkFee requestId).setFeeCall call (.ended (some (.requestTimeout "get_info"))))
    | _ => none
  -- a sender that gave way to another under the same id
  | .feeDropped call =>
    match session.feeCalls call with
    | .waiting _ requestId =>
      if session.pendingFeeRequests requestId = some call then none
      else some (session.setFeeCall call (.ended (some .shutdown)))
    | _ => none
  | .quote call nowUnixSecs =>
    match session.feeCalls call with
    | .answered amountMsat result => some (session.answerQuote feeRule call nowUnixSecs amountMsat result)
    | _ => none
  | .accept call quoteToken amountMsat nowUnixSecs =>
    match session.accepts call with
    | .idle => some (session.startAccept call quoteToken amountMsat nowUnixSecs)
    | _ => none
  | .connectFailed call =>
    match session.accepts call with
    | .prepared _ _ => some (session.setAccept call (.failed .connectFailed))
    | _ => none
  | .buy call request =>
    match session.accepts call with
    | .prepared _ prepared => some (session.startBuy call prepared request)
    | _ => none
  | .buyTimeout call =>
    match session.accepts call with
    | .waiting _ requestId =>
      some ((session.unparkBuy requestId).setAccept call (.failed (.requestTimeout "buy")))
    | _ => none
  | .buyDropped call =>
    match session.accepts call with
    | .waiting _ requestId =>
      if session.pendingBuyRequests requestId = some call then none
      else some (session.setAccept call (.failed .shutdown))
    | _ => none
  | .create call payment =>
    match session.accepts call, payment with
    | .answered _ _ (.error e), _ => some (session.setAccept call (.failed e))
    | .answered _ _ (.ok _), none => some (session.setAccept call (.failed .invoiceCreationFailed))
    | .answered prepared requestId (.ok buy), some (paymentHash, paymentSecret) =>
      if paymentHash ∈ session.named then none
      else
        some { session.setAccept call (.created prepared requestId buy paymentHash paymentSecret) with
          named := paymentHash :: session.named
          unannounced := paymentHash :: session.unannounced }
    | _, _ => none
  | .finish call nowUnixSecs signs =>
    match session.accepts call with
    | .created prepared requestId buy paymentHash paymentSecret =>
      let announced := { session with unannounced := session.unannounced.filter (· ≠ paymentHash) }
      some (if signs then
          announced.finishWith config call prepared requestId buy paymentHash paymentSecret nowUnixSecs
        else announced.setAccept call (.failed .invoiceCreationFailed))
    | _ => none
  | .liquidity event => some (session.handleLiquidityEvent config event)
  | .paymentClaimable paymentHash skimmedFeeMsat preimage =>
    if paymentHash ∈ session.unannounced then none
    else
      some { session with
        claims := (session.claims.decide paymentHash skimmedFeeMsat preimage).1
        named := paymentHash :: session.named }
  -- the skim is taken once the claim is on record
  | .paymentClaimed paymentHash recorded =>
    some { session with claims := if recorded then (session.claims.takeSkim paymentHash).1 else session.claims }

end Session

/-! ## What has happened -/

/-- The quotes issued, by token; the buy requests sent, with the token they consumed; the results of buys that
came in, from whoever; the fee that the accept agreed on that created a hash; the skims with which funds were
claimed; and the decisions since the last claim on record. -/
structure SessionLedger where
  issued : List (Nat × StoredJitQuote)
  bought : List (Nat × UInt64 × OpeningFeeParams)
  responses : List (String × String × BuyResponse)
  agreed : List UInt8 → Option UInt64
  funded : List (List UInt8 × UInt64)
  decided : List (List UInt8 × UInt64 × Option (List UInt8) × ClaimDecision)

namespace SessionLedger

def empty : SessionLedger := ⟨[], [], [], fun _ => none, [], []⟩

def issue (ledger : SessionLedger) (feeRule : FeeRule) (quoteToken nowUnixSecs : Nat) : FeeCall → SessionLedger
  | .answered (some amountMsat) (.ok menu) =>
    match selectCheapestValidParams feeRule menu amountMsat nowUnixSecs with
    | .error _ => ledger
    | .ok (openingFeeMsat, params) =>
      { ledger with issued := (quoteToken, ⟨amountMsat, openingFeeMsat, params⟩) :: ledger.issued }
  | _ => ledger

def sendBuy (ledger : SessionLedger) : AcceptCall → Except String String → SessionLedger
  | .prepared quoteToken prepared, .ok _ =>
    { ledger with bought := (quoteToken, prepared.amountMsat, prepared.params) :: ledger.bought }
  | _, _ => ledger

def agree (ledger : SessionLedger) : AcceptCall → Option (List UInt8 × List UInt8) → SessionLedger
  | .answered prepared _ (.ok _), some (paymentHash, _) =>
    { ledger with agreed := Function.update ledger.agreed paymentHash (some prepared.openingFeeMsat) }
  | _, _ => ledger

def decide (ledger : SessionLedger) (claims : ClaimTracker) (paymentHash : List UInt8) (skimmedFeeMsat : UInt64)
    (preimage : Option (List UInt8)) : SessionLedger :=
  let decision := (claims.decide paymentHash skimmedFeeMsat preimage).2
  { ledger with
    funded := match decision with
      | .claim _ => (paymentHash, skimmedFeeMsat) :: ledger.funded
      | .failBack _ => ledger.funded
    decided := (paymentHash, skimmedFeeMsat, preimage, decision) :: ledger.decided }

def after (ledger : SessionLedger) (feeRule : FeeRule) (session : Session) : SessionEvent → SessionLedger
  | .quote call nowUnixSecs => ledger.issue feeRule session.nextQuoteToken nowUnixSecs (session.feeCalls call)
  | .buy call request => ledger.sendBuy (session.accepts call) request
  | .create call payment => ledger.agree (session.accepts call) payment
  | .liquidity (.invoiceParametersReady requestId counterpartyNodeId buy) =>
    { ledger with responses := (requestId, counterpartyNodeId, buy) :: ledger.responses }
  | .paymentClaimable paymentHash skimmedFeeMsat preimage =>
    ledger.decide session.claims paymentHash skimmedFeeMsat preimage
  | .paymentClaimed paymentHash recorded =>
    if recorded then { ledger with decided := ledger.decided.filter (·.1 ≠ paymentHash) } else ledger
  | _ => ledger

end SessionLedger

structure SessionRun where
  session : Session
  ledger : SessionLedger

namespace SessionRun

def start : SessionRun := ⟨.start, .empty⟩

def step (config : LiquidityConfig) (feeRule : FeeRule) (run : SessionRun) (event : SessionEvent) : Option SessionRun :=
  (run.session.step config feeRule event).map (⟨·, run.ledger.after feeRule run.session event⟩)

end SessionRun

/-! ## Quotes are bought once -/

/-- The quote an accept is about, once it is known to be the one that was quoted. -/
def AcceptCall.quoteOf : AcceptCall → Option StoredJitQuote
  | .prepared _ p | .waiting p _ | .answered p _ _ | .created p _ _ _ _ =>
    some ⟨p.amountMsat, p.openingFeeMsat, p.params⟩
  | _ => none

/-- A token is in the store, in the hands of one accept, or spent. -/
structure BoughtOnce (quotes : PendingQuotes) (next : Nat) (accepts : Nat → AcceptCall)
    (issued : List (Nat × StoredJitQuote)) (bought : List (Nat × UInt64 × OpeningFeeParams)) : Prop where
  fresh : ∀ token, next ≤ token → quotes token = none
  below : ∀ token quote, (token, quote) ∈ issued → token < next
  single : ∀ token quote quote', (token, quote) ∈ issued → (token, quote') ∈ issued → quote = quote'
  stored : ∀ token quote, quotes token = some quote → (token, quote) ∈ issued
  unbought : ∀ token quote, quotes token = some quote → token ∉ bought.map (·.1)
  held : ∀ call token prepared, accepts call = .prepared token prepared →
    quotes token = none ∧ token < next ∧ token ∉ bought.map (·.1) ∧
      (token, (⟨prepared.amountMsat, prepared.openingFeeMsat, prepared.params⟩ : StoredJitQuote)) ∈ issued
  alone : ∀ call call' token prepared prepared', accepts call = .prepared token prepared →
    accepts call' = .prepared token prepared' → call = call'
  spent : ∀ token ∈ bought.map (·.1), token < next
  once : (bought.map (·.1)).Nodup
  asQuoted : ∀ token amountMsat params, (token, amountMsat, params) ∈ bought →
    ∃ openingFeeMsat, (token, (⟨amountMsat, openingFeeMsat, params⟩ : StoredJitQuote)) ∈ issued
  carried : ∀ call quote, (accepts call).quoteOf = some quote → ∃ token, (token, quote) ∈ issued

namespace BoughtOnce

variable {quotes : PendingQuotes} {next : Nat} {accepts : Nat → AcceptCall} {issued : List (Nat × StoredJitQuote)}
  {bought : List (Nat × UInt64 × OpeningFeeParams)}

theorem goOn (h : BoughtOnce quotes next accepts issued bought) {call : Nat} {state : AcceptCall}
    (hState : ∀ token prepared, state ≠ .prepared token prepared)
    (hQuote : ∀ quote, state.quoteOf = some quote → (accepts call).quoteOf = some quote) :
    BoughtOnce quotes next (Function.update accepts call state) issued bought := by
  have hOld : ∀ call' token prepared, Function.update accepts call state call' = .prepared token prepared →
      accepts call' = .prepared token prepared := by
    intro call' token prepared hPrepared
    rw [Function.update_apply] at hPrepared
    split at hPrepared
    · exact absurd hPrepared (hState token prepared)
    · exact hPrepared
  refine { h with held := ?_, alone := ?_, carried := ?_ }
  · exact fun call' token prepared hPrepared => h.held call' token prepared (hOld call' token prepared hPrepared)
  · exact fun call' call'' token prepared prepared' hFirst hSecond =>
      h.alone call' call'' token prepared prepared' (hOld _ _ _ hFirst) (hOld _ _ _ hSecond)
  · intro call' quote hCarried
    rw [Function.update_apply] at hCarried
    split at hCarried
    · exact h.carried call quote (hQuote quote hCarried)
    · exact h.carried call' quote hCarried

theorem ended (h : BoughtOnce quotes next accepts issued bought) {call : Nat} {state : AcceptCall}
    (hState : state.quoteOf = none) : BoughtOnce quotes next (Function.update accepts call state) issued bought := by
  refine h.goOn ?_ ?_
  · rintro token prepared rfl
    cases hState
  · intro quote hQuote
    rw [hState] at hQuote
    cases hQuote

theorem issue (h : BoughtOnce quotes next accepts issued bought) (quote : StoredJitQuote) :
    BoughtOnce (Function.update quotes next (some quote)) (next + 1) accepts ((next, quote) :: issued) bought := by
  have hNext : ∀ quote', (next, quote') ∉ issued := by
    intro quote' hIssued
    have hLess := h.below next quote' hIssued
    omega
  refine ⟨?_, ?_, ?_, ?_, ?_, ?_, h.alone, ?_, h.once, ?_, ?_⟩
  · intro token hToken
    rw [Function.update_of_ne (by omega)]
    exact h.fresh token (by omega)
  · intro token quote' hIssued
    rcases List.mem_cons.mp hIssued with hHead | hIssued
    · cases hHead
      exact Nat.lt_succ_self next
    · exact Nat.lt_succ_of_lt (h.below token quote' hIssued)
  · intro token first second hFirst hSecond
    rcases List.mem_cons.mp hFirst with hHead | hFirst
    · cases hHead
      rcases List.mem_cons.mp hSecond with hHead | hSecond
      · cases hHead
        rfl
      · exact absurd hSecond (hNext second)
    · rcases List.mem_cons.mp hSecond with hHead | hSecond
      · cases hHead
        exact absurd hFirst (hNext first)
      · exact h.single token first second hFirst hSecond
  · intro token stored hStored
    rw [Function.update_apply] at hStored
    split at hStored
    · rename_i hToken
      cases hStored
      rw [hToken]
      exact List.mem_cons_self
    · exact List.mem_cons_of_mem _ (h.stored token stored hStored)
  · intro token stored hStored
    rw [Function.update_apply] at hStored
    split at hStored
    · rename_i hToken
      intro hSpent
      have hLess := h.spent token hSpent
      omega
    · exact h.unbought token stored hStored
  · intro call token prepared hPrepared
    obtain ⟨hNone, hLess, hUnspent, hIssued⟩ := h.held call token prepared hPrepared
    rw [Function.update_of_ne (by omega)]
    exact ⟨hNone, by omega, hUnspent, List.mem_cons_of_mem _ hIssued⟩
  · intro token hSpent
    have hLess := h.spent token hSpent
    omega
  · intro token amountMsat params hBought
    obtain ⟨openingFeeMsat, hIssued⟩ := h.asQuoted token amountMsat params hBought
    exact ⟨openingFeeMsat, List.mem_cons_of_mem _ hIssued⟩
  · intro call carried hCarried
    obtain ⟨token, hIssued⟩ := h.carried call carried hCarried
    exact ⟨token, List.mem_cons_of_mem _ hIssued⟩

/-- Whatever comes of an accept, its token leaves the store. -/
theorem accept (h : BoughtOnce quotes next accepts issued bought) (call quoteToken : Nat) (amountMsat : UInt64)
    (nowUnixSecs : Nat) :
    BoughtOnce (prepareAccept quotes quoteToken amountMsat nowUnixSecs).1 next
      (Function.update accepts call
        (match (prepareAccept quotes quoteToken amountMsat nowUnixSecs).2 with
          | .ok prepared => .prepared quoteToken prepared
          | .error e => .failed e)) issued bought := by
  have hShrinks : ∀ token quote, (prepareAccept quotes quoteToken amountMsat nowUnixSecs).1 token = some quote →
      quotes token = some quote := by
    intro token quote hQuote
    rw [prepareAccept] at hQuote
    split at hQuote
    · exact hQuote
    · simp only [Function.update_apply] at hQuote
      split at hQuote
      · cases hQuote
      · exact hQuote
  have hNone : ∀ token, quotes token = none →
      (prepareAccept quotes quoteToken amountMsat nowUnixSecs).1 token = none := by
    intro token hToken
    cases hQuote : (prepareAccept quotes quoteToken amountMsat nowUnixSecs).1 token with
    | none => rfl
    | some quote =>
      rw [hShrinks token quote hQuote] at hToken
      cases hToken
  have hBase : BoughtOnce (prepareAccept quotes quoteToken amountMsat nowUnixSecs).1 next accepts issued bought := by
    refine { h with fresh := ?_, stored := ?_, unbought := ?_, held := ?_ }
    · exact fun token hToken => hNone token (h.fresh token hToken)
    · exact fun token quote hQuote => h.stored token quote (hShrinks token quote hQuote)
    · exact fun token quote hQuote => h.unbought token quote (hShrinks token quote hQuote)
    · intro call' token prepared hPrepared
      obtain ⟨hGone, hRest⟩ := h.held call' token prepared hPrepared
      exact ⟨hNone token hGone, hRest⟩
  cases hPrepared : (prepareAccept quotes quoteToken amountMsat nowUnixSecs).2 with
  | error e => exact hBase.ended rfl
  | ok prepared =>
    obtain ⟨expirySecs, hStored, -, hFields⟩ := prepareAccept_ok hPrepared
    have hAmount : prepared.amountMsat = amountMsat := by rw [hFields]
    have hIssued : (quoteToken, (⟨prepared.amountMsat, prepared.openingFeeMsat, prepared.params⟩ : StoredJitQuote)) ∈ issued := by
      rw [hAmount]
      exact h.stored quoteToken _ hStored
    have hTaken : (prepareAccept quotes quoteToken amountMsat nowUnixSecs).1 quoteToken = none := by
      rw [prepareAccept, hStored]
      exact Function.update_self ..
    have hLess : quoteToken < next := by
      by_contra hLate
      rw [h.fresh quoteToken (not_lt.mp hLate)] at hStored
      cases hStored
    -- nobody else holds a token that was in the store
    have hOnly : ∀ call' prepared', accepts call' ≠ .prepared quoteToken prepared' := by
      intro call' prepared' hOther
      rw [(h.held call' quoteToken prepared' hOther).1] at hStored
      cases hStored
    refine { hBase with held := ?_, alone := ?_, carried := ?_ }
    · intro call' token prepared' hHeld
      rw [Function.update_apply] at hHeld
      split at hHeld
      · cases hHeld
        exact ⟨hTaken, hLess, h.unbought quoteToken _ hStored, hIssued⟩
      · exact hBase.held call' token prepared' hHeld
    · intro call' call'' token prepared' prepared'' hFirst hSecond
      rw [Function.update_apply] at hFirst hSecond
      split at hFirst
      · rename_i hCall
        cases hFirst
        split at hSecond
        · rename_i hCall'
          rw [hCall, hCall']
        · exact absurd hSecond (hOnly call'' prepared'')
      · split at hSecond
        · cases hSecond
          exact absurd hFirst (hOnly call' prepared')
        · exact h.alone call' call'' token prepared' prepared'' hFirst hSecond
    · intro call' quote hCarried
      rw [Function.update_apply] at hCarried
      split at hCarried
      · cases hCarried
        exact ⟨quoteToken, hIssued⟩
      · exact h.carried call' quote hCarried

theorem buy (h : BoughtOnce quotes next accepts issued bought) {call token : Nat} {prepared : PreparedAccept}
    (hHeld : accepts call = .prepared token prepared) (requestId : String) :
    BoughtOnce quotes next (Function.update accepts call (.waiting prepared requestId)) issued
      ((token, prepared.amountMsat, prepared.params) :: bought) := by
  obtain ⟨hGone, hLess, hUnspent, hIssued⟩ := h.held call token prepared hHeld
  have hWaiting : BoughtOnce quotes next (Function.update accepts call (.waiting prepared requestId)) issued bought := by
    refine h.goOn ?_ ?_
    · rintro token' prepared' ⟨⟩
    · intro quote hQuote
      rw [hHeld]
      exact hQuote
  refine { hWaiting with unbought := ?_, held := ?_, spent := ?_, once := ?_, asQuoted := ?_ }
  · intro token' quote hQuote hMem
    rcases List.mem_cons.mp hMem with rfl | hMem
    · rw [hGone] at hQuote
      cases hQuote
    · exact h.unbought token' quote hQuote hMem
  · intro call' token' prepared' hHeld'
    obtain ⟨hGone', hLess', hUnspent', hIssued'⟩ := hWaiting.held call' token' prepared' hHeld'
    refine ⟨hGone', hLess', fun hMem => ?_, hIssued'⟩
    rcases List.mem_cons.mp hMem with rfl | hMem
    · rw [Function.update_apply] at hHeld'
      split at hHeld'
      · cases hHeld'
      · rename_i hCall
        exact hCall (h.alone call' call token' prepared' prepared hHeld' hHeld)
    · exact hUnspent' hMem
  · exact List.forall_mem_cons.mpr ⟨hLess, h.spent⟩
  · exact List.nodup_cons.mpr ⟨hUnspent, h.once⟩
  · intro token' amountMsat params hMem
    rcases List.mem_cons.mp hMem with hSame | hMem
    · cases hSame
      exact ⟨prepared.openingFeeMsat, hIssued⟩
    · exact h.asQuoted token' amountMsat params hMem

end BoughtOnce

/-! ## Only the provider's answers count -/

/-- The result of a buy that an accept goes by, with the request it answers. -/
def AcceptCall.answerOf : AcceptCall → Option (String × BuyResponse)
  | .answered _ requestId (.ok response) => some (requestId, response)
  | .created _ requestId response _ _ => some (requestId, response)
  | .accepted requestId response _ => some (requestId, response)
  | _ => none

/-- A parked request is one its call waits for, and a result an accept goes by came from the provider. -/
structure Heard (lsp : String) (accepts : Nat → AcceptCall) (responses : List (String × String × BuyResponse)) : Prop where
  heard : ∀ call requestId buy, (accepts call).answerOf = some (requestId, buy) → (requestId, lsp, buy) ∈ responses

namespace Heard

variable {lsp : String} {accepts : Nat → AcceptCall} {responses : List (String × String × BuyResponse)}

theorem goOn (h : Heard lsp accepts responses) {call : Nat} {state : AcceptCall}
    (hState : ∀ requestId buy, state.answerOf = some (requestId, buy) → (requestId, lsp, buy) ∈ responses) :
    Heard lsp (Function.update accepts call state) responses := by
  refine ⟨fun call' requestId buy hAnswer => ?_⟩
  rw [Function.update_apply] at hAnswer
  split at hAnswer
  · exact hState requestId buy hAnswer
  · exact h.heard call' requestId buy hAnswer

theorem unanswered (h : Heard lsp accepts responses) {call : Nat} {state : AcceptCall} (hState : state.answerOf = none) :
    Heard lsp (Function.update accepts call state) responses := by
  refine h.goOn fun requestId buy hAnswer => ?_
  rw [hState] at hAnswer
  cases hAnswer

theorem more (h : Heard lsp accepts responses) (response : String × String × BuyResponse) :
    Heard lsp accepts (response :: responses) :=
  ⟨fun call requestId buy hAnswer => List.mem_cons_of_mem _ (h.heard call requestId buy hAnswer)⟩

end Heard

/-! ## Skims stay within what was agreed -/

/-- The allowance of a hash. -/
def allowance (claims : ClaimTracker) (paymentHash : List UInt8) : Option UInt64 :=
  (claims.claims paymentHash).bind (·.expectedFeeMsat)

theorem decide_snd (claims : ClaimTracker) (paymentHash : List UInt8) (skimmedFeeMsat : UInt64)
    (preimage : Option (List UInt8)) :
    (claims.decide paymentHash skimmedFeeMsat preimage).2 =
      (ClaimTracker.decide ⟨fun _ => some ⟨allowance claims paymentHash, none⟩⟩ paymentHash skimmedFeeMsat preimage).2 := by
  have hSame : ((claims.claims paymentHash).getD .default).expectedFeeMsat = allowance claims paymentHash := by
    rw [allowance]
    cases claims.claims paymentHash <;> rfl
  cases preimage with
  | none => rfl
  | some preimage =>
    simp only [ClaimTracker.decide, hSame, Option.getD_some]
    split <;> rfl

theorem allowance_set (claims : ClaimTracker) (paymentHash hash : List UInt8) (state : Option ClaimState) :
    allowance (claims.set paymentHash state) hash =
      if hash = paymentHash then state.bind (·.expectedFeeMsat) else allowance claims hash := by
  simp only [allowance, ClaimTracker.set, Function.update_apply]
  split <;> rfl

theorem allowance_decide (claims : ClaimTracker) (paymentHash hash : List UInt8) (skimmedFeeMsat : UInt64)
    (preimage : Option (List UInt8)) :
    allowance (claims.decide paymentHash skimmedFeeMsat preimage).1 hash = allowance claims hash := by
  have hTracker : (claims.decide paymentHash skimmedFeeMsat preimage).1 = claims.set paymentHash
      (some { (claims.claims paymentHash).getD .default with observedSkimMsat := some skimmedFeeMsat }) := by
    cases preimage with
    | none => rfl
    | some preimage =>
      simp only [ClaimTracker.decide]
      split <;> rfl
  rw [hTracker, allowance_set]
  split
  · rename_i hHash
    subst hHash
    rw [allowance]
    cases claims.claims hash <;> rfl
  · rfl

theorem allowance_register (claims : ClaimTracker) (paymentHash hash : List UInt8) (feeMsat : UInt64) :
    allowance (claims.registerExpectedFee paymentHash feeMsat) hash =
      if hash = paymentHash then some feeMsat else allowance claims hash :=
  allowance_set claims paymentHash hash _

theorem allowance_takeSkim (claims : ClaimTracker) (paymentHash hash : List UInt8) :
    allowance (claims.takeSkim paymentHash).1 hash = if hash = paymentHash then none else allowance claims hash :=
  allowance_set claims paymentHash hash none

theorem decide_claim {claims : ClaimTracker} {paymentHash : List UInt8} {skimmedFeeMsat : UInt64}
    {preimage : Option (List UInt8)} {claimed : List UInt8}
    (h : (claims.decide paymentHash skimmedFeeMsat preimage).2 = .claim claimed) :
    skimmedFeeMsat ≤ (allowance claims paymentHash).getD 0 := by
  rw [decide_snd] at h
  cases preimage with
  | none => cases h
  | some preimage =>
    simp only [ClaimTracker.decide, Option.getD_some] at h
    split at h
    · cases h
    · rename_i hSkim
      exact UInt64.not_lt.mp hSkim

theorem decide_congr {claims claims' : ClaimTracker} {hash : List UInt8} (h : allowance claims hash = allowance claims' hash)
    (skimmedFeeMsat : UInt64) (preimage : Option (List UInt8)) :
    (claims.decide hash skimmedFeeMsat preimage).2 = (claims'.decide hash skimmedFeeMsat preimage).2 := by
  rw [decide_snd claims, decide_snd claims', h]

/-- The hash an accept has created and not yet put into an invoice. -/
def AcceptCall.hashOf : AcceptCall → Option (List UInt8)
  | .created _ _ _ hash _ => some hash
  | _ => none

/-- An allowance is the fee agreed on by the accept that created the hash; what was claimed and decided was
within it. -/
structure WithinFee (accepts : Nat → AcceptCall) (claims : ClaimTracker) (named unannounced : List (List UInt8))
    (agreed : List UInt8 → Option UInt64) (funded : List (List UInt8 × UInt64))
    (decided : List (List UInt8 × UInt64 × Option (List UInt8) × ClaimDecision)) : Prop where
  registered : ∀ hash fee, allowance claims hash = some fee → agreed hash = some fee
  created : ∀ call prepared requestId buy hash secret, accepts call = .created prepared requestId buy hash secret →
    agreed hash = some prepared.openingFeeMsat ∧ hash ∈ unannounced
  alone : ∀ call call' hash, (accepts call).hashOf = some hash → (accepts call').hashOf = some hash → call = call'
  announced : ∀ hash ∈ unannounced, hash ∈ named
  known : ∀ hash fee, agreed hash = some fee → hash ∈ named
  funded : ∀ hash skim, (hash, skim) ∈ funded → skim ≤ (agreed hash).getD 0
  decided : ∀ hash skim preimage decision, (hash, skim, preimage, decision) ∈ decided →
    (claims.decide hash skim preimage).2 = decision ∧ hash ∈ named ∧ hash ∉ unannounced

namespace WithinFee

variable {accepts : Nat → AcceptCall} {claims : ClaimTracker} {named unannounced : List (List UInt8)}
  {agreed : List UInt8 → Option UInt64} {funded : List (List UInt8 × UInt64)}
  {decided : List (List UInt8 × UInt64 × Option (List UInt8) × ClaimDecision)}

theorem within (h : WithinFee accepts claims named unannounced agreed funded decided) {hash : List UInt8} {skim : UInt64}
    (hSkim : skim ≤ (allowance claims hash).getD 0) : skim ≤ (agreed hash).getD 0 := by
  cases hAllowance : allowance claims hash with
  | none =>
    rw [hAllowance, Option.getD_none] at hSkim
    exact UInt64.le_trans hSkim UInt64.zero_le
  | some fee =>
    rw [hAllowance, Option.getD_some] at hSkim
    rw [h.registered hash fee hAllowance, Option.getD_some]
    exact hSkim

theorem goOn (h : WithinFee accepts claims named unannounced agreed funded decided) (call : Nat) {state : AcceptCall}
    (hState : state.hashOf = none) :
    WithinFee (Function.update accepts call state) claims named unannounced agreed funded decided := by
  have hOld : ∀ call' hash, (Function.update accepts call state call').hashOf = some hash →
      (accepts call').hashOf = some hash := by
    intro call' hash hHash
    rw [Function.update_apply] at hHash
    split at hHash
    · rw [hState] at hHash
      cases hHash
    · exact hHash
  refine { h with created := ?_, alone := ?_ }
  · intro call' prepared requestId buy hash secret hCreated
    rw [Function.update_apply] at hCreated
    split at hCreated
    · rw [hCreated] at hState
      cases hState
    · exact h.created call' prepared requestId buy hash secret hCreated
  · exact fun call' call'' hash hFirst hSecond => h.alone call' call'' hash (hOld _ _ hFirst) (hOld _ _ hSecond)

theorem create (h : WithinFee accepts claims named unannounced agreed funded decided) {hash : List UInt8}
    (hNew : hash ∉ named) (call : Nat) (prepared : PreparedAccept) (requestId : String) (buy : BuyResponse)
    (secret : List UInt8) :
    WithinFee (Function.update accepts call (.created prepared requestId buy hash secret)) claims (hash :: named)
      (hash :: unannounced) (Function.update agreed hash (some prepared.openingFeeMsat)) funded decided := by
  have hUnknown : agreed hash = none := by
    cases hAgreed : agreed hash with
    | none => rfl
    | some fee => exact absurd (h.known hash fee hAgreed) hNew
  have hOther : ∀ call' hash', (accepts call').hashOf = some hash' → hash' ≠ hash := by
    rintro call' hash' hHash rfl
    cases hCall : accepts call' with
    | created prepared' requestId' buy' hash'' secret' =>
      rw [hCall] at hHash
      cases hHash
      exact hNew (h.announced hash' (h.created call' prepared' requestId' buy' hash' secret' hCall).2)
    | _ =>
      rw [hCall] at hHash
      cases hHash
  refine ⟨?_, ?_, ?_, ?_, ?_, ?_, ?_⟩
  · intro hash' fee hAllowance
    have hAgreed := h.registered hash' fee hAllowance
    rw [Function.update_of_ne]
    · exact hAgreed
    · rintro rfl
      rw [hUnknown] at hAgreed
      cases hAgreed
  · intro call' prepared' requestId' buy' hash' secret' hCreated
    rw [Function.update_apply] at hCreated
    split at hCreated
    · cases hCreated
      exact ⟨Function.update_self .., List.mem_cons_self⟩
    · have hNe : hash' ≠ hash := hOther call' hash' (by rw [hCreated]; rfl)
      obtain ⟨hAgreed, hMem⟩ := h.created call' prepared' requestId' buy' hash' secret' hCreated
      rw [Function.update_of_ne hNe]
      exact ⟨hAgreed, List.mem_cons_of_mem _ hMem⟩
  · intro call' call'' hash' hFirst hSecond
    rw [Function.update_apply] at hFirst hSecond
    split at hFirst
    · rename_i hCall
      cases hFirst
      split at hSecond
      · rename_i hCall'
        rw [hCall, hCall']
      · exact absurd rfl (hOther call'' hash hSecond)
    · split at hSecond
      · cases hSecond
        exact absurd rfl (hOther call' hash hFirst)
      · exact h.alone call' call'' hash' hFirst hSecond
  · exact List.forall_mem_cons.mpr ⟨List.mem_cons_self, fun hash' hMem => List.mem_cons_of_mem _ (h.announced hash' hMem)⟩
  · intro hash' fee hAgreed
    rw [Function.update_apply] at hAgreed
    split at hAgreed
    · rename_i hHash
      rw [hHash]
      exact List.mem_cons_self
    · exact List.mem_cons_of_mem _ (h.known hash' fee hAgreed)
  · intro hash' skim hFunded
    rw [Function.update_apply]
    split
    · rename_i hHash
      subst hHash
      have hZero := h.funded hash' skim hFunded
      rw [hUnknown, Option.getD_none] at hZero
      exact UInt64.le_trans hZero UInt64.zero_le
    · exact h.funded hash' skim hFunded
  · intro hash' skim preimage decision hDecided
    obtain ⟨hDecision, hNamed, hAnnounced⟩ := h.decided hash' skim preimage decision hDecided
    refine ⟨hDecision, List.mem_cons_of_mem _ hNamed, fun hMem => ?_⟩
    rcases List.mem_cons.mp hMem with rfl | hMem
    · exact hNew hNamed
    · exact hAnnounced hMem

theorem announce (h : WithinFee accepts claims named unannounced agreed funded decided) {call : Nat}
    {prepared : PreparedAccept} {requestId : String} {buy : BuyResponse} {hash secret : List UInt8}
    (hCreated : accepts call = .created prepared requestId buy hash secret) {state : AcceptCall}
    (hState : state.hashOf = none) :
    WithinFee (Function.update accepts call state) claims named (unannounced.filter (· ≠ hash)) agreed funded
      decided := by
  have hHash : (accepts call).hashOf = some hash := by rw [hCreated]; rfl
  have hNext := h.goOn call hState
  refine { hNext with created := ?_, announced := ?_, decided := ?_ }
  · intro call' prepared' requestId' buy' hash' secret' hCreated'
    obtain ⟨hAgreed, hMem⟩ := hNext.created call' prepared' requestId' buy' hash' secret' hCreated'
    refine ⟨hAgreed, List.mem_filter.mpr ⟨hMem, decide_eq_true ?_⟩⟩
    rintro rfl
    rw [Function.update_apply] at hCreated'
    split at hCreated'
    · rw [hCreated'] at hState
      cases hState
    · rename_i hCall
      exact hCall (h.alone call' call hash' (by rw [hCreated']; rfl) hHash)
  · exact fun hash' hMem => h.announced hash' (List.mem_of_mem_filter hMem)
  · intro hash' skim preimage decision hDecided
    obtain ⟨hDecision, hNamed, hAnnounced⟩ := h.decided hash' skim preimage decision hDecided
    exact ⟨hDecision, hNamed, fun hMem => hAnnounced (List.mem_of_mem_filter hMem)⟩

theorem register (h : WithinFee accepts claims named unannounced agreed funded decided) {hash : List UInt8} {fee : UInt64}
    (hAgreed : agreed hash = some fee) (hQuiet : ∀ skim preimage decision, (hash, skim, preimage, decision) ∉ decided) :
    WithinFee accepts (claims.registerExpectedFee hash fee) named unannounced agreed funded decided := by
  refine { h with registered := ?_, decided := ?_ }
  · intro hash' fee' hAllowance
    rw [allowance_register] at hAllowance
    split at hAllowance
    · rename_i hHash
      rw [hHash, hAgreed, hAllowance]
    · exact h.registered hash' fee' hAllowance
  · intro hash' skim preimage decision hDecided
    obtain ⟨hDecision, hRest⟩ := h.decided hash' skim preimage decision hDecided
    have hNe : hash' ≠ hash := by
      rintro rfl
      exact hQuiet skim preimage decision hDecided
    refine ⟨?_, hRest⟩
    rw [← hDecision]
    refine decide_congr ?_ skim preimage
    rw [allowance_register, if_neg hNe]

theorem claimable (h : WithinFee accepts claims named unannounced agreed funded decided) {hash : List UInt8}
    (hAnnounced : hash ∉ unannounced) (skim : UInt64) (preimage : Option (List UInt8)) :
    WithinFee accepts (claims.decide hash skim preimage).1 (hash :: named) unannounced agreed
      (match (claims.decide hash skim preimage).2 with
        | .claim _ => (hash, skim) :: funded
        | .failBack _ => funded)
      ((hash, skim, preimage, (claims.decide hash skim preimage).2) :: decided) := by
  have hSame : ∀ hash' skim' preimage', ((claims.decide hash skim preimage).1.decide hash' skim' preimage').2 =
      (claims.decide hash' skim' preimage').2 := by
    intro hash' skim' preimage'
    exact decide_congr (allowance_decide claims hash hash' skim preimage) skim' preimage'
  refine ⟨?_, h.created, h.alone, ?_, ?_, ?_, ?_⟩
  · intro hash' fee hAllowance
    rw [allowance_decide] at hAllowance
    exact h.registered hash' fee hAllowance
  · exact fun hash' hMem => List.mem_cons_of_mem _ (h.announced hash' hMem)
  · exact fun hash' fee hAgreed => List.mem_cons_of_mem _ (h.known hash' fee hAgreed)
  · intro hash' skim' hFunded
    cases hDecision : (claims.decide hash skim preimage).2 with
    | failBack reason =>
      rw [hDecision] at hFunded
      exact h.funded hash' skim' hFunded
    | claim claimed =>
      rw [hDecision] at hFunded
      rcases List.mem_cons.mp hFunded with hHead | hFunded
      · cases hHead
        exact h.within (decide_claim hDecision)
      · exact h.funded hash' skim' hFunded
  · intro hash' skim' preimage' decision hDecided
    rw [hSame]
    rcases List.mem_cons.mp hDecided with hHead | hDecided
    · cases hHead
      exact ⟨rfl, List.mem_cons_self, hAnnounced⟩
    · obtain ⟨hDecision, hNamed, hRest⟩ := h.decided hash' skim' preimage' decision hDecided
      exact ⟨hDecision, List.mem_cons_of_mem _ hNamed, hRest⟩

theorem claimed (h : WithinFee accepts claims named unannounced agreed funded decided) (hash : List UInt8) :
    WithinFee accepts (claims.takeSkim hash).1 named unannounced agreed funded (decided.filter (·.1 ≠ hash)) := by
  refine { h with registered := ?_, decided := ?_ }
  · intro hash' fee hAllowance
    rw [allowance_takeSkim] at hAllowance
    split at hAllowance
    · cases hAllowance
    · exact h.registered hash' fee hAllowance
  · intro hash' skim preimage decision hDecided
    obtain ⟨hDecided, hNe⟩ := List.mem_filter.mp hDecided
    obtain ⟨hDecision, hRest⟩ := h.decided hash' skim preimage decision hDecided
    refine ⟨?_, hRest⟩
    rw [← hDecision]
    refine decide_congr ?_ skim preimage
    rw [allowance_takeSkim, if_neg (of_decide_eq_true hNe)]

end WithinFee

/-! ## Runs -/

namespace SessionRun

variable (config : LiquidityConfig) (feeRule : FeeRule)

structure Inv (run : SessionRun) : Prop where
  bought : BoughtOnce run.session.quotes run.session.nextQuoteToken run.session.accepts run.ledger.issued run.ledger.bought
  heard : Heard config.lspNodeId run.session.accepts run.ledger.responses
  within : WithinFee run.session.accepts run.session.claims run.session.named run.session.unannounced run.ledger.agreed
    run.ledger.funded run.ledger.decided
  quoted : ∀ hash fee, run.ledger.agreed hash = some fee →
    ∃ token quote, (token, quote) ∈ run.ledger.issued ∧ quote.openingFeeMsat = fee

theorem inv_start : (start : SessionRun).Inv config := by
  refine ⟨⟨?_, ?_, ?_, ?_, ?_, ?_, ?_, ?_, ?_, ?_, ?_⟩, ⟨?_⟩, ⟨?_, ?_, ?_, ?_, ?_, ?_, ?_⟩, ?_⟩
  all_goals simp [start, Session.start, SessionLedger.empty, AcceptCall.quoteOf, AcceptCall.answerOf, AcceptCall.hashOf,
    allowance, ClaimTracker.empty]

variable {config feeRule} {session : Session} {ledger : SessionLedger}

theorem Inv.goOn (h : Inv config ⟨session, ledger⟩) {call : Nat} {state : AcceptCall}
    (hState : ∀ token prepared, state ≠ .prepared token prepared)
    (hQuote : ∀ quote, state.quoteOf = some quote → (session.accepts call).quoteOf = some quote)
    (hAnswer : ∀ requestId buy, state.answerOf = some (requestId, buy) →
      (session.accepts call).answerOf = some (requestId, buy))
    (hHash : state.hashOf = none) : Inv config ⟨session.setAccept call state, ledger⟩ :=
  ⟨h.bought.goOn hState hQuote, h.heard.goOn fun requestId buy hHeard => h.heard.heard call requestId buy
    (hAnswer requestId buy hHeard), h.within.goOn _ hHash, h.quoted⟩

theorem Inv.fail (h : Inv config ⟨session, ledger⟩) (call : Nat) (e : Lsps2Error) :
    Inv config ⟨session.setAccept call (.failed e), ledger⟩ := by
  refine h.goOn ?_ ?_ ?_ rfl
  · rintro token prepared ⟨⟩
  · rintro quote ⟨⟩
  · rintro requestId buy ⟨⟩

theorem Inv.routeBuy (h : Inv config ⟨session, ledger⟩) {requestId : String} {result : Except Lsps2Error BuyResponse}
    (hResult : ∀ buy, result = .ok buy → (requestId, config.lspNodeId, buy) ∈ ledger.responses) :
    Inv config ⟨session.routeBuy requestId result, ledger⟩ := by
  rw [Session.routeBuy]
  split
  · exact h
  · rename_i call hParked
    split
    · rename_i prepared waited hWaiting
      refine ⟨h.bought.goOn ?_ ?_, h.heard.goOn ?_, h.within.goOn _ rfl, h.quoted⟩
      · rintro token prepared' ⟨⟩
      · intro quote hQuote
        rw [hWaiting]
        exact hQuote
      · intro requestId' buy hAnswer
        cases result with
        | error e => cases hAnswer
        | ok response =>
          cases hAnswer
          exact hResult buy rfl
    · exact { h with }

theorem Inv.routeFee (h : Inv config ⟨session, ledger⟩) (requestId : String)
    (result : Except Lsps2Error (List OpeningFeeParams)) : Inv config ⟨session.routeFee requestId result, ledger⟩ := by
  rw [Session.routeFee]
  split
  · exact h
  · split <;> exact { h with }

theorem Inv.quote (h : Inv config ⟨session, ledger⟩) (call nowUnixSecs : Nat) (amountMsat : Option UInt64)
    (result : Except Lsps2Error (List OpeningFeeParams)) :
    Inv config ⟨session.answerQuote feeRule call nowUnixSecs amountMsat result,
      ledger.issue feeRule session.nextQuoteToken nowUnixSecs (.answered amountMsat result)⟩ := by
  cases result with
  | error e => cases amountMsat <;> exact { h with }
  | ok menu =>
    cases amountMsat with
    | none => exact { h with }
    | some amountMsat =>
      cases hSelected : selectCheapestValidParams feeRule menu amountMsat nowUnixSecs with
      | error e =>
        simp only [Session.answerQuote, SessionLedger.issue, hSelected]
        exact { h with }
      | ok selected =>
        simp only [Session.answerQuote, SessionLedger.issue, hSelected]
        refine ⟨h.bought.issue _, h.heard, h.within, ?_⟩
        intro hash fee hAgreed
        obtain ⟨token, quote, hIssued, hFee⟩ := h.quoted hash fee hAgreed
        exact ⟨token, quote, List.mem_cons_of_mem _ hIssued, hFee⟩

theorem Inv.create (h : Inv config ⟨session, ledger⟩) {call : Nat} {prepared : PreparedAccept} {requestId : String}
    {buy : BuyResponse} (hAnswered : session.accepts call = .answered prepared requestId (.ok buy))
    {hash : List UInt8} (hNew : hash ∉ session.named) (secret : List UInt8) :
    Inv config
      ⟨{ session.setAccept call (.created prepared requestId buy hash secret) with
          named := hash :: session.named
          unannounced := hash :: session.unannounced },
        { ledger with agreed := Function.update ledger.agreed hash (some prepared.openingFeeMsat) }⟩ := by
  refine ⟨h.bought.goOn ?_ ?_, h.heard.goOn ?_, h.within.create hNew call prepared requestId buy secret, ?_⟩
  · rintro token prepared' ⟨⟩
  · intro quote hQuote
    rw [hAnswered]
    exact hQuote
  · intro requestId' buy' hAnswer
    refine h.heard.heard call requestId' buy' ?_
    rw [hAnswered]
    exact hAnswer
  · intro hash' fee hAgreed
    simp only [Function.update_apply] at hAgreed
    split at hAgreed
    · cases hAgreed
      obtain ⟨token, hIssued⟩ := h.bought.carried call _ (by rw [hAnswered]; rfl)
      exact ⟨token, _, hIssued, rfl⟩
    · exact h.quoted hash' fee hAgreed

theorem Inv.finish (h : Inv config ⟨session, ledger⟩) {call : Nat} {prepared : PreparedAccept} {requestId : String}
    {buy : BuyResponse} {hash secret : List UInt8}
    (hCreated : session.accepts call = .created prepared requestId buy hash secret) (nowUnixSecs : Nat) :
    Inv config
      ⟨({ session with unannounced := session.unannounced.filter (· ≠ hash) } : Session).finishWith config call prepared
        requestId buy hash secret nowUnixSecs, ledger⟩ := by
  obtain ⟨hAgreed, hUnannounced⟩ := h.within.created call prepared requestId buy hash secret hCreated
  refine ⟨h.bought.goOn ?_ ?_, h.heard.goOn ?_, ?_, h.quoted⟩
  · rintro token prepared' ⟨⟩
  · rintro quote ⟨⟩
  · rintro requestId' buy' ⟨⟩
    refine h.heard.heard call requestId buy ?_
    rw [hCreated]
    rfl
  · refine WithinFee.register (h.within.announce hCreated ?_) hAgreed ?_
    · rfl
    · intro skim preimage decision hDecided
      exact (h.within.decided hash skim preimage decision hDecided).2.2 hUnannounced

theorem inv_step {run next : SessionRun} {event : SessionEvent} (h : run.Inv config)
    (hStep : run.step config feeRule event = some next) : next.Inv config := by
  obtain ⟨session, ledger⟩ := run
  obtain ⟨session', hSession, rfl⟩ := Option.map_eq_some_iff.mp hStep
  cases event with
  | getInfo call amountMsat requestId =>
    simp only [Session.step] at hSession
    split at hSession <;> cases hSession
    exact { h with }
  | feeTimeout call =>
    simp only [Session.step] at hSession
    split at hSession <;> cases hSession
    exact { h with }
  | feeDropped call =>
    simp only [Session.step] at hSession
    split at hSession
    · split at hSession <;> cases hSession
      exact { h with }
    · cases hSession
  | quote call nowUnixSecs =>
    simp only [Session.step] at hSession
    split at hSession
    · rename_i amountMsat result hAnswered
      cases hSession
      simp only [SessionLedger.after, hAnswered]
      exact h.quote call nowUnixSecs amountMsat result
    · cases hSession
  | accept call quoteToken amountMsat nowUnixSecs =>
    simp only [Session.step] at hSession
    split at hSession
    · cases hSession
      refine ⟨h.bought.accept call quoteToken amountMsat nowUnixSecs, h.heard.unanswered ?_, h.within.goOn _ ?_, h.quoted⟩
      · split <;> rfl
      · split <;> rfl
    · cases hSession
  | connectFailed call =>
    simp only [Session.step] at hSession
    split at hSession <;> cases hSession
    exact h.fail call .connectFailed
  | buy call request =>
    simp only [Session.step] at hSession
    split at hSession
    · rename_i token prepared hPrepared
      cases hSession
      simp only [SessionLedger.after, hPrepared]
      cases request with
      | error detail => exact h.fail call _
      | ok requestId =>
        exact ⟨h.bought.buy hPrepared requestId, h.heard.unanswered rfl, h.within.goOn _ rfl, h.quoted⟩
    · cases hSession
  | buyTimeout call =>
    simp only [Session.step] at hSession
    split at hSession <;> cases hSession
    have hFailed := h.fail call (.requestTimeout "buy")
    exact { hFailed with }
  | buyDropped call =>
    simp only [Session.step] at hSession
    split at hSession
    · split at hSession <;> cases hSession
      exact h.fail call _
    · cases hSession
  | create call payment =>
    simp only [Session.step] at hSession
    split at hSession
    · rename_i prepared requestId e hAnswered
      cases hSession
      simp only [SessionLedger.after, hAnswered]
      exact h.fail call e
    · rename_i prepared requestId buy hAnswered
      cases hSession
      simp only [SessionLedger.after, hAnswered]
      exact h.fail call _
    · rename_i prepared requestId buy hash secret hAnswered
      split at hSession
      · cases hSession
      · rename_i hNew
        cases hSession
        simp only [SessionLedger.after, hAnswered]
        exact h.create hAnswered hNew secret
    · cases hSession
  | finish call nowUnixSecs signs =>
    simp only [Session.step] at hSession
    split at hSession
    · rename_i prepared requestId buy hash secret hCreated
      cases hSession
      cases signs with
      | true => exact h.finish hCreated nowUnixSecs
      | false =>
        have hFailed := h.fail call .invoiceCreationFailed
        exact ⟨hFailed.bought, hFailed.heard, h.within.announce hCreated rfl, h.quoted⟩
    · cases hSession
  | liquidity event =>
    cases hSession
    cases event with
    | openingParametersReady requestId counterpartyNodeId menu =>
      simp only [Session.handleLiquidityEvent]
      split
      · exact h
      · exact h.routeFee requestId _
    | getInfoFailed requestId counterpartyNodeId code message => exact h.routeFee requestId _
    | invoiceParametersReady requestId counterpartyNodeId buy =>
      have hMore : Inv config ⟨session, { ledger with responses := (requestId, counterpartyNodeId, buy) :: ledger.responses }⟩ :=
        ⟨h.bought, h.heard.more _, h.within, h.quoted⟩
      simp only [Session.handleLiquidityEvent]
      split
      · exact hMore
      · rename_i hPeer
        refine hMore.routeBuy ?_
        rintro buy' ⟨⟩
        rw [not_not.mp hPeer]
        exact List.mem_cons_self
    | buyRequestFailed requestId counterpartyNodeId code message =>
      refine h.routeBuy ?_
      rintro buy ⟨⟩
  | paymentClaimable hash skim preimage =>
    simp only [Session.step] at hSession
    split at hSession
    · cases hSession
    · rename_i hAnnounced
      cases hSession
      exact ⟨h.bought, h.heard, h.within.claimable hAnnounced skim preimage, h.quoted⟩
  | paymentClaimed hash recorded =>
    cases hSession
    cases recorded with
    | false => exact { h with }
    | true => exact ⟨h.bought, h.heard, h.within.claimed hash, h.quoted⟩

end SessionRun

/-- In every session each token is bought at most once, for the one amount and entry it was quoted with; an accept
goes through only on the provider's answer; funds are claimed only within the fee that the accept agreed on which
created the hash, and no other hash's fee allows a skim; and a decision stays until the claim is on record. -/
theorem session_holds (config : LiquidityConfig) (feeRule : FeeRule) {events : List SessionEvent} {run : SessionRun}
    (hRun : exec (SessionRun.step config feeRule) .start events = some run) :
    (run.ledger.bought.map (·.1)).Nodup ∧
    (∀ token amountMsat params, (token, amountMsat, params) ∈ run.ledger.bought →
      ∃ openingFeeMsat, ∀ quote, (token, quote) ∈ run.ledger.issued ↔ quote = ⟨amountMsat, openingFeeMsat, params⟩) ∧
    (∀ call requestId buy accepted, run.session.accepts call = .accepted requestId buy accepted →
      (requestId, config.lspNodeId, buy) ∈ run.ledger.responses) ∧
    (∀ hash skim, (hash, skim) ∈ run.ledger.funded → skim ≤ (run.ledger.agreed hash).getD 0) ∧
    (∀ hash fee, allowance run.session.claims hash = some fee → run.ledger.agreed hash = some fee) ∧
    (∀ hash fee, run.ledger.agreed hash = some fee →
      ∃ token quote, (token, quote) ∈ run.ledger.issued ∧ quote.openingFeeMsat = fee) ∧
    ∀ hash skim preimage decision, (hash, skim, preimage, decision) ∈ run.ledger.decided →
      (run.session.claims.decide hash skim preimage).2 = decision := by
  have hInv : run.Inv config :=
    exec_inv_all (fun _ _ _ h hStep => SessionRun.inv_step h hStep) (SessionRun.inv_start config) hRun
  refine ⟨hInv.bought.once, ?_, ?_, hInv.within.funded, hInv.within.registered, hInv.quoted, ?_⟩
  · intro token amountMsat params hBought
    obtain ⟨openingFeeMsat, hIssued⟩ := hInv.bought.asQuoted token amountMsat params hBought
    refine ⟨openingFeeMsat, fun quote => ⟨fun hQuote => hInv.bought.single token quote _ hQuote hIssued, ?_⟩⟩
    rintro rfl
    exact hIssued
  · intro call requestId buy accepted hAccepted
    refine hInv.heard.heard call requestId buy ?_
    rw [hAccepted]
    rfl
  · intro hash skim preimage decision hDecided
    exact (hInv.within.decided hash skim preimage decision hDecided).1

/-- A proportional fee, rounded up, and at least the minimum. -/
def demoFeeRule : FeeRule := fun amountMsat minFeeMsat proportional =>
  let fee := (amountMsat.toNat * proportional.toNat + 999999) / 1000000
  if fee < 2 ^ 64 then some (.ofNat (max fee minFeeMsat.toNat)) else none

/-- A quote is accepted; someone else answers first; the payment is claimed at the agreed skim, a replay is, and
one millisatoshi more is not. -/
def demoSession : List SessionEvent := [
  .getInfo 0 (some 250000000) "a1",
  .liquidity (.openingParametersReady "a1" demoConfig.lspNodeId [demoQuote.params]),
  .quote 0 1700000000,
  .accept 0 1 250000000 1700000002,
  .buy 0 (.ok "b1"),
  .liquidity (.invoiceParametersReady "b1" "02eec7" ⟨1, 40⟩),
  .liquidity (.invoiceParametersReady "b1" demoConfig.lspNodeId ⟨0x123456789abcd, 144⟩),
  .create 0 (some ([7], [9])),
  .finish 0 1700000003 true,
  .paymentClaimable [7] 2500000 (some [5]),
  .paymentClaimable [7] 2500000 (some [5]),
  .paymentClaimable [7] 2500001 (some [5])]

theorem demoSession_holds : ∃ run, exec (SessionRun.step demoConfig demoFeeRule) .start demoSession = some run ∧
    run.ledger.funded = [([7], 2500000), ([7], 2500000)] ∧ run.ledger.bought = [(1, 250000000, demoQuote.params)] ∧
    (run.ledger.bought.map (·.1)).Nodup ∧
    ∀ hash skim, (hash, skim) ∈ run.ledger.funded → skim ≤ (run.ledger.agreed hash).getD 0 := by
  have hRun : ∃ run, exec (SessionRun.step demoConfig demoFeeRule) .start demoSession = some run ∧
      run.ledger.funded = [([7], 2500000), ([7], 2500000)] ∧ run.ledger.bought = [(1, 250000000, demoQuote.params)] :=
    ⟨_, rfl, rfl, rfl⟩
  obtain ⟨run, hRun, hFunded, hBought⟩ := hRun
  obtain ⟨hOnce, -, -, hWithin, -⟩ := session_holds demoConfig demoFeeRule hRun
  exact ⟨run, hRun, hFunded, hBought, hOnce, hWithin⟩

end WalletCore.Liquidity
