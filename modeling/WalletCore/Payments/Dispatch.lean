import WalletCore.Events.Event
import WalletCore.History.PaymentStore
import WalletCore.Payments.Send

/-! # Dispatching a payment

A send writes its pending row before LDK is asked. When LDK refuses, the row is settled and the
failure reported only for the errors that count as a failed attempt.
-/

namespace WalletCore.Payments

open Lib History Events Restore

/-- The payment store and the events reported so far. -/
structure PaymentNode where
  store : PaymentStore
  emitted : List CoreEvent

/-- What a call reads from outside: the running node's parts, the clock and the answers it gets. -/
structure SendEnv where
  parsers : Parsers
  network : Network
  running : Bool
  now : Nat
  nowMs : UInt64
  pay : Bolt11Payer
  payOffer : Bolt12Payer
  /-- The dial of the LSP, an error as its text. -/
  lspConnected : Except String Unit
  randomBytes : List UInt8

namespace PaymentNode

def emit (node : PaymentNode) (event : CoreEvent) : PaymentNode := { node with emitted := node.emitted ++ [event] }

/-- A failed write is logged and does not block the send. -/
def recordPendingOutbound (node : PaymentNode) (paymentId : String) (amountMsat nowMs : UInt64) : PaymentNode :=
  { node with store := (node.store.recordPending paymentId .outbound amountMsat nowMs).1 }

def settleAttemptFailure (node : PaymentNode) (paymentId : String) (paymentHash : Option String) (error : SendError) :
    PaymentNode :=
  if !error.isAttemptFailure then node
  else
    { node with store := (node.store.settle paymentId .failed none (some error.display)).1 }.emit
      (.paymentFailed paymentHash error.display)

def sendPayment (node : PaymentNode) (env : SendEnv) (bolt11 : String) (amountOverrideMsat : Option UInt64) :
    PaymentNode × Except SendError Unit :=
  if !env.running then (node, .error .notRunning)
  else
    match parseAndValidate env.parsers bolt11 env.network env.now amountOverrideMsat with
    | .error error => (node, .error error)
    | .ok (invoice, amountMsat) =>
      let paymentId := hexStr (paymentIdFor invoice)
      let paymentHash := hexStr invoice.paymentHash
      let node := node.recordPendingOutbound paymentId amountMsat env.nowMs
      match sendBolt11 env.parsers env.pay bolt11 env.network env.now amountOverrideMsat with
      | .ok _ => (node, .ok ())
      | .error error => (node.settleAttemptFailure paymentId (some paymentHash) error, .error error)

def payOffer (node : PaymentNode) (env : SendEnv) (offerStr : String) (amountOverrideMsat : Option UInt64)
    (payerNote : Option String) : PaymentNode × Except SendError Unit :=
  if !env.running then (node, .error .notRunning)
  else
    match validateOffer env.parsers offerStr env.network env.now with
    | .error error => (node, .error error)
    | .ok (_, embeddedMsat) =>
      match resolveAmount embeddedMsat amountOverrideMsat with
      | .error error => (node, .error error)
      | .ok amountMsat =>
        let paymentId := hexStr env.randomBytes
        let node := node.recordPendingOutbound paymentId amountMsat env.nowMs
        let result : Except SendError Unit := match env.lspConnected with
          | .error error =>
            .error (.sendFailed ("could not connect to the LSP for BOLT12 onion messaging: " ++ error))
          | .ok () =>
            (sendBolt12 env.parsers env.payOffer offerStr env.network env.now amountOverrideMsat payerNote
              env.randomBytes).map fun _ => ()
        match result with
        | .ok () => (node, .ok ())
        | .error error => (node.settleAttemptFailure paymentId none error, .error error)

end PaymentNode

/-! ## What LDK answered -/

/-- The error of LDK's pay call, when it was made and failed. -/
def SendEnv.refusal (env : SendEnv) (bolt11 : String) (amountOverrideMsat : Option UInt64) :
    Option Bolt11PaymentError :=
  if !env.running then none
  else
    match parseAndValidate env.parsers bolt11 env.network env.now amountOverrideMsat with
    | .error _ => none
    | .ok (invoice, _) =>
      match env.pay invoice (paymentIdFor invoice) (ldkAmount invoice.amountMilliSatoshis amountOverrideMsat)
          sendRetry with
      | .error e => some e
      | .ok () => none

/-- The call ends before LDK is asked. -/
def SendEnv.Rejects (env : SendEnv) (bolt11 : String) (amountOverrideMsat : Option UInt64) : Prop :=
  env.running = false ∨
    ∃ error, parseAndValidate env.parsers bolt11 env.network env.now amountOverrideMsat = .error error

/-- An offer's payment gets its id once the request is valid. -/
def SendEnv.DrawsId (env : SendEnv) (offerStr : String) (amountOverrideMsat : Option UInt64) : Prop :=
  env.running = true ∧ ∃ offer embeddedMsat amountMsat,
    validateOffer env.parsers offerStr env.network env.now = .ok (offer, embeddedMsat) ∧
      resolveAmount embeddedMsat amountOverrideMsat = .ok amountMsat

/-- What stopped an offer's payment. -/
inductive OfferRefusal where
  | unconnected (error : String)
  | refused (error : Bolt12SemanticError)
deriving DecidableEq

def OfferRefusal.toSendError (network : Network) : OfferRefusal → SendError
  | .unconnected error => .sendFailed ("could not connect to the LSP for BOLT12 onion messaging: " ++ error)
  | .refused error => mapOfferError network error

def SendEnv.offerRefusal (env : SendEnv) (offerStr : String) (amountOverrideMsat : Option UInt64)
    (payerNote : Option String) : Option OfferRefusal :=
  match env.lspConnected with
  | .error error => some (.unconnected error)
  | .ok () =>
    match validateOffer env.parsers offerStr env.network env.now with
    | .error _ => none
    | .ok (offer, embeddedMsat) =>
      match resolveAmount embeddedMsat amountOverrideMsat with
      | .error _ => none
      | .ok amountMsat =>
        match env.payOffer offer (ldkAmount embeddedMsat (some amountMsat)) env.randomBytes payerNote sendRetry with
        | .error e => some (.refused e)
        | .ok () => none

/-! ## A payment's row -/

/-- The pending write of a send leaves the row pending. -/
def Armed (store : PaymentStore) (id : String) : Prop :=
  store.statusAt id = some .pending ∨
    ((store.statusAt id = none ∨ store.statusAt id = some .failed) ∧
      store.kvStore.failure store.kvStore.writes = none)

/-- The write that settles the row succeeds: it is the first of the call when the row was pending already. -/
def SettleWrites (store : PaymentStore) (id : String) : Prop :=
  store.kvStore.failure (if store.statusAt id = some .pending then store.kvStore.writes
    else store.kvStore.writes + 1) = none

/-- A failed attempt ends with a failed row. -/
def RowFails (store : PaymentStore) (id : String) : Prop :=
  (Armed store id ∧ SettleWrites store id) ∨ (¬ Armed store id ∧ store.statusAt id = some .failed)

section

variable (store : PaymentStore) (id : String) (amountMsat nowMs : UInt64) (reason : String)

instance : Decidable (Armed store id) := inferInstanceAs (Decidable (_ ∨ _))

instance : Decidable (SettleWrites store id) := inferInstanceAs (Decidable (_ = _))

theorem statusAt_storeRow {row : PersistedPayment} :
    (store.storeRow id row).1.statusAt id =
      if store.kvStore.failure store.kvStore.writes = none then some row.status else store.statusAt id := by
  rw [PaymentStore.storeRow, PaymentStore.persistRow]
  cases store.kvStore.failure store.kvStore.writes with
  | some detail => rfl
  | none => simp [PaymentStore.statusAt]

theorem kvStore_storeRow (row : PersistedPayment) :
    (store.storeRow id row).1.kvStore.failure = store.kvStore.failure ∧
      (store.storeRow id row).1.kvStore.writes = store.kvStore.writes + 1 := by
  rw [PaymentStore.storeRow, PaymentStore.persistRow]
  cases store.kvStore.failure store.kvStore.writes <;> exact ⟨rfl, rfl⟩

/-- The pending write: skipped on a row that is pending or paid. -/
theorem recordPending_eq : (store.recordPending id .outbound amountMsat nowMs).1 =
    if store.statusAt id = some .pending ∨ store.statusAt id = some .succeeded then store
    else (store.storeRow id (pendingRow id .outbound amountMsat nowMs)).1 := by
  rw [PaymentStore.recordPending, PaymentStore.statusAt]
  cases store.rows.lookup id with
  | none => simp
  | some row => cases hStatus : row.status <;> simp [hStatus]

theorem settle_eq (status : PaymentStatus) (feePaidMsat : Option UInt64) (failureReason : Option String) :
    (store.settle id status feePaidMsat failureReason).1.statusAt id =
      if store.statusAt id = some .pending ∧ store.kvStore.failure store.kvStore.writes = none then some status
      else store.statusAt id := by
  rw [PaymentStore.settle]
  cases hRow : store.rows.lookup id with
  | none => simp [PaymentStore.statusAt, hRow]
  | some row =>
    cases hStatus : row.status with
    | pending =>
      simp only [hStatus, ne_eq, not_true, if_false, statusAt_storeRow]
      simp [PaymentStore.statusAt, hRow, hStatus, settledRow]
    | succeeded => simp [PaymentStore.statusAt, hRow, hStatus]
    | failed => simp [PaymentStore.statusAt, hRow, hStatus]

theorem recordPending_armed :
    (store.recordPending id .outbound amountMsat nowMs).1.statusAt id = some .pending ↔ Armed store id := by
  rw [recordPending_eq, Armed]
  cases hStatus : store.statusAt id with
  | none => simp [statusAt_storeRow, hStatus, pendingRow]
  | some status => cases status <;> simp [statusAt_storeRow, hStatus, pendingRow]

/-- The row after a failed attempt: it stays pending only when the settling write fails. -/
theorem attempt_statusAt :
    ((store.recordPending id .outbound amountMsat nowMs).1.settle id .failed none (some reason)).1.statusAt id =
      if Armed store id ∧ SettleWrites store id then some .failed
      else if Armed store id then some .pending else store.statusAt id := by
  obtain ⟨hFailure, hWrites⟩ := kvStore_storeRow store id (pendingRow id .outbound amountMsat nowMs)
  have hRow : (pendingRow id .outbound amountMsat nowMs).status = .pending := rfl
  simp only [settle_eq, recordPending_eq, Armed, SettleWrites]
  obtain hStatus | ⟨status, hStatus⟩ := Option.eq_none_or_eq_some (store.statusAt id)
  · by_cases hWrite : store.kvStore.failure store.kvStore.writes = none <;>
      simp [statusAt_storeRow, hFailure, hWrites, hStatus, hWrite, hRow]
  · cases status with
    | pending => simp [hStatus]
    | succeeded => simp [hStatus]
    | failed =>
      by_cases hWrite : store.kvStore.failure store.kvStore.writes = none <;>
        simp [statusAt_storeRow, hFailure, hWrites, hStatus, hWrite, hRow]

theorem attempt_failed_iff :
    ((store.recordPending id .outbound amountMsat nowMs).1.settle id .failed none (some reason)).1.statusAt id =
      some .failed ↔ RowFails store id := by
  rw [attempt_statusAt, RowFails]
  by_cases hArmed : Armed store id <;> by_cases hSettle : SettleWrites store id <;> simp [hArmed, hSettle]

theorem attempt_pending_iff :
    ((store.recordPending id .outbound amountMsat nowMs).1.settle id .failed none (some reason)).1.statusAt id =
      some .pending ↔ Armed store id ∧ ¬ SettleWrites store id := by
  rw [attempt_statusAt]
  by_cases hArmed : Armed store id
  · by_cases hSettle : SettleWrites store id <;> simp [hArmed, hSettle]
  · have hPending : store.statusAt id ≠ some .pending := fun hPending => hArmed (.inl hPending)
    simp [hArmed, hPending]

end

/-! ## No phantoms -/

/-- What an error leaves of a payment: a pending row only over a payment LDK still holds; and where LDK
abandoned the attempt, a failed row and the report of it. -/
structure NoPhantom (before after : PaymentNode) (live : String → Bool) (id : String) (paymentHash : Option String)
    (abandoned : Prop) : Prop where
  pending : after.store.statusAt id = some .pending → live id = true
  failed : abandoned → after.store.statusAt id = some .failed ∧
    ∃ reason, after.emitted = before.emitted ++ [.paymentFailed paymentHash reason]

section

variable (node : PaymentNode) (live : String → Bool) {id : String} {paymentHash : Option String} {amountMsat nowMs : UInt64}

theorem RowFails.unpending {live : String → Bool} {store : PaymentStore} (h : RowFails store id) (hArmed : Armed store id)
    (hSettle : ¬ SettleWrites store id) : live id = true := by
  obtain ⟨-, hWrites⟩ | ⟨hNot, -⟩ := h
  · exact absurd hWrites hSettle
  · exact absurd hArmed hNot

theorem noPhantom_rejected {abandoned : Prop} (hAbandoned : ¬ abandoned) :
    NoPhantom node node live id paymentHash abandoned ↔ (node.store.statusAt id = some .pending → live id = true) :=
  ⟨fun h => h.pending, fun h => ⟨h, fun hNot => absurd hNot hAbandoned⟩⟩

/-- Errors that do not count as a failed attempt leave the row as the pending write left it. -/
theorem noPhantom_unsettled {error : SendError} (hError : error.isAttemptFailure = false) (abandoned : Prop) :
    NoPhantom node ((node.recordPendingOutbound id amountMsat nowMs).settleAttemptFailure id paymentHash error) live id
      paymentHash abandoned ↔ ¬ abandoned ∧ (Armed node.store id → live id = true) := by
  have hSame : (node.recordPendingOutbound id amountMsat nowMs).settleAttemptFailure id paymentHash error =
      node.recordPendingOutbound id amountMsat nowMs := by
    rw [PaymentNode.settleAttemptFailure, hError]
    rfl
  have hArmed : (node.recordPendingOutbound id amountMsat nowMs).store.statusAt id = some .pending ↔
      Armed node.store id := recordPending_armed node.store id amountMsat nowMs
  rw [hSame]
  constructor
  · intro h
    refine ⟨fun hAbandoned => ?_, fun hRow => h.pending (hArmed.mpr hRow)⟩
    -- Nothing was reported.
    obtain ⟨-, reason, hEmitted⟩ := h.failed hAbandoned
    simpa using congrArg List.length (show node.emitted = _ from hEmitted)
  · rintro ⟨hKept, hLive⟩
    exact ⟨fun hPending => hLive (hArmed.mp hPending), fun hAbandoned => absurd hAbandoned hKept⟩

theorem noPhantom_settled {error : SendError} (hError : error.isAttemptFailure = true) (abandoned : Prop) :
    NoPhantom node ((node.recordPendingOutbound id amountMsat nowMs).settleAttemptFailure id paymentHash error) live id
      paymentHash abandoned ↔
      (abandoned → RowFails node.store id) ∧ (Armed node.store id → ¬ SettleWrites node.store id → live id = true) := by
  have hSettled : (node.recordPendingOutbound id amountMsat nowMs).settleAttemptFailure id paymentHash error =
      (PaymentNode.mk ((node.store.recordPending id .outbound amountMsat nowMs).1.settle id .failed none
        (some error.display)).1 (node.emitted ++ [.paymentFailed paymentHash error.display])) := by
    rw [PaymentNode.settleAttemptFailure, hError]
    rfl
  have hFailed := attempt_failed_iff node.store id amountMsat nowMs error.display
  have hPending := attempt_pending_iff node.store id amountMsat nowMs error.display
  rw [hSettled]
  constructor
  · intro h
    exact ⟨fun hAbandoned => hFailed.mp (h.failed hAbandoned).1,
      fun hArmed hSettle => h.pending (hPending.mpr ⟨hArmed, hSettle⟩)⟩
  · rintro ⟨hRow, hLive⟩
    refine ⟨fun hStatus => ?_, fun hAbandoned => ⟨hFailed.mpr (hRow hAbandoned), error.display, rfl⟩⟩
    obtain ⟨hArmed, hSettle⟩ := hPending.mp hStatus
    exact hLive hArmed hSettle

end

/-! ## The two calls -/

section

variable (node : PaymentNode) (env : SendEnv) (live : String → Bool) (bolt11 offerStr : String)
  (amountOverrideMsat : Option UInt64) (payerNote : Option String)

/-- An error of `sendPayment` leaves no phantom under the invoice's payment id. -/
def SendClean : Prop :=
  ∀ error, (node.sendPayment env bolt11 amountOverrideMsat).2 = .error error →
    ∀ invoice, env.parsers.bolt11 bolt11 = .ok invoice →
      NoPhantom node (node.sendPayment env bolt11 amountOverrideMsat).1 live (hexStr (paymentIdFor invoice))
        (some (hexStr invoice.paymentHash))
        (∃ e, env.refusal bolt11 amountOverrideMsat = some e ∧ e ≠ .sendingFailed .duplicatePayment)

def OfferClean : Prop :=
  ∀ error, (node.payOffer env offerStr amountOverrideMsat payerNote).2 = .error error →
    env.DrawsId offerStr amountOverrideMsat →
      NoPhantom node (node.payOffer env offerStr amountOverrideMsat payerNote).1 live (hexStr env.randomBytes) none
        (∃ e, env.offerRefusal offerStr amountOverrideMsat payerNote = some (.refused e) ∧ e ≠ .duplicatePaymentId)

/-- When a refusal by LDK is cleaned up. -/
def Bolt11PaymentError.Settles (store : PaymentStore) (id : String) : Bolt11PaymentError → Prop
  | .invalidAmount | .sendingFailed .paymentExpired => False
  | .sendingFailed .duplicatePayment => Armed store id → live id = true
  | .sendingFailed .routeNotFound | .sendingFailed .onionPacketSizeExceeded => RowFails store id

def OfferRefusal.Settles (store : PaymentStore) (id : String) : OfferRefusal → Prop
  | .unconnected _ => Armed store id → ¬ SettleWrites store id → live id = true
  | .refused .alreadyExpired | .refused .unsupportedChain | .refused .missingAmount => False
  | .refused .duplicatePaymentId => Armed store id → live id = true
  | .refused (.other _) => RowFails store id

theorem sendPayment_cases :
    (env.Rejects bolt11 amountOverrideMsat ∧ env.refusal bolt11 amountOverrideMsat = none ∧
      ∃ error, node.sendPayment env bolt11 amountOverrideMsat = (node, .error error)) ∨
    ∃ invoice amountMsat, env.parsers.bolt11 bolt11 = .ok invoice ∧ ¬ env.Rejects bolt11 amountOverrideMsat ∧
      ((env.refusal bolt11 amountOverrideMsat = none ∧ (node.sendPayment env bolt11 amountOverrideMsat).2 = .ok ()) ∨
      ∃ e, env.refusal bolt11 amountOverrideMsat = some e ∧ node.sendPayment env bolt11 amountOverrideMsat =
        ((node.recordPendingOutbound (hexStr (paymentIdFor invoice)) amountMsat env.nowMs).settleAttemptFailure
          (hexStr (paymentIdFor invoice)) (some (hexStr invoice.paymentHash)) (mapPayError e),
          .error (mapPayError e))) := by
  rw [SendEnv.Rejects, SendEnv.refusal, PaymentNode.sendPayment]
  cases hRunning : env.running with
  | false => exact .inl ⟨.inl rfl, rfl, _, rfl⟩
  | true =>
    cases hValid : parseAndValidate env.parsers bolt11 env.network env.now amountOverrideMsat with
    | error error => exact .inl ⟨.inr ⟨error, rfl⟩, rfl, error, rfl⟩
    | ok validated =>
      obtain ⟨invoice, amountMsat⟩ := validated
      refine .inr ⟨invoice, amountMsat, parseAndValidate_parsed hValid, by simp, ?_⟩
      simp only [sendBolt11, hValid]
      cases hPay : env.pay invoice (paymentIdFor invoice)
        (ldkAmount invoice.amountMilliSatoshis amountOverrideMsat) sendRetry with
      | ok => exact .inl ⟨rfl, rfl⟩
      | error e => exact .inr ⟨e, rfl, rfl⟩

variable {id : String} {paymentHash : Option String} {amountMsat nowMs : UInt64}

theorem Bolt11PaymentError.noPhantom_iff (e : Bolt11PaymentError) :
    NoPhantom node ((node.recordPendingOutbound id amountMsat nowMs).settleAttemptFailure id paymentHash (mapPayError e))
      live id paymentHash (∃ e', some e = some e' ∧ e' ≠ .sendingFailed .duplicatePayment) ↔
      e.Settles live node.store id := by
  cases e with
  | invalidAmount =>
    rw [mapPayError, noPhantom_unsettled node live rfl]
    simp [Settles]
  | sendingFailed failure =>
    cases failure with
    | paymentExpired =>
      rw [mapPayError, noPhantom_unsettled node live rfl]
      simp [Settles]
    | duplicatePayment =>
      rw [mapPayError, noPhantom_unsettled node live rfl]
      simp [Settles]
    | routeNotFound =>
      rw [mapPayError, noPhantom_settled node live rfl]
      simpa [Settles] using RowFails.unpending
    | onionPacketSizeExceeded =>
      rw [mapPayError, noPhantom_settled node live rfl]
      simpa [Settles] using RowFails.unpending

theorem sendClean_iff :
    SendClean node env live bolt11 amountOverrideMsat ↔ ∀ invoice, env.parsers.bolt11 bolt11 = .ok invoice →
      (env.Rejects bolt11 amountOverrideMsat →
        node.store.statusAt (hexStr (paymentIdFor invoice)) = some .pending → live (hexStr (paymentIdFor invoice)) = true) ∧
      ∀ e, env.refusal bolt11 amountOverrideMsat = some e →
        e.Settles live node.store (hexStr (paymentIdFor invoice)) := by
  obtain ⟨hRejects, hRefusal, error, hEq⟩ | ⟨invoice, amountMsat, hParsed, hValid, hAnswer⟩ :=
    sendPayment_cases node env bolt11 amountOverrideMsat
  · simp only [SendClean, hEq, hRefusal, hRejects, true_implies, reduceCtorEq, false_and, exists_false,
      noPhantom_rejected node live not_false, false_implies, implies_true, and_true]
    exact ⟨fun h invoice => h error rfl invoice, fun h _ _ invoice => h invoice⟩
  · have hOnly : ∀ other, env.parsers.bolt11 bolt11 = .ok other → other = invoice := by
      intro other hOther
      rw [hParsed] at hOther
      cases hOther
      rfl
    obtain ⟨hRefusal, hOk⟩ | ⟨e, hRefusal, hEq⟩ := hAnswer
    · simp [SendClean, hOk, hRefusal, hValid]
    · simp only [SendClean, hEq, hRefusal, hValid, false_implies, true_and]
      constructor
      · intro h other hOther e' hE
        cases hOnly other hOther
        cases hE
        exact (Bolt11PaymentError.noPhantom_iff node live e).mp (h _ rfl invoice hParsed)
      · intro h _ _ other hOther
        cases hOnly other hOther
        exact (Bolt11PaymentError.noPhantom_iff node live e).mpr (h invoice hParsed e rfl)

theorem payOffer_cases :
    ¬ env.DrawsId offerStr amountOverrideMsat ∨ ∃ amountMsat,
      (env.offerRefusal offerStr amountOverrideMsat payerNote = none ∧
        (node.payOffer env offerStr amountOverrideMsat payerNote).2 = .ok ()) ∨
      ∃ refusal, env.offerRefusal offerStr amountOverrideMsat payerNote = some refusal ∧
        node.payOffer env offerStr amountOverrideMsat payerNote =
          ((node.recordPendingOutbound (hexStr env.randomBytes) amountMsat env.nowMs).settleAttemptFailure
            (hexStr env.randomBytes) none (refusal.toSendError env.network), .error (refusal.toSendError env.network)) := by
  rw [SendEnv.DrawsId, SendEnv.offerRefusal, PaymentNode.payOffer]
  cases hRunning : env.running with
  | false => exact .inl (by simp)
  | true =>
    cases hValid : validateOffer env.parsers offerStr env.network env.now with
    | error error => exact .inl (by simp)
    | ok validated =>
      obtain ⟨offer, embeddedMsat⟩ := validated
      cases hAmount : resolveAmount embeddedMsat amountOverrideMsat with
      | error error =>
        refine .inl ?_
        rintro ⟨-, offer', embeddedMsat', amountMsat, hOk, hResolved⟩
        cases hOk
        rw [hAmount] at hResolved
        cases hResolved
      | ok amountMsat =>
        refine .inr ⟨amountMsat, ?_⟩
        cases hConnected : env.lspConnected with
        | error error => exact .inr ⟨.unconnected error, rfl, by simp [hAmount, OfferRefusal.toSendError]⟩
        | ok =>
          simp only [sendBolt12, hValid, hAmount]
          cases hPay : env.payOffer offer (ldkAmount embeddedMsat (some amountMsat)) env.randomBytes payerNote
            sendRetry with
          | ok => exact .inl ⟨rfl, rfl⟩
          | error e => exact .inr ⟨.refused e, rfl, rfl⟩

theorem OfferRefusal.noPhantom_iff (refusal : OfferRefusal) :
    NoPhantom node ((node.recordPendingOutbound id amountMsat nowMs).settleAttemptFailure id paymentHash
        (refusal.toSendError env.network)) live id paymentHash
        (∃ e, some refusal = some (.refused e) ∧ e ≠ .duplicatePaymentId) ↔
      refusal.Settles live node.store id := by
  cases refusal with
  | unconnected error =>
    rw [toSendError, noPhantom_settled node live rfl]
    simp [Settles]
  | refused error =>
    cases error with
    | duplicatePaymentId =>
      rw [toSendError, mapOfferError, noPhantom_unsettled node live rfl]
      simp [Settles]
    | other debug =>
      rw [toSendError, mapOfferError, noPhantom_settled node live rfl]
      simpa [Settles] using RowFails.unpending
    | alreadyExpired =>
      rw [toSendError, mapOfferError, noPhantom_unsettled node live rfl]
      simp [Settles]
    | unsupportedChain =>
      rw [toSendError, mapOfferError, noPhantom_unsettled node live rfl]
      simp [Settles]
    | missingAmount =>
      rw [toSendError, mapOfferError, noPhantom_unsettled node live rfl]
      simp [Settles]

theorem offerClean_iff :
    OfferClean node env live offerStr amountOverrideMsat payerNote ↔ (env.DrawsId offerStr amountOverrideMsat →
      ∀ refusal, env.offerRefusal offerStr amountOverrideMsat payerNote = some refusal →
        refusal.Settles live node.store (hexStr env.randomBytes)) := by
  obtain hUndrawn | ⟨amountMsat, ⟨hRefusal, hOk⟩ | ⟨refusal, hRefusal, hEq⟩⟩ :=
    payOffer_cases node env offerStr amountOverrideMsat payerNote
  · simp [OfferClean, hUndrawn]
  · simp [OfferClean, hOk, hRefusal]
  · simp only [OfferClean, hEq, hRefusal, Option.some.injEq, forall_eq']
    constructor
    · intro h hDraws
      exact (OfferRefusal.noPhantom_iff node env live refusal).mp (by simpa using h _ rfl hDraws)
    · intro h _ _ hDraws
      simpa using (OfferRefusal.noPhantom_iff node env live refusal).mpr (h hDraws)

/-- For every store, request, clock and answer of LDK: an error of either call leaves no phantom exactly when
the row was not left pending before, LDK's refusal is one that is settled, and the writes it takes succeed. -/
theorem noPhantom_iff_settles :
    (SendClean node env live bolt11 amountOverrideMsat ↔ ∀ invoice, env.parsers.bolt11 bolt11 = .ok invoice →
      (env.Rejects bolt11 amountOverrideMsat →
        node.store.statusAt (hexStr (paymentIdFor invoice)) = some .pending →
          live (hexStr (paymentIdFor invoice)) = true) ∧
      ∀ e, env.refusal bolt11 amountOverrideMsat = some e →
        e.Settles live node.store (hexStr (paymentIdFor invoice))) ∧
    (OfferClean node env live offerStr amountOverrideMsat payerNote ↔ (env.DrawsId offerStr amountOverrideMsat →
      ∀ refusal, env.offerRefusal offerStr amountOverrideMsat payerNote = some refusal →
        refusal.Settles live node.store (hexStr env.randomBytes))) :=
  ⟨sendClean_iff node env live bolt11 amountOverrideMsat, offerClean_iff node env live offerStr amountOverrideMsat payerNote⟩

end

/-- An invoice of the node's network that is still valid when the call looks. -/
def demoInvoice : Bolt11Invoice := ⟨[0xab], .bitcoin, some 1000, 100⟩

def demoEnv (answer : Except Bolt11PaymentError Unit) : SendEnv where
  parsers := ⟨fun _ => .ok demoInvoice, fun _ => .error "no offer"⟩
  network := .bitcoin
  running := true
  now := 100
  nowMs := 100000
  pay _ _ _ _ := answer
  payOffer _ _ _ _ _ := .ok ()
  lspConnected := .ok ()
  randomBytes := []

def emptyNode : PaymentNode := ⟨.new ⟨∅, fun _ => none, 0⟩, []⟩

/-- The invoice expires between the call's own check and LDK's: the row stays pending and nothing is reported. -/
theorem expired_in_flight_phantom :
    ¬ SendClean emptyNode (demoEnv (.error (.sendingFailed .paymentExpired))) (fun _ => false) "lnbc" none := by
  intro h
  have hClean := h .invoiceExpired (by decide +kernel) demoInvoice rfl
  exact absurd (hClean.pending (by decide +kernel)) (by decide)

end WalletCore.Payments
