import WalletCore.History.Activity
import WalletCore.Lib.Transition
import WalletCore.Payments.Handlers

/-! # Payment outcomes

Rows are kept per invoice, attempts are not: a send writes its row, hands the payment to LDK and
settles a synchronous failure in three steps, LDK reports the outcomes of the attempts it accepted
through a queue that may replay, and calls, outcomes and deliveries interleave freely.
-/

namespace WalletCore.Payments

open Lib History Events Restore

/-! ## The parties -/

/-- An attempt LDK accepted; a finished one names the event that reports it. -/
inductive AttemptState where
  | inFlight
  | sent (event : Nat)
  | failed (event : Nat)
deriving DecidableEq

structure Attempt where
  paymentHash : List UInt8
  state : AttemptState
deriving DecidableEq

inductive OutcomeEvent where
  | paymentSent (paymentId : Option (List UInt8)) (paymentHash : List UInt8) (feePaidMsat : Option UInt64)
  | paymentFailed (paymentId : List UInt8) (paymentHash : Option (List UInt8)) (reason : Option PaymentFailureReason)
deriving DecidableEq

/-- Where a call of `sendPayment` stands: its row is written, LDK has refused, or it has returned. -/
inductive SendStage where
  | recorded
  | refused (error : SendError)
  | returned
deriving DecidableEq

structure SendCall where
  paymentHash : List UInt8
  stage : SendStage
deriving DecidableEq

structure Outcomes where
  node : PaymentNode
  calls : List SendCall
  attempts : List Attempt
  /-- The events LDK has queued, and the next to be handled. -/
  issued : List OutcomeEvent
  cursor : Nat
  /-- How many of them were handled at least once. -/
  seen : Nat

def Outcomes.start (kvStore : PaymentFiles) : Outcomes := ⟨⟨.new kvStore, []⟩, [], [], [], 0, 0⟩

inductive OutcomeOp where
  | begin (env : SendEnv) (bolt11 : String) (amountOverrideMsat : Option UInt64)
  | answer (call : Nat) (result : Except Bolt11PaymentError Unit)
  | finish (call : Nat)
  | succeed (attempt : Nat) (withId : Bool) (feePaidMsat : Option UInt64)
  | fail (attempt : Nat) (withHash : Bool) (reason : Option PaymentFailureReason)
  | deliver
  | restart (cursor : Nat)

/-- LDK refuses a second attempt while one is in flight. -/
def Outcomes.Busy (s : Outcomes) (paymentHash : List UInt8) : Prop :=
  ∃ attempt ∈ s.attempts, attempt.paymentHash = paymentHash ∧ attempt.state = .inFlight

instance (s : Outcomes) (paymentHash : List UInt8) : Decidable (s.Busy paymentHash) :=
  inferInstanceAs (Decidable (∃ attempt ∈ s.attempts, _ ∧ _))

def OutcomeEvent.handle (node : PaymentNode) : OutcomeEvent → PaymentNode × Except ReplayEvent Unit
  | .paymentSent paymentId paymentHash feePaidMsat => node.settlePaymentSent paymentId paymentHash feePaidMsat
  | .paymentFailed paymentId paymentHash reason => node.settlePaymentFailed paymentId paymentHash reason

def Outcomes.setStage (s : Outcomes) (call : Nat) (paymentHash : List UInt8) (stage : SendStage) : Outcomes :=
  { s with calls := s.calls.set call ⟨paymentHash, stage⟩ }

def Outcomes.conclude (s : Outcomes) (attempt : Nat) (paymentHash : List UInt8) (state : AttemptState)
    (event : OutcomeEvent) : Outcomes :=
  { s with attempts := s.attempts.set attempt ⟨paymentHash, state⟩, issued := s.issued ++ [event] }

def Outcomes.step (s : Outcomes) : OutcomeOp → Option Outcomes
  | .begin env bolt11 amountOverrideMsat =>
    if !env.running then some s
    else
      match parseAndValidate env.parsers bolt11 env.network env.now amountOverrideMsat with
      | .error _ => some s
      | .ok (invoice, amountMsat) =>
        some { s with
          node := s.node.recordPendingOutbound (hexStr (paymentIdFor invoice)) amountMsat env.nowMs
          calls := s.calls ++ [⟨invoice.paymentHash, .recorded⟩] }
  | .answer call result =>
    match s.calls[call]? with
    | some ⟨paymentHash, .recorded⟩ =>
      match result with
      | .ok () =>
        if s.Busy paymentHash then none
        else
          some { s.setStage call paymentHash .returned with
            attempts := s.attempts ++ [⟨paymentHash, .inFlight⟩] }
      | .error e => some (s.setStage call paymentHash (.refused (mapPayError e)))
    | _ => none
  | .finish call =>
    match s.calls[call]? with
    | some ⟨paymentHash, .refused error⟩ =>
      some { s.setStage call paymentHash .returned with
        node := s.node.settleAttemptFailure (hexStr paymentHash) (some (hexStr paymentHash)) error }
    | _ => none
  | .succeed attempt withId feePaidMsat =>
    match s.attempts[attempt]? with
    | some ⟨paymentHash, .inFlight⟩ =>
      some (s.conclude attempt paymentHash (.sent s.issued.length)
        (.paymentSent (if withId then some paymentHash else none) paymentHash feePaidMsat))
    | _ => none
  | .fail attempt withHash reason =>
    match s.attempts[attempt]? with
    | some ⟨paymentHash, .inFlight⟩ =>
      some (s.conclude attempt paymentHash (.failed s.issued.length)
        (.paymentFailed paymentHash (if withHash then some paymentHash else none) reason))
    | _ => none
  | .deliver =>
    match s.issued[s.cursor]? with
    | some event =>
      match event.handle s.node with
      | (node, .ok ()) => some { s with node := node, cursor := s.cursor + 1, seen := max s.seen (s.cursor + 1) }
      | (node, .error _) => some { s with node := node }
    | none => none
  | .restart cursor =>
    if cursor ≤ s.cursor then
      some { s with node.store := .new s.node.store.kvStore, calls := [], cursor := cursor }
    else none

/-- A call of `sendPayment` on its own is its steps in a row. -/
theorem steps_sendPayment (s : Outcomes) (env : SendEnv) (bolt11 : String) (amountOverrideMsat : Option UInt64)
    {e : Bolt11PaymentError} (hRefusal : env.refusal bolt11 amountOverrideMsat = some e) :
    (exec Outcomes.step s [.begin env bolt11 amountOverrideMsat, .answer s.calls.length (.error e),
      .finish s.calls.length]).map Outcomes.node = some (s.node.sendPayment env bolt11 amountOverrideMsat).1 := by
  rw [SendEnv.refusal] at hRefusal
  rw [PaymentNode.sendPayment]
  cases hRunning : env.running with
  | false => simp [hRunning] at hRefusal
  | true =>
    simp only [hRunning, Bool.not_true, Bool.false_eq_true, if_false] at hRefusal ⊢
    cases hValid : parseAndValidate env.parsers bolt11 env.network env.now amountOverrideMsat with
    | error error => simp [hValid] at hRefusal
    | ok validated =>
      obtain ⟨invoice, amountMsat⟩ := validated
      cases hPay : env.pay invoice (paymentIdFor invoice)
        (ldkAmount invoice.amountMilliSatoshis amountOverrideMsat) sendRetry with
      | ok => simp [hValid, hPay] at hRefusal
      | error e' =>
        simp only [hValid, hPay, Option.some.injEq] at hRefusal
        subst hRefusal
        have hStage : ∀ first second : SendCall,
            ((s.calls ++ [first]).set s.calls.length second)[s.calls.length]? = some second := fun first second =>
          List.getElem?_set_self (by simp)
        simp only [exec, Outcomes.step, Outcomes.setStage, hRunning, hValid, sendBolt11, hPay, Bool.not_true,
          Bool.false_eq_true, if_false, Option.bind_some, List.getElem?_concat_length, hStage, Option.map_some]
        rfl

/-! ## Who owns a row -/

/-- In flight, or succeeded and not reported yet. -/
def AttemptState.isUnsettled (seen : Nat) : AttemptState → Bool
  | .inFlight => true
  | .sent event => seen ≤ event
  | .failed _ => false

/-- Some attempt still has a claim on the row: a send that has written it and not heard from LDK, or a payment that
is not settled. -/
def Outcomes.Owed (s : Outcomes) (id : String) : Prop :=
  (∃ call ∈ s.calls, hexStr call.paymentHash = id ∧ call.stage = .recorded) ∨
    ∃ attempt ∈ s.attempts, hexStr attempt.paymentHash = id ∧ attempt.state.isUnsettled s.seen = true

instance (s : Outcomes) (id : String) : Decidable (s.Owed id) := inferInstanceAs (Decidable (_ ∨ _))

/-- The row that a step settles as failed. -/
def Outcomes.failsRow (s : Outcomes) : OutcomeOp → Option String
  | .finish call =>
    match s.calls[call]? with
    | some ⟨paymentHash, .refused error⟩ => if error.isAttemptFailure then some (hexStr paymentHash) else none
    | _ => none
  | .deliver =>
    match s.issued[s.cursor]? with
    | some (.paymentFailed paymentId _ _) => some (hexStr paymentId)
    | _ => none
  | _ => none

/-- A failure settles a row only when no other attempt has a claim on it. -/
def Undisputed (s : Outcomes) (op : OutcomeOp) : Prop := ∀ id ∈ s.failsRow op, ¬ s.Owed id

instance (s : Outcomes) (op : OutcomeOp) : Decidable (Undisputed s op) :=
  inferInstanceAs (Decidable (∀ id ∈ s.failsRow op, ¬ s.Owed id))

/-! ## Rows when every write succeeds -/

/-- The store mirrors its files and no write fails. -/
structure Writable (store : PaymentStore) : Prop where
  inv : store.Inv
  writes : ∀ n, store.kvStore.failure n = none

section

variable {store : PaymentStore}

theorem kvStore_recordPending (store : PaymentStore) (id : String) (amountMsat nowMs : UInt64) :
    (store.recordPending id .outbound amountMsat nowMs).1.kvStore.failure = store.kvStore.failure := by
  rw [recordPending_eq]
  split
  · rfl
  · exact (kvStore_storeRow store id _).1

theorem kvStore_settle (store : PaymentStore) (id : String) (status : PaymentStatus) (feePaidMsat : Option UInt64)
    (failureReason : Option String) :
    (store.settle id status feePaidMsat failureReason).1.kvStore.failure = store.kvStore.failure := by
  obtain hSkip | ⟨existing, -, -, hEq⟩ := store.settle_cases id status feePaidMsat failureReason
  · rw [hSkip]
  · rw [hEq]
    exact (kvStore_storeRow store id _).1

theorem Writable.recordPending (h : Writable store) (id : String) (amountMsat nowMs : UInt64) :
    Writable (store.recordPending id .outbound amountMsat nowMs).1 ∧
      ∀ other, (store.recordPending id .outbound amountMsat nowMs).1.statusAt other =
        if other = id ∧ store.statusAt id ≠ some .pending ∧ store.statusAt id ≠ some .succeeded then some .pending
        else store.statusAt other := by
  have hWrite := PaymentStore.recordPending_rowWrite store id .outbound amountMsat nowMs
  refine ⟨⟨hWrite.inv h.inv, by rw [kvStore_recordPending]; exact h.writes⟩, ?_⟩
  intro other
  by_cases hOther : other = id
  · subst hOther
    rw [recordPending_eq]
    split
    · rename_i hSkip
      rw [if_neg (by tauto)]
    · rename_i hArms
      rw [statusAt_storeRow, if_pos (h.writes _), if_pos (by tauto)]
      rfl
  · rw [if_neg (by tauto), PaymentStore.statusAt, (hWrite.other hOther).1, PaymentStore.statusAt]

theorem Writable.settle (h : Writable store) (id : String) (status : PaymentStatus) (feePaidMsat : Option UInt64)
    (failureReason : Option String) :
    (store.settle id status feePaidMsat failureReason).2 = .ok () ∧
      Writable (store.settle id status feePaidMsat failureReason).1 ∧
      ∀ other, (store.settle id status feePaidMsat failureReason).1.statusAt other =
        if other = id ∧ store.statusAt id = some .pending then some status else store.statusAt other := by
  have hWrite := PaymentStore.settle_rowWrite h.inv id status feePaidMsat failureReason
  refine ⟨?_, ⟨hWrite.inv h.inv, by rw [kvStore_settle]; exact h.writes⟩, ?_⟩
  · obtain hSkip | ⟨existing, -, -, hEq⟩ := store.settle_cases id status feePaidMsat failureReason
    · rw [hSkip]
    · rw [hEq, PaymentStore.storeRow, PaymentStore.persistRow, h.writes]
  · intro other
    by_cases hOther : other = id
    · subst hOther
      rw [settle_eq]
      simp [h.writes]
    · rw [if_neg (by tauto), PaymentStore.statusAt, (hWrite.other hOther).1, PaymentStore.statusAt]

theorem Writable.recordPending_succeeded (h : Writable store) {id other : String} {amountMsat nowMs : UInt64}
    (hPaid : store.statusAt other = some .succeeded) :
    (store.recordPending id .outbound amountMsat nowMs).1.statusAt other = some .succeeded := by
  rw [(h.recordPending id amountMsat nowMs).2, if_neg, hPaid]
  rintro ⟨rfl, -, hNot⟩
  exact hNot hPaid

theorem Writable.settle_succeeded (h : Writable store) {id other : String} {status : PaymentStatus}
    {feePaidMsat : Option UInt64} {failureReason : Option String} (hPaid : store.statusAt other = some .succeeded) :
    (store.settle id status feePaidMsat failureReason).1.statusAt other = some .succeeded := by
  rw [(h.settle id status feePaidMsat failureReason).2.2, if_neg, hPaid]
  rintro ⟨rfl, hPending⟩
  cases hPaid.symm.trans hPending

end

theorem settlePaymentSent_ok {node : PaymentNode} (h : Writable node.store) (paymentId : Option (List UInt8))
    (paymentHash : List UInt8) (feePaidMsat : Option UInt64) :
    node.settlePaymentSent paymentId paymentHash feePaidMsat =
      (⟨(node.store.settle (sentRowKey paymentId paymentHash) .succeeded feePaidMsat none).1,
        node.emitted ++ [.paymentSuccessful (hexStr paymentHash) feePaidMsat]⟩, .ok ()) := by
  have hOk := (h.settle (sentRowKey paymentId paymentHash) .succeeded feePaidMsat none).1
  rw [PaymentNode.settlePaymentSent]
  split <;> simp_all [PaymentNode.emit]

theorem settlePaymentFailed_ok {node : PaymentNode} (h : Writable node.store) (paymentId : List UInt8)
    (paymentHash : Option (List UInt8)) (reason : Option PaymentFailureReason) :
    node.settlePaymentFailed paymentId paymentHash reason =
      (⟨(node.store.settle (hexStr paymentId) .failed none (some (describeFailureReason reason))).1,
        node.emitted ++ [.paymentFailed (paymentHash.map hexStr) (describeFailureReason reason)]⟩, .ok ()) := by
  have hOk := (h.settle (hexStr paymentId) .failed none (some (describeFailureReason reason))).1
  rw [PaymentNode.settlePaymentFailed]
  split <;> simp_all [PaymentNode.emit]

/-! ## What undisputed steps keep -/

/-- A row that may still be reported paid. -/
def Open (store : PaymentStore) (id : String) : Prop :=
  store.statusAt id = some .pending ∨ store.statusAt id = some .succeeded

namespace Outcomes

structure Inv (s : Outcomes) : Prop where
  writable : Writable s.node.store
  cursor_le : s.cursor ≤ s.seen
  seen_le : s.seen ≤ s.issued.length
  owed : ∀ id, s.Owed id → Open s.node.store id
  paid : ∀ attempt ∈ s.attempts, ∀ event, attempt.state = .sent event → event < s.seen →
    s.node.store.statusAt (hexStr attempt.paymentHash) = some .succeeded
  reports : ∀ attempt ∈ s.attempts, ∀ event, attempt.state = .sent event →
    ∃ paymentId feePaidMsat, s.issued[event]? = some (.paymentSent paymentId attempt.paymentHash feePaidMsat)
  reported : ∀ event paymentId paymentHash feePaidMsat,
    s.issued[event]? = some (.paymentSent paymentId paymentHash feePaidMsat) →
      sentRowKey paymentId paymentHash = hexStr paymentHash ∧
        ∃ attempt ∈ s.attempts, attempt.paymentHash = paymentHash ∧ attempt.state = .sent event
  emitted : ∀ paymentHash feePaidMsat, .paymentSuccessful paymentHash feePaidMsat ∈ s.node.emitted →
    s.node.store.statusAt paymentHash = some .succeeded

theorem start_inv {kvStore : PaymentFiles} (hWrites : ∀ n, kvStore.failure n = none)
    (hOwn : ∀ id row, (loadRows kvStore.files).lookup id = some row → row.paymentHash = id) :
    (start kvStore).Inv := by
  constructor <;> simp [start, Owed]
  exact ⟨PaymentStore.new_inv hOwn, hWrites⟩

variable {s t : Outcomes}

theorem Inv.frame (h : s.Inv) (hIssued : t.issued = s.issued) (hSeen : t.seen = s.seen) (hCursor : t.cursor ≤ s.cursor)
    (hSent : ∀ attempt event, attempt.state = .sent event → (attempt ∈ t.attempts ↔ attempt ∈ s.attempts))
    (hWritable : Writable t.node.store)
    (hPaid : ∀ id, s.node.store.statusAt id = some .succeeded → t.node.store.statusAt id = some .succeeded)
    (hOwed : ∀ id, t.Owed id → Open t.node.store id)
    (hEmitted : ∀ paymentHash feePaidMsat, .paymentSuccessful paymentHash feePaidMsat ∈ t.node.emitted →
      .paymentSuccessful paymentHash feePaidMsat ∈ s.node.emitted) : t.Inv where
  writable := hWritable
  cursor_le := by
    rw [hSeen]
    exact hCursor.trans h.cursor_le
  seen_le := by
    rw [hSeen, hIssued]
    exact h.seen_le
  owed := hOwed
  paid attempt hAttempt event hState hEvent :=
    hPaid _ (h.paid attempt ((hSent attempt event hState).mp hAttempt) event hState (by rwa [hSeen] at hEvent))
  reports attempt hAttempt event hState := by
    rw [hIssued]
    exact h.reports attempt ((hSent attempt event hState).mp hAttempt) event hState
  reported event paymentId paymentHash feePaidMsat hEvent := by
    rw [hIssued] at hEvent
    obtain ⟨hKey, attempt, hAttempt, hHash, hState⟩ := h.reported event paymentId paymentHash feePaidMsat hEvent
    exact ⟨hKey, attempt, (hSent attempt event hState).mpr hAttempt, hHash, hState⟩
  emitted paymentHash feePaidMsat hReport := hPaid _ (h.emitted paymentHash feePaidMsat (hEmitted _ _ hReport))

theorem Inv.begin (h : s.Inv) (env : SendEnv) (bolt11 : String) (amountOverrideMsat : Option UInt64)
    (hStep : s.step (.begin env bolt11 amountOverrideMsat) = some t) : t.Inv := by
  rw [step] at hStep
  split at hStep
  · cases hStep
    exact h
  split at hStep
  · cases hStep
    exact h
  · rename_i invoice amountMsat hValid
    cases hStep
    obtain ⟨hWritable, hStatus⟩ := h.writable.recordPending (hexStr (paymentIdFor invoice)) amountMsat env.nowMs
    refine h.frame rfl rfl le_rfl (fun _ _ _ => Iff.rfl) hWritable
      (fun id hPaid => h.writable.recordPending_succeeded hPaid) ?_ (fun _ _ hReport => hReport)
    intro id hOwed
    have hOld : s.Owed id ∨ id = hexStr (paymentIdFor invoice) := by
      obtain ⟨call, hCall, hId, hStage⟩ | hAttempt := hOwed
      · obtain hCall | hCall := List.mem_append.mp hCall
        · exact .inl (.inl ⟨call, hCall, hId, hStage⟩)
        · cases List.mem_singleton.mp hCall
          exact .inr hId.symm
      · exact .inl (.inr hAttempt)
    simp only [Open, PaymentNode.recordPendingOutbound, hStatus]
    split
    · exact .inl rfl
    · rename_i hKept
      obtain hOwed | rfl := hOld
      · exact h.owed id hOwed
      · -- The row was there already.
        simpa [or_iff_not_imp_left] using hKept

theorem mem_set_stage {calls : List SendCall} {call : Nat} {new found : SendCall} (hFound : found ∈ calls.set call new)
    (hStage : found.stage = .recorded) (hNew : new.stage ≠ .recorded) : found ∈ calls := by
  obtain hOld | rfl := List.mem_or_eq_of_mem_set hFound
  · exact hOld
  · exact absurd hStage hNew

theorem Owed.of_set {id : String} {call : Nat} {new : SendCall} (hOwed : t.Owed id)
    (hCalls : t.calls = s.calls.set call new) (hNew : new.stage ≠ .recorded) (hAttempts : t.attempts = s.attempts)
    (hSeen : t.seen = s.seen) : s.Owed id := by
  obtain ⟨found, hFound, hId, hRecorded⟩ | hAttempt := hOwed
  · rw [hCalls] at hFound
    exact .inl ⟨found, mem_set_stage hFound hRecorded hNew, hId, hRecorded⟩
  · rw [hAttempts, hSeen] at hAttempt
    exact .inr hAttempt

theorem Inv.answer (h : s.Inv) {call : Nat} {result : Except Bolt11PaymentError Unit}
    (hStep : s.step (.answer call result) = some t) : t.Inv := by
  rw [step] at hStep
  split at hStep
  · rename_i paymentHash hCall
    have hRow : s.Owed (hexStr paymentHash) := .inl ⟨_, List.mem_of_getElem? hCall, rfl, rfl⟩
    split at hStep
    · split at hStep
      · cases hStep
      · cases hStep
        refine h.frame rfl rfl le_rfl ?_ h.writable (fun _ hPaid => hPaid) ?_ (fun _ _ hReport => hReport)
        · intro attempt event hState
          simp only [List.mem_append, List.mem_singleton]
          refine ⟨?_, .inl⟩
          rintro (hOld | rfl)
          · exact hOld
          · cases hState
        · rintro id (⟨found, hFound, hId, hRecorded⟩ | ⟨attempt, hAttempt, hId, hState⟩)
          · exact h.owed id (.inl ⟨found, mem_set_stage hFound hRecorded nofun, hId, hRecorded⟩)
          · obtain hOld | hNew := List.mem_append.mp hAttempt
            · exact h.owed id (.inr ⟨attempt, hOld, hId, hState⟩)
            · cases List.mem_singleton.mp hNew
              rw [← hId]
              exact h.owed _ hRow
    · cases hStep
      exact h.frame rfl rfl le_rfl (fun _ _ _ => Iff.rfl) h.writable (fun _ hPaid => hPaid)
        (fun id hOwed => h.owed id (hOwed.of_set rfl (by simp) rfl rfl)) (fun _ _ hReport => hReport)
  · cases hStep

theorem Inv.finish (h : s.Inv) {call : Nat} (hUndisputed : Undisputed s (.finish call))
    (hStep : s.step (.finish call) = some t) : t.Inv := by
  rw [step] at hStep
  split at hStep
  · rename_i paymentHash error hCall
    cases hStep
    rw [PaymentNode.settleAttemptFailure]
    cases hFailure : error.isAttemptFailure with
    | false =>
      exact h.frame rfl rfl le_rfl (fun _ _ _ => Iff.rfl) h.writable (fun _ hPaid => hPaid)
        (fun id hOwed => h.owed id (hOwed.of_set rfl (by simp) rfl rfl)) (fun _ _ hReport => hReport)
    | true =>
      have hFree := hUndisputed (hexStr paymentHash) (by simp [failsRow, hCall, hFailure])
      obtain ⟨-, hWritable, hStatus⟩ := h.writable.settle (hexStr paymentHash) .failed none (some error.display)
      refine h.frame rfl rfl le_rfl (fun _ _ _ => Iff.rfl) hWritable
        (fun id hPaid => h.writable.settle_succeeded hPaid) ?_ ?_
      · intro id hOwed
        have hOld : s.Owed id := hOwed.of_set rfl (by simp) rfl rfl
        have hOther : id ≠ hexStr paymentHash := by
          rintro rfl
          exact hFree hOld
        have hOpen := h.owed id hOld
        simpa [Open, PaymentNode.emit, hStatus, hOther] using hOpen
      · intro paymentHash' feePaidMsat hReport
        simpa [PaymentNode.emit] using hReport
  · cases hStep

theorem Inv.conclude (h : s.Inv) {i : Nat} {paymentHash : List UInt8} {state : AttemptState} {event : OutcomeEvent}
    (hAttempt : s.attempts[i]? = some ⟨paymentHash, .inFlight⟩)
    (hState : ∀ n, state = .sent n → n = s.issued.length ∧
      ∃ paymentId feePaidMsat, event = .paymentSent paymentId paymentHash feePaidMsat)
    (hEvent : ∀ paymentId hash feePaidMsat, event = .paymentSent paymentId hash feePaidMsat →
      sentRowKey paymentId hash = hexStr hash ∧ hash = paymentHash ∧ state = .sent s.issued.length) :
    (s.conclude i paymentHash state event).Inv := by
  have hFlight : ∀ attempt ∈ s.attempts.set i ⟨paymentHash, state⟩,
      attempt ∈ s.attempts ∨ attempt = ⟨paymentHash, state⟩ := fun attempt hMem => List.mem_or_eq_of_mem_set hMem
  have hKeeps : ∀ attempt ∈ s.attempts, ∀ n, attempt.state = .sent n →
      attempt ∈ s.attempts.set i ⟨paymentHash, state⟩ := by
    intro attempt hMem n hSent
    obtain ⟨j, hj⟩ := List.mem_iff_getElem?.mp hMem
    have hOther : i ≠ j := by
      rintro rfl
      rw [hAttempt] at hj
      cases hj
      cases hSent
    exact List.mem_iff_getElem?.mpr ⟨j, by rw [List.getElem?_set_ne hOther]; exact hj⟩
  have hOld : ∀ n < s.issued.length, (s.issued ++ [event])[n]? = s.issued[n]? := fun n hn =>
    List.getElem?_append_left hn
  constructor
  case writable => exact h.writable
  case cursor_le => exact h.cursor_le
  case seen_le =>
    have hSeen := h.seen_le
    simp only [Outcomes.conclude, List.length_append, List.length_singleton]
    omega
  case owed =>
    rintro id (hCall | ⟨attempt, hMem, hId, hOpen⟩)
    · exact h.owed id (.inl hCall)
    · obtain hMem | rfl := hFlight attempt hMem
      · exact h.owed id (.inr ⟨attempt, hMem, hId, hOpen⟩)
      · exact h.owed id (.inr ⟨_, List.mem_of_getElem? hAttempt, hId, rfl⟩)
  case paid =>
    intro attempt hMem n hSent hSeen
    obtain hMem | rfl := hFlight attempt hMem
    · exact h.paid attempt hMem n hSent hSeen
    · have hLast := (hState n hSent).1
      have hLe := h.seen_le
      simp only [Outcomes.conclude] at hSeen
      omega
  case reports =>
    intro attempt hMem n hSent
    obtain hMem | rfl := hFlight attempt hMem
    · obtain ⟨paymentId, feePaidMsat, hIssued⟩ := h.reports attempt hMem n hSent
      refine ⟨paymentId, feePaidMsat, ?_⟩
      rw [Outcomes.conclude, hOld n (List.getElem?_eq_some_iff.mp hIssued).1]
      exact hIssued
    · obtain ⟨rfl, paymentId, feePaidMsat, rfl⟩ := hState n hSent
      exact ⟨paymentId, feePaidMsat, by simp [Outcomes.conclude]⟩
  case reported =>
    intro n paymentId hash feePaidMsat hIssued
    by_cases hn : n < s.issued.length
    · rw [Outcomes.conclude, hOld n hn] at hIssued
      obtain ⟨hKey, attempt, hMem, hHash, hSent⟩ := h.reported n paymentId hash feePaidMsat hIssued
      exact ⟨hKey, attempt, hKeeps attempt hMem n hSent, hHash, hSent⟩
    · obtain ⟨hLt, hGet⟩ := List.getElem?_eq_some_iff.mp hIssued
      simp only [Outcomes.conclude, List.length_append, List.length_singleton] at hLt
      obtain rfl : n = s.issued.length := by omega
      have hThis : event = .paymentSent paymentId hash feePaidMsat := by simpa [Outcomes.conclude] using hIssued
      obtain ⟨hKey, rfl, hSent⟩ := hEvent paymentId hash feePaidMsat hThis
      refine ⟨hKey, ⟨hash, state⟩, ?_, rfl, hSent⟩
      exact List.mem_iff_getElem?.mpr ⟨i, by simp [Outcomes.conclude, (List.getElem?_eq_some_iff.mp hAttempt).1]⟩
  case emitted => exact h.emitted

theorem Inv.succeed (h : s.Inv) {attempt : Nat} {withId : Bool} {feePaidMsat : Option UInt64}
    (hStep : s.step (.succeed attempt withId feePaidMsat) = some t) : t.Inv := by
  rw [step] at hStep
  split at hStep
  · rename_i paymentHash hAttempt
    cases hStep
    refine h.conclude hAttempt ?_ ?_
    · rintro _ ⟨⟩
      exact ⟨rfl, _, _, rfl⟩
    · rintro _ _ _ ⟨⟩
      refine ⟨?_, rfl, rfl⟩
      cases withId <;> rfl
  · cases hStep

theorem Inv.fail (h : s.Inv) {attempt : Nat} {withHash : Bool} {reason : Option PaymentFailureReason}
    (hStep : s.step (.fail attempt withHash reason) = some t) : t.Inv := by
  rw [step] at hStep
  split at hStep
  · rename_i paymentHash hAttempt
    cases hStep
    exact h.conclude hAttempt nofun nofun
  · cases hStep

theorem Inv.restart (h : s.Inv) {cursor : Nat} (hStep : s.step (.restart cursor) = some t) : t.Inv := by
  rw [step] at hStep
  split at hStep
  · rename_i hCursor
    cases hStep
    rw [← h.writable.inv.eq_new]
    refine h.frame rfl rfl hCursor (fun _ _ _ => Iff.rfl) h.writable (fun _ hPaid => hPaid) ?_
      (fun _ _ hReport => hReport)
    rintro id (⟨call, hCall, -⟩ | hAttempt)
    · cases hCall
    · exact h.owed id (.inr hAttempt)
  · cases hStep

/-- The queue after its next event is handled. -/
def advance (s : Outcomes) (node : PaymentNode) : Outcomes :=
  { s with node := node, cursor := s.cursor + 1, seen := max s.seen (s.cursor + 1) }

theorem Owed.of_advance {node : PaymentNode} {id : String} (hOwed : (s.advance node).Owed id) : s.Owed id := by
  refine hOwed.imp_right ?_
  rintro ⟨attempt, hMem, hId, hUnsettled⟩
  refine ⟨attempt, hMem, hId, ?_⟩
  cases hState : attempt.state with
  | inFlight => rfl
  | sent event =>
    simp only [hState, AttemptState.isUnsettled, Outcomes.advance, sup_le_iff, decide_eq_true_eq] at hUnsettled ⊢
    exact hUnsettled.1
  | failed event => simp [hState, AttemptState.isUnsettled] at hUnsettled

/-- Handling an event: the rows of attempts it reports for the first time must be paid by then. -/
theorem Inv.advance (h : s.Inv) {node : PaymentNode} (hHere : s.cursor < s.issued.length)
    (hWritable : Writable node.store)
    (hPaid : ∀ id, s.node.store.statusAt id = some .succeeded → node.store.statusAt id = some .succeeded)
    (hOwed : ∀ id, s.Owed id → Open node.store id)
    (hReports : ∀ attempt ∈ s.attempts, attempt.state = .sent s.cursor →
      node.store.statusAt (hexStr attempt.paymentHash) = some .succeeded)
    (hEmitted : ∀ paymentHash feePaidMsat, .paymentSuccessful paymentHash feePaidMsat ∈ node.emitted →
      node.store.statusAt paymentHash = some .succeeded) : (s.advance node).Inv where
  writable := hWritable
  cursor_le := le_max_right _ _
  seen_le := max_le h.seen_le hHere
  owed id hId := hOwed id hId.of_advance
  paid attempt hAttempt event hSent hEvent := by
    have hCursor := h.cursor_le
    have hCases : event < s.seen ∨ event = s.cursor := by
      simp only [Outcomes.advance, lt_sup_iff] at hEvent
      omega
    obtain hOld | rfl := hCases
    · exact hPaid _ (h.paid attempt hAttempt event hSent hOld)
    · exact hReports attempt hAttempt hSent
  reports := h.reports
  reported := h.reported
  emitted := hEmitted

theorem Inv.deliver (h : s.Inv) (hUndisputed : Undisputed s .deliver) (hStep : s.step .deliver = some t) : t.Inv := by
  rw [step] at hStep
  cases hEvent : s.issued[s.cursor]? with
  | none =>
    rw [hEvent] at hStep
    cases hStep
  | some event =>
    have hHere := (List.getElem?_eq_some_iff.mp hEvent).1
    simp only [hEvent] at hStep
    cases event with
    | paymentSent paymentId paymentHash feePaidMsat =>
      rw [OutcomeEvent.handle, settlePaymentSent_ok h.writable] at hStep
      cases hStep
      obtain ⟨hKey, attempt, hAttempt, hHash, hSent⟩ := h.reported _ _ _ _ hEvent
      obtain ⟨-, hWritable, hStatus⟩ :=
        h.writable.settle (sentRowKey paymentId paymentHash) .succeeded feePaidMsat none
      -- Reported before, the row is paid; reported now, it is still open.
      have hOpen : Open s.node.store (hexStr paymentHash) := by
        obtain hSeen | hNew := lt_or_ge s.cursor s.seen
        · rw [← hHash]
          exact .inr (h.paid attempt hAttempt _ hSent hSeen)
        · exact h.owed _ (.inr ⟨attempt, hAttempt, by rw [hHash], by simpa [hSent, AttemptState.isUnsettled] using hNew⟩)
      have hNow : (s.node.store.settle (sentRowKey paymentId paymentHash) .succeeded feePaidMsat none).1.statusAt
          (hexStr paymentHash) = some .succeeded := by
        rw [hStatus, hKey]
        obtain hPending | hPaid := hOpen
        · rw [if_pos ⟨rfl, hPending⟩]
        · rw [hPaid]
          split <;> rfl
      refine h.advance hHere hWritable (fun id hPaid => h.writable.settle_succeeded hPaid) ?_ ?_ ?_
      · intro id hOwed
        simp only [Open, hStatus]
        split
        · exact .inr rfl
        · exact h.owed id hOwed
      · intro other hOther hSent'
        obtain ⟨paymentId', feePaidMsat', hEvent'⟩ := h.reports other hOther _ hSent'
        cases hEvent.symm.trans hEvent'
        exact hNow
      · intro reported fee hReport
        obtain hOld | hNew := List.mem_append.mp hReport
        · exact h.writable.settle_succeeded (h.emitted reported fee hOld)
        · cases List.mem_singleton.mp hNew
          exact hNow
    | paymentFailed paymentId paymentHash reason =>
      rw [OutcomeEvent.handle, settlePaymentFailed_ok h.writable] at hStep
      cases hStep
      have hFree := hUndisputed (hexStr paymentId) (by simp [failsRow, hEvent])
      obtain ⟨-, hWritable, hStatus⟩ :=
        h.writable.settle (hexStr paymentId) .failed none (some (describeFailureReason reason))
      refine h.advance hHere hWritable (fun id hPaid => h.writable.settle_succeeded hPaid) ?_ ?_ ?_
      · intro id hOwed
        have hOther : id ≠ hexStr paymentId := by
          rintro rfl
          exact hFree hOwed
        simp only [Open, hStatus, hOther, false_and, if_false]
        exact h.owed id hOwed
      · intro other hOther hSent'
        obtain ⟨paymentId', feePaidMsat', hEvent'⟩ := h.reports other hOther _ hSent'
        cases hEvent.symm.trans hEvent'
      · intro reported fee hReport
        obtain hOld | hNew := List.mem_append.mp hReport
        · exact h.writable.settle_succeeded (h.emitted reported fee hOld)
        · cases List.mem_singleton.mp hNew

theorem Inv.step {op : OutcomeOp} (h : s.Inv) (hUndisputed : Undisputed s op) (hStep : s.step op = some t) : t.Inv := by
  cases op with
  | begin env bolt11 amountOverrideMsat => exact h.begin env bolt11 amountOverrideMsat hStep
  | answer call result => exact h.answer hStep
  | finish call => exact h.finish hUndisputed hStep
  | succeed attempt withId feePaidMsat => exact h.succeed hStep
  | fail attempt withHash reason => exact h.fail hStep
  | deliver => exact h.deliver hUndisputed hStep
  | restart cursor => exact h.restart hStep

end Outcomes

/-- What a state owes the user: a success that was reported is recorded; so is every attempt that succeeded and whose
event was handled, and the feed shows it. -/
structure SuccessRecorded (s : Outcomes) : Prop where
  reported : ∀ paymentHash feePaidMsat, .paymentSuccessful paymentHash feePaidMsat ∈ s.node.emitted →
    s.node.store.statusAt paymentHash = some .succeeded
  delivered : ∀ attempt ∈ s.attempts, ∀ event, attempt.state = .sent event → event < s.seen →
    ∃ row, s.node.store.rows.lookup (hexStr attempt.paymentHash) = some row ∧ row.status = .succeeded ∧
      s.node.store.Shows (paymentRow row)

/-- In every run in which no failure settles a row that another attempt still has a claim on, reported successes
are recorded successes. -/
theorem undisputed_success_recorded (kvStore : PaymentFiles) (hWrites : ∀ n, kvStore.failure n = none)
    (hOwn : ∀ id row, (loadRows kvStore.files).lookup id = some row → row.paymentHash = id) {ops : List OutcomeOp}
    {s : Outcomes} (hUndisputed : Along Outcomes.step Undisputed (.start kvStore) ops)
    (hRun : exec Outcomes.step (.start kvStore) ops = some s) : SuccessRecorded s := by
  have hInv : s.Inv := exec_inv (fun _ _ _ h hGuard hStep => Outcomes.Inv.step h hGuard hStep)
    (Outcomes.start_inv hWrites hOwn) hUndisputed hRun
  refine ⟨hInv.emitted, ?_⟩
  intro attempt hAttempt event hSent hSeen
  have hStatus := hInv.paid attempt hAttempt event hSent hSeen
  obtain ⟨row, hRow, hPaid⟩ := Option.map_eq_some_iff.mp hStatus
  exact ⟨row, hRow, hPaid, PaymentStore.shows_of_lookup hRow (by rw [hPaid]; nofun)⟩

/-- A failed attempt whose event is handled before the invoice is sent again. -/
def retried : List OutcomeOp :=
  [.begin (demoEnv (.ok ())) "lnbc" none, .answer 0 (.ok ()), .fail 0 true (some .retriesExhausted), .deliver,
    .begin (demoEnv (.ok ())) "lnbc" none, .answer 1 (.ok ()), .succeed 1 true (some 3), .deliver, .restart 1, .deliver]

def noFiles : PaymentFiles := ⟨∅, fun _ => none, 0⟩

theorem loadRows_noFiles : loadRows noFiles.files = ∅ := by decide +kernel

/-- The retry ends with a paid row. -/
theorem retried_recorded : ∃ s, exec Outcomes.step (.start noFiles) retried = some s ∧ s.seen = 2 ∧ SuccessRecorded s := by
  have hRun : (exec Outcomes.step (.start noFiles) retried).isSome = true := by decide +kernel
  obtain ⟨s, hRun⟩ := Option.isSome_iff_exists.mp hRun
  have hSeen : (exec Outcomes.step (.start noFiles) retried).map Outcomes.seen = some 2 := by decide +kernel
  rw [hRun] at hSeen
  refine ⟨s, hRun, Option.some.inj hSeen, undisputed_success_recorded noFiles (fun _ => rfl) ?_ (by decide +kernel) hRun⟩
  intro id row hRow
  rw [loadRows_noFiles] at hRow
  cases hRow

/-- The first attempt's failure is still queued when the invoice is sent again: it settles the second attempt's row,
and the success that follows finds it failed. -/
theorem late_failure_hides_success : ∃ s, exec Outcomes.step (.start noFiles)
    [.begin (demoEnv (.ok ())) "lnbc" none, .answer 0 (.ok ()), .fail 0 true (some .retriesExhausted),
      .begin (demoEnv (.ok ())) "lnbc" none, .answer 1 (.ok ()), .deliver, .succeed 1 true (some 3), .deliver] = some s ∧
    ¬ SuccessRecorded s := by
  have hRun : ((exec Outcomes.step (.start noFiles)
    [.begin (demoEnv (.ok ())) "lnbc" none, .answer 0 (.ok ()), .fail 0 true (some .retriesExhausted),
      .begin (demoEnv (.ok ())) "lnbc" none, .answer 1 (.ok ()), .deliver, .succeed 1 true (some 3), .deliver]).map
      fun s => (decide (.paymentSuccessful "ab" (some 3) ∈ s.node.emitted), s.node.store.statusAt "ab")) =
      some (true, some .failed) := by decide +kernel
  obtain ⟨s, hRun, hEnd⟩ := Option.map_eq_some_iff.mp hRun
  refine ⟨s, hRun, fun h => ?_⟩
  simp only [Prod.mk.injEq, decide_eq_true_eq] at hEnd
  cases hEnd.2.symm.trans (h.reported "ab" (some 3) hEnd.1)

end WalletCore.Payments
