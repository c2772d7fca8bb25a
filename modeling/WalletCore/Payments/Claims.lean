import WalletCore.History.Activity
import WalletCore.Payments.Handlers

/-! # Received payments

Inbound claims and outbound attempts share the keys of the payment store, and a claim takes any
row under its hash for a claim it has seen. The sessions below are arbitrary sequences of sends,
outcomes, claims, reconciles and restarts over a file system whose writes may fail.
-/

namespace WalletCore.Payments

open Lib History Events Restore

structure Session where
  node : PaymentNode
  tracker : ClaimTracker

inductive PaymentOp where
  | sendPayment (env : SendEnv) (bolt11 : String) (amountOverrideMsat : Option UInt64)
  | payOffer (env : SendEnv) (offerStr : String) (amountOverrideMsat : Option UInt64) (payerNote : Option String)
  | paymentSent (paymentId : Option (List UInt8)) (paymentHash : List UInt8) (feePaidMsat : Option UInt64)
  | paymentFailed (paymentId : List UInt8) (paymentHash : Option (List UInt8)) (reason : Option PaymentFailureReason)
  | registerExpectedFee (paymentHash : List UInt8) (feeMsat : UInt64)
  | paymentClaimable (paymentHash : List UInt8) (skimmedFeeMsat : UInt64) (preimage : Option (List UInt8))
  | paymentClaimed (paymentHash : List UInt8) (amountMsat nowMs : UInt64)
  | reconcilePending (livePaymentIds : List String) (nowMs : UInt64) (iteration : IterationOrder)
  | restart

def PaymentOp.run (s : Session) : PaymentOp → Session
  | .sendPayment env bolt11 amountOverrideMsat =>
    { s with node := (s.node.sendPayment env bolt11 amountOverrideMsat).1 }
  | .payOffer env offerStr amountOverrideMsat payerNote =>
    { s with node := (s.node.payOffer env offerStr amountOverrideMsat payerNote).1 }
  | .paymentSent paymentId paymentHash feePaidMsat =>
    { s with node := (s.node.settlePaymentSent paymentId paymentHash feePaidMsat).1 }
  | .paymentFailed paymentId paymentHash reason =>
    { s with node := (s.node.settlePaymentFailed paymentId paymentHash reason).1 }
  | .registerExpectedFee paymentHash feeMsat => { s with tracker := s.tracker.registerExpectedFee paymentHash feeMsat }
  | .paymentClaimable paymentHash skimmedFeeMsat preimage =>
    { s with tracker := (s.tracker.decide paymentHash skimmedFeeMsat preimage).1 }
  | .paymentClaimed paymentHash amountMsat nowMs =>
    let claimed := s.node.recordPaymentClaimed s.tracker paymentHash amountMsat nowMs
    ⟨claimed.1, claimed.2.1⟩
  | .reconcilePending livePaymentIds nowMs iteration =>
    { s with node.store := (s.node.store.reconcilePending livePaymentIds nowMs iteration).1 }
  | .restart => ⟨{ s.node with store := .new s.node.store.kvStore }, .empty⟩

/-- A session over an empty file system, with any of its writes failing. -/
def Session.start (failure : Nat → Option String) : Session := ⟨⟨.new ⟨∅, failure, 0⟩, []⟩, .empty⟩

def Session.runs (s : Session) (ops : List PaymentOp) : Session := ops.foldl PaymentOp.run s

/-! ## Inbound rows are paid -/

/-- The store mirrors its files, and an inbound row is one that a claim wrote. -/
structure Paid (store : PaymentStore) : Prop where
  inv : store.Inv
  inbound : ∀ id row, store.rows.lookup id = some row → row.direction = .inbound → row.status = .succeeded

section

variable {store : PaymentStore} {id : String}

theorem Paid.storeRow (h : Paid store) {row : PersistedPayment} (hInv : (store.storeRow id row).1.Inv)
    (hId : row.paymentHash = id) (hRow : row.direction = .inbound → row.status = .succeeded) :
    Paid (store.storeRow id row).1 := by
  refine ⟨hInv, ?_⟩
  obtain ⟨kv, e, hEq, -⟩ | ⟨kv, hEq, -⟩ := store.storeRow_cases row hId
  · rw [hEq]
    exact h.inbound
  · rw [hEq]
    intro other found hFound hInbound
    rw [StringMap.lookup_insert_eq] at hFound
    split at hFound
    · cases hFound
      exact hRow hInbound
    · exact h.inbound other found hFound hInbound

theorem Paid.recordPending (h : Paid store) (id : String) (amountMsat nowMs : UInt64) :
    Paid (store.recordPending id .outbound amountMsat nowMs).1 := by
  have hInv := (PaymentStore.recordPending_rowWrite store id .outbound amountMsat nowMs).inv h.inv
  rw [recordPending_eq] at hInv ⊢
  split at hInv
  · rename_i hSkip
    rw [if_pos hSkip]
    exact h
  · rename_i hSkip
    rw [if_neg hSkip]
    exact h.storeRow hInv rfl nofun

theorem Paid.settle (h : Paid store) (id : String) (status : PaymentStatus) (feePaidMsat : Option UInt64)
    (failureReason : Option String) : Paid (store.settle id status feePaidMsat failureReason).1 := by
  have hInv := (PaymentStore.settle_rowWrite h.inv id status feePaidMsat failureReason).inv h.inv
  obtain hSkip | ⟨existing, hExisting, hPending, hEq⟩ := store.settle_cases id status feePaidMsat failureReason
  · rw [hSkip]
    exact h
  · rw [hEq] at hInv ⊢
    refine h.storeRow hInv (h.inv.keyed id existing hExisting) ?_
    -- A row that can be settled is outbound.
    intro hInbound
    cases hPending.symm.trans (h.inbound id existing hExisting hInbound)

theorem Paid.recordClaimed (h : Paid store) (id : String) (amountMsat nowMs : UInt64) :
    Paid (store.recordClaimed id amountMsat nowMs).1 := by
  have hInv := (PaymentStore.recordClaimed_rowWrite store id amountMsat nowMs).inv h.inv
  rw [PaymentStore.recordClaimed] at hInv ⊢
  split at hInv
  · rename_i hSkip
    rw [if_pos hSkip]
    exact h
  · rename_i hSkip
    rw [if_neg hSkip]
    exact h.storeRow hInv rfl fun _ => rfl

theorem Paid.reconcilePending (h : Paid store) (livePaymentIds : List String) (nowMs : UInt64)
    (iteration : IterationOrder) : Paid (store.reconcilePending livePaymentIds nowMs iteration).1 := by
  obtain ⟨hInv, hRows⟩ := PaymentStore.interrupt_rows (store.stale livePaymentIds nowMs iteration) h.inv
  refine ⟨hInv, ?_⟩
  intro id row hRow hInbound
  obtain hSame | ⟨-, old, hOld, hPending, hFailed⟩ := hRows id
  · exact h.inbound id row (hSame.symm.trans hRow) hInbound
  · cases hFailed.symm.trans hRow
    cases hPending.symm.trans (h.inbound id old hOld hInbound)

end

section

variable {node : PaymentNode}

theorem Paid.settleAttemptFailure (h : Paid node.store) (id : String) (paymentHash : Option String) (error : SendError) :
    Paid (node.settleAttemptFailure id paymentHash error).store := by
  rw [PaymentNode.settleAttemptFailure]
  split
  · exact h
  · exact h.settle _ _ _ _

theorem Paid.recordPendingOutbound (h : Paid node.store) (id : String) (amountMsat nowMs : UInt64) :
    Paid (node.recordPendingOutbound id amountMsat nowMs).store := h.recordPending id amountMsat nowMs

theorem Paid.sendPayment (h : Paid node.store) (env : SendEnv) (bolt11 : String) (amountOverrideMsat : Option UInt64) :
    Paid (node.sendPayment env bolt11 amountOverrideMsat).1.store := by
  rw [PaymentNode.sendPayment]
  split
  · exact h
  split
  · exact h
  · simp only
    split
    · exact h.recordPendingOutbound _ _ _
    · exact (h.recordPendingOutbound _ _ _).settleAttemptFailure _ _ _

theorem Paid.payOffer (h : Paid node.store) (env : SendEnv) (offerStr : String) (amountOverrideMsat : Option UInt64)
    (payerNote : Option String) : Paid (node.payOffer env offerStr amountOverrideMsat payerNote).1.store := by
  rw [PaymentNode.payOffer]
  split
  · exact h
  split
  · exact h
  split
  · exact h
  · simp only
    split
    · exact h.recordPendingOutbound _ _ _
    · exact (h.recordPendingOutbound _ _ _).settleAttemptFailure _ _ _

theorem store_settlePaymentSent (node : PaymentNode) (paymentId : Option (List UInt8)) (paymentHash : List UInt8)
    (feePaidMsat : Option UInt64) : (node.settlePaymentSent paymentId paymentHash feePaidMsat).1.store =
      (node.store.settle (sentRowKey paymentId paymentHash) .succeeded feePaidMsat none).1 := by
  rw [PaymentNode.settlePaymentSent]
  split <;> simp_all [PaymentNode.emit]

theorem store_settlePaymentFailed (node : PaymentNode) (paymentId : List UInt8) (paymentHash : Option (List UInt8))
    (reason : Option PaymentFailureReason) : (node.settlePaymentFailed paymentId paymentHash reason).1.store =
      (node.store.settle (hexStr paymentId) .failed none (some (describeFailureReason reason))).1 := by
  rw [PaymentNode.settlePaymentFailed]
  split <;> simp_all [PaymentNode.emit]

theorem store_recordPaymentClaimed (node : PaymentNode) (tracker : ClaimTracker) (paymentHash : List UInt8)
    (amountMsat nowMs : UInt64) : (node.recordPaymentClaimed tracker paymentHash amountMsat nowMs).1.store =
      (node.store.recordClaimed (hexStr paymentHash) amountMsat nowMs).1 := by
  rw [PaymentNode.recordPaymentClaimed]
  split <;> simp_all [PaymentNode.emit]

end

theorem Paid.run {s : Session} (h : Paid s.node.store) (op : PaymentOp) : Paid (op.run s).node.store := by
  cases op with
  | sendPayment env bolt11 amountOverrideMsat => exact h.sendPayment env bolt11 amountOverrideMsat
  | payOffer env offerStr amountOverrideMsat payerNote => exact h.payOffer env offerStr amountOverrideMsat payerNote
  | paymentSent paymentId paymentHash feePaidMsat =>
    rw [PaymentOp.run, store_settlePaymentSent]
    exact h.settle _ _ _ _
  | paymentFailed paymentId paymentHash reason =>
    rw [PaymentOp.run, store_settlePaymentFailed]
    exact h.settle _ _ _ _
  | registerExpectedFee paymentHash feeMsat => exact h
  | paymentClaimable paymentHash skimmedFeeMsat preimage => exact h
  | paymentClaimed paymentHash amountMsat nowMs =>
    simp only [PaymentOp.run, store_recordPaymentClaimed]
    exact h.recordClaimed _ _ _
  | reconcilePending livePaymentIds nowMs iteration => exact h.reconcilePending livePaymentIds nowMs iteration
  | restart =>
    rw [PaymentOp.run, ← h.inv.eq_new]
    exact h

theorem paid_start (failure : Nat → Option String) : Paid (Session.start failure).node.store := by
  have hEmpty : loadRows ∅ = ∅ := by decide +kernel
  constructor
  · exact ⟨rfl, fun id row hRow => by simp [Session.start, PaymentStore.new, hEmpty] at hRow⟩
  · intro id row hRow
    simp [Session.start, PaymentStore.new, hEmpty] at hRow

theorem Paid.runs {s : Session} (h : Paid s.node.store) (ops : List PaymentOp) : Paid (s.runs ops).node.store :=
  List.foldlRecOn ops PaymentOp.run (motive := fun s => Paid s.node.store) h fun _ hPaid op _ => hPaid.run op

/-! ## What a report promises -/

/-- The receipt is in the store, in its file and in the feed. -/
def Received (store : PaymentStore) (paymentHash : String) (amountMsat : UInt64) : Prop :=
  ∃ row, store.rows.lookup paymentHash = some row ∧ (store.kvStore.files.lookup paymentHash).bind decodeRow = some row ∧
    row.direction = .inbound ∧ row.status = .succeeded ∧ row.amountMsat = amountMsat ∧ store.Shows (paymentRow row)

/-- What the handling of a claim promises, from the session it happens in. -/
structure ClaimHonest (s : Session) (paymentHash : List UInt8) (amountMsat nowMs : UInt64) : Prop where
  reported : ∀ event ∈ (s.node.recordPaymentClaimed s.tracker paymentHash amountMsat nowMs).1.emitted.drop
    s.node.emitted.length, event = .paymentReceived (hexStr paymentHash) amountMsat (s.tracker.skim paymentHash) ∧
      Received (s.node.recordPaymentClaimed s.tracker paymentHash amountMsat nowMs).1.store (hexStr paymentHash) amountMsat
  refused : (s.node.recordPaymentClaimed s.tracker paymentHash amountMsat nowMs).2.2 = .error ⟨⟩ →
    (s.node.recordPaymentClaimed s.tracker paymentHash amountMsat nowMs).1.emitted = s.node.emitted ∧
      (s.node.recordPaymentClaimed s.tracker paymentHash amountMsat nowMs).2.1.skim paymentHash =
        s.tracker.skim paymentHash
  replayed : (s.node.recordPaymentClaimed s.tracker paymentHash amountMsat nowMs).2.2 = .error ⟨⟩ → ∀ again,
    ∀ event ∈ ((s.node.recordPaymentClaimed s.tracker paymentHash amountMsat nowMs).1.recordPaymentClaimed
      (s.node.recordPaymentClaimed s.tracker paymentHash amountMsat nowMs).2.1 paymentHash amountMsat again).1.emitted.drop
        s.node.emitted.length, event = .paymentReceived (hexStr paymentHash) amountMsat (s.tracker.skim paymentHash)

theorem recordPaymentClaimed_cases (node : PaymentNode) (tracker : ClaimTracker) (paymentHash : List UInt8)
    (amountMsat nowMs : UInt64) :
    ((node.store.recordClaimed (hexStr paymentHash) amountMsat nowMs).2 = .ok () ∧
      node.recordPaymentClaimed tracker paymentHash amountMsat nowMs =
        (⟨(node.store.recordClaimed (hexStr paymentHash) amountMsat nowMs).1,
          node.emitted ++ [.paymentReceived (hexStr paymentHash) amountMsat (tracker.skim paymentHash)]⟩,
          tracker.set paymentHash none, .ok ())) ∨
    ((node.store.recordClaimed (hexStr paymentHash) amountMsat nowMs).2 ≠ .ok () ∧
      node.recordPaymentClaimed tracker paymentHash amountMsat nowMs =
        (⟨(node.store.recordClaimed (hexStr paymentHash) amountMsat nowMs).1, node.emitted⟩, tracker, .error ⟨⟩)) := by
  rw [PaymentNode.recordPaymentClaimed]
  split
  · rename_i hError
    rw [hError]
    exact .inr ⟨nofun, rfl⟩
  · rename_i hOk
    rw [hOk]
    exact .inl ⟨rfl, rfl⟩

/-- Whatever a claim reports carries its amount and the skim on record. -/
theorem emitted_recordPaymentClaimed (node : PaymentNode) {tracker : ClaimTracker} {paymentHash : List UInt8}
    {amountMsat nowMs : UInt64} {event : CoreEvent}
    (hEvent : event ∈ (node.recordPaymentClaimed tracker paymentHash amountMsat nowMs).1.emitted.drop
      node.emitted.length) :
    event = .paymentReceived (hexStr paymentHash) amountMsat (tracker.skim paymentHash) ∧
      (node.store.recordClaimed (hexStr paymentHash) amountMsat nowMs).2 = .ok () := by
  obtain ⟨hOk, hEq⟩ | ⟨-, hEq⟩ := recordPaymentClaimed_cases node tracker paymentHash amountMsat nowMs
  · rw [hEq] at hEvent
    exact ⟨by simpa using hEvent, hOk⟩
  · rw [hEq] at hEvent
    simp at hEvent

theorem Paid.received_iff {store : PaymentStore} (h : Paid store) {id : String} {row : PersistedPayment}
    (hRow : store.rows.lookup id = some row) (amountMsat : UInt64) :
    Received store id amountMsat ↔ row.direction = .inbound ∧ row.amountMsat = amountMsat := by
  constructor
  · rintro ⟨found, hFound, -, hInbound, -, hAmount, -⟩
    cases hRow.symm.trans hFound
    exact ⟨hInbound, hAmount⟩
  · rintro ⟨hInbound, hAmount⟩
    have hStatus := h.inbound id row hRow hInbound
    have hFile : (store.kvStore.files.lookup id).bind decodeRow = some row := by
      rw [← lookup_loadRows, ← h.inv.mirrored]
      exact hRow
    refine ⟨row, hRow, hFile, hInbound, hStatus, hAmount, store.shows_of_lookup hRow ?_⟩
    rw [hStatus]
    nofun

/-- A claim that returns well leaves a row under its hash: the one it found, or its own. -/
theorem recordClaimed_row {store : PaymentStore} {id : String} {amountMsat nowMs : UInt64}
    (hOk : (store.recordClaimed id amountMsat nowMs).2 = .ok ()) :
    (store.recordClaimed id amountMsat nowMs).1.rows.lookup id =
      some ((store.rows.lookup id).getD (claimedRow id amountMsat nowMs)) := by
  rw [PaymentStore.recordClaimed] at hOk ⊢
  cases hRow : store.rows.lookup id with
  | some row => simp [hRow]
  | none =>
    simp only [hRow, Option.isSome_none, Bool.false_eq_true, if_false] at hOk ⊢
    have hId : (claimedRow id amountMsat nowMs).paymentHash = id := rfl
    obtain ⟨kv, e, hEq, -⟩ | ⟨kv, hEq, -⟩ := store.storeRow_cases (claimedRow id amountMsat nowMs) hId
    · rw [hEq] at hOk
      cases hOk
    · rw [hEq]
      exact Finmap.lookup_insert _

/-- In every session, and for every claim in it: the claim is recorded where it is reported, and a failed write
reports nothing and keeps the skim, exactly when the store holds no outbound row under the hash and no receipt
of another amount. -/
theorem claimHonest_iff (failure : Nat → Option String) (ops : List PaymentOp) (paymentHash : List UInt8)
    (amountMsat nowMs : UInt64) :
    ClaimHonest ((Session.start failure).runs ops) paymentHash amountMsat nowMs ↔
      ∀ row, ((Session.start failure).runs ops).node.store.rows.lookup (hexStr paymentHash) = some row →
        row.direction = .inbound ∧ row.amountMsat = amountMsat := by
  have hPaid := (paid_start failure).runs ops
  generalize (Session.start failure).runs ops = s at hPaid ⊢
  have hAfter := hPaid.recordClaimed (hexStr paymentHash) amountMsat nowMs
  have hStore := store_recordPaymentClaimed s.node s.tracker paymentHash amountMsat nowMs
  constructor
  · intro h row hRow
    have hOk : (s.node.store.recordClaimed (hexStr paymentHash) amountMsat nowMs).2 = .ok () := by
      rw [PaymentStore.recordClaimed, hRow]
      rfl
    have hFound := recordClaimed_row hOk
    rw [hRow, Option.getD_some] at hFound
    obtain ⟨-, hEq⟩ | ⟨hNot, -⟩ := recordPaymentClaimed_cases s.node s.tracker paymentHash amountMsat nowMs
    · have hReceived := (h.reported (.paymentReceived (hexStr paymentHash) amountMsat (s.tracker.skim paymentHash))
        (by rw [hEq]; simp)).2
      rw [hStore] at hReceived
      exact (hAfter.received_iff hFound amountMsat).mp hReceived
    · exact absurd hOk hNot
  · intro hRows
    constructor
    case reported =>
      intro event hEvent
      obtain ⟨hIs, hOk⟩ := emitted_recordPaymentClaimed s.node hEvent
      refine ⟨hIs, ?_⟩
      rw [hStore, hAfter.received_iff (recordClaimed_row hOk)]
      cases hRow : s.node.store.rows.lookup (hexStr paymentHash) with
      | none => exact ⟨rfl, rfl⟩
      | some row => exact hRows row hRow
    case refused =>
      intro hError
      obtain ⟨-, hEq⟩ | ⟨-, hEq⟩ := recordPaymentClaimed_cases s.node s.tracker paymentHash amountMsat nowMs
      · rw [hEq] at hError
        cases hError
      · rw [hEq]
        exact ⟨rfl, rfl⟩
    case replayed =>
      intro hError again event hEvent
      obtain ⟨-, hEq⟩ | ⟨-, hEq⟩ := recordPaymentClaimed_cases s.node s.tracker paymentHash amountMsat nowMs
      · rw [hEq] at hError
        cases hError
      · rw [hEq] at hEvent
        exact (emitted_recordPaymentClaimed
          ⟨(s.node.store.recordClaimed (hexStr paymentHash) amountMsat nowMs).1, s.node.emitted⟩ hEvent).1

/-- The node tries to pay an invoice of its own, for which there is no route; then the invoice is paid. -/
theorem own_invoice_hides_receipt :
    ¬ ClaimHonest ((Session.start fun _ => none).runs
      [.sendPayment (demoEnv (.error (.sendingFailed .routeNotFound))) "lnbc" none]) [0xab] 1000 200000 := by
  intro h
  obtain ⟨-, row, hRow, -, hInbound, -⟩ := h.reported (.paymentReceived "ab" 1000 none) (by decide +kernel)
  have hOutbound : ∀ row', (((Session.start fun _ => none).runs
      [.sendPayment (demoEnv (.error (.sendingFailed .routeNotFound))) "lnbc" none]).node.recordPaymentClaimed
        .empty [0xab] 1000 200000).1.store.rows.lookup "ab" = some row' → row'.direction = .outbound := by
    decide +kernel
  cases hInbound.symm.trans (hOutbound row hRow)

end WalletCore.Payments
