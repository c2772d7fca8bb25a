import WalletCore.History.Payment

/-! # The payment store

The rows in memory over one file per payment. A row is written before the map is changed, so
that a failed write leaves both as they were. The file system carries the outcome of each of
its writes: a write that fails leaves the file alone.
-/

namespace WalletCore.History

open Lib

structure PaymentFiles where
  files : StringMap Bytes
  /-- The error of the n-th write, if it fails. -/
  failure : Nat → Option String
  writes : Nat

inductive HistoryError where
  | persist (detail : String)
deriving DecidableEq

abbrev Rows := StringMap PersistedPayment

/-- A file that does not read as a row is skipped. -/
def loadRows (files : StringMap Bytes) : Rows :=
  .ofPairs (files.toPairs.filterMap fun file => (decodeRow file.2).map fun row => (file.1, row))

structure PaymentStore where
  rows : Rows
  kvStore : PaymentFiles

def interruptedReason : String := "interrupted"

def reconcileGraceMs : UInt64 := 60000

def saturatingSub (a b : UInt64) : UInt64 := if a < b then 0 else a - b

/-- The order in which a hash map gives its values: any. -/
structure IterationOrder where
  order : List PersistedPayment → List PersistedPayment
  perm : ∀ rows, (order rows).Perm rows

/-! ## The rows the writers build -/

def pendingRow (paymentId : String) (direction : PaymentDirection) (amountMsat createdAtMs : UInt64) :
    PersistedPayment where
  paymentHash := paymentId
  direction := direction
  amountMsat := amountMsat
  status := .pending
  feePaidMsat := none
  createdAtMs := createdAtMs
  failureReason := none

def settledRow (existing : PersistedPayment) (status : PaymentStatus) (feePaidMsat : Option UInt64)
    (failureReason : Option String) : PersistedPayment :=
  { existing with
    status := status
    feePaidMsat := feePaidMsat.or existing.feePaidMsat
    failureReason := failureReason.or existing.failureReason }

def claimedRow (paymentHash : String) (amountMsat createdAtMs : UInt64) : PersistedPayment where
  paymentHash := paymentHash
  direction := .inbound
  amountMsat := amountMsat
  status := .succeeded
  feePaidMsat := none
  createdAtMs := createdAtMs
  failureReason := none

namespace PaymentStore

def new (kvStore : PaymentFiles) : PaymentStore := ⟨loadRows kvStore.files, kvStore⟩

def persistRow (store : PaymentStore) (row : PersistedPayment) : PaymentStore × Except HistoryError Unit :=
  let kv := store.kvStore
  match kv.failure kv.writes with
  | some detail => ({ store with kvStore := { kv with writes := kv.writes + 1 } }, .error (.persist detail))
  | none =>
    ({ store with kvStore := { kv with
        files := kv.files.insert row.paymentHash (encodeRow row)
        writes := kv.writes + 1 } }, .ok ())

/-- The end of every writer: persist the row, then put it into the map. -/
def storeRow (store : PaymentStore) (paymentId : String) (row : PersistedPayment) :
    PaymentStore × Except HistoryError Unit :=
  match store.persistRow row with
  | (store, .ok ()) => ({ store with rows := store.rows.insert paymentId row }, .ok ())
  | (store, .error e) => (store, .error e)

def recordPending (store : PaymentStore) (paymentId : String) (direction : PaymentDirection)
    (amountMsat createdAtMs : UInt64) : PaymentStore × Except HistoryError Unit :=
  let row := pendingRow paymentId direction amountMsat createdAtMs
  match store.rows.lookup paymentId with
  | some existing => if existing.status ≠ .failed then (store, .ok ()) else store.storeRow paymentId row
  | none => store.storeRow paymentId row

/-- The target is meant to be terminal; a release build does not check it. -/
def settle (store : PaymentStore) (paymentId : String) (status : PaymentStatus) (feePaidMsat : Option UInt64)
    (failureReason : Option String) : PaymentStore × Except HistoryError Unit :=
  match store.rows.lookup paymentId with
  | none => (store, .ok ())
  | some existing =>
    if existing.status ≠ .pending then (store, .ok ())
    else store.storeRow paymentId (settledRow existing status feePaidMsat failureReason)

def recordClaimed (store : PaymentStore) (paymentHash : String) (amountMsat createdAtMs : UInt64) :
    PaymentStore × Except HistoryError Unit :=
  if (store.rows.lookup paymentHash).isSome then (store, .ok ())
  else store.storeRow paymentHash (claimedRow paymentHash amountMsat createdAtMs)

def statusAt (store : PaymentStore) (paymentId : String) : Option PaymentStatus :=
  (store.rows.lookup paymentId).map PersistedPayment.status

def isStale (livePaymentIds : List String) (nowMs : UInt64) (row : PersistedPayment) : Bool :=
  row.status == .pending && !livePaymentIds.contains row.paymentHash &&
    decide (reconcileGraceMs < saturatingSub nowMs row.createdAtMs)

def stale (store : PaymentStore) (livePaymentIds : List String) (nowMs : UInt64) (iteration : IterationOrder) :
    List String :=
  ((iteration.order (store.rows.toPairs.map Prod.snd)).filter (isStale livePaymentIds nowMs)).map
    PersistedPayment.paymentHash

/-- Settles the rows one by one; the first error ends the loop. -/
def interrupt (store : PaymentStore) : List String → PaymentStore × Except HistoryError Unit
  | [] => (store, .ok ())
  | paymentId :: rest =>
    match store.settle paymentId .failed none (some interruptedReason) with
    | (store, .ok ()) => store.interrupt rest
    | (store, .error e) => (store, .error e)

def reconcilePending (store : PaymentStore) (livePaymentIds : List String) (nowMs : UInt64)
    (iteration : IterationOrder) : PaymentStore × Except HistoryError Nat :=
  let stale := store.stale livePaymentIds nowMs iteration
  let result := store.interrupt stale
  (result.1, result.2.map fun _ => stale.length)

end PaymentStore

/-! ## Calls as data -/

inductive Call where
  | recordPending (paymentId : String) (direction : PaymentDirection) (amountMsat createdAtMs : UInt64)
  | settle (paymentId : String) (status : PaymentStatus) (feePaidMsat : Option UInt64) (failureReason : Option String)
  | recordClaimed (paymentHash : String) (amountMsat createdAtMs : UInt64)
  | reconcilePending (livePaymentIds : List String) (nowMs : UInt64) (iteration : IterationOrder)

def Call.apply (store : PaymentStore) : Call → PaymentStore × Except HistoryError Unit
  | .recordPending paymentId direction amountMsat createdAtMs =>
    store.recordPending paymentId direction amountMsat createdAtMs
  | .settle paymentId status feePaidMsat failureReason => store.settle paymentId status feePaidMsat failureReason
  | .recordClaimed paymentHash amountMsat createdAtMs => store.recordClaimed paymentHash amountMsat createdAtMs
  | .reconcilePending livePaymentIds nowMs iteration =>
    let result := store.reconcilePending livePaymentIds nowMs iteration
    (result.1, result.2.map fun _ => ())

def Call.targets (store : PaymentStore) : Call → List String
  | .recordPending paymentId .. => [paymentId]
  | .settle paymentId .. => [paymentId]
  | .recordClaimed paymentHash .. => [paymentHash]
  | .reconcilePending livePaymentIds nowMs iteration => store.stale livePaymentIds nowMs iteration

/-- A session: its calls, whatever each of them returned. -/
def runCalls (store : PaymentStore) (calls : List Call) : PaymentStore :=
  calls.foldl (fun store call => (call.apply store).1) store

/-! ## What a row may become -/

/-- A pending row may become anything, a failed row may be armed again. -/
def Allowed : Option PersistedPayment → PersistedPayment → Prop
  | none, _ => True
  | some old, new => old.status = .pending ∨ (old.status = .failed ∧ new.status = .pending)

/-- What a writer of one row does: nothing, a failed attempt, or the row in both places. -/
inductive RowWrite (store : PaymentStore) (id : String) : PaymentStore × Except HistoryError Unit → Prop
  | skipped : RowWrite store id (store, .ok ())
  | failed (kv : PaymentFiles) (e : HistoryError) (hFiles : kv.files = store.kvStore.files) :
    RowWrite store id ({ store with kvStore := kv }, .error e)
  | written (row : PersistedPayment) (kv : PaymentFiles) (hId : row.paymentHash = id)
      (hFiles : kv.files = store.kvStore.files.insert id (encodeRow row))
      (hAllowed : Allowed (store.rows.lookup id) row) :
    RowWrite store id ({ rows := store.rows.insert id row, kvStore := kv }, .ok ())

/-- The map is what a new process would load, and each row sits under its own id. -/
structure PaymentStore.Inv (store : PaymentStore) : Prop where
  mirrored : store.rows = loadRows store.kvStore.files
  keyed : ∀ id row, store.rows.lookup id = some row → row.paymentHash = id

theorem lookup_loadRows (files : StringMap Bytes) (id : String) :
    (loadRows files).lookup id = (files.lookup id).bind decodeRow :=
  StringMap.lookup_ofPairs_filterMap decodeRow files id

theorem loadRows_insert (files : StringMap Bytes) (id : String) (row : PersistedPayment) :
    loadRows (files.insert id (encodeRow row)) = (loadRows files).insert id row := by
  apply Finmap.ext_lookup
  intro other
  rw [lookup_loadRows, StringMap.lookup_insert_eq, StringMap.lookup_insert_eq, lookup_loadRows]
  split
  · exact decodeRow_encodeRow row
  · rfl

namespace PaymentStore

variable {store : PaymentStore}

theorem storeRow_cases (store : PaymentStore) (row : PersistedPayment) {id : String} (hId : row.paymentHash = id) :
    (∃ kv e, store.storeRow id row = ({ store with kvStore := kv }, .error e) ∧ kv.files = store.kvStore.files) ∨
    ∃ kv, store.storeRow id row = ({ rows := store.rows.insert id row, kvStore := kv }, .ok ()) ∧
      kv.files = store.kvStore.files.insert id (encodeRow row) := by
  subst hId
  rw [storeRow, persistRow]
  cases store.kvStore.failure store.kvStore.writes with
  | some detail => exact .inl ⟨_, _, rfl, rfl⟩
  | none => exact .inr ⟨_, rfl, rfl⟩

theorem settle_cases (store : PaymentStore) (id : String) (status : PaymentStatus) (feePaidMsat : Option UInt64)
    (failureReason : Option String) :
    store.settle id status feePaidMsat failureReason = (store, .ok ()) ∨
    ∃ existing, store.rows.lookup id = some existing ∧ existing.status = .pending ∧
      store.settle id status feePaidMsat failureReason =
        store.storeRow id (settledRow existing status feePaidMsat failureReason) := by
  rw [settle]
  split
  · exact .inl rfl
  · rename_i existing hExisting
    split
    · exact .inl rfl
    · rename_i hPending
      exact .inr ⟨existing, hExisting, not_not.mp hPending, rfl⟩

theorem storeRow_rowWrite {id : String} {row : PersistedPayment} (hId : row.paymentHash = id)
    (hAllowed : Allowed (store.rows.lookup id) row) : RowWrite store id (store.storeRow id row) := by
  obtain ⟨kv, e, hEq, hFiles⟩ | ⟨kv, hEq, hFiles⟩ := store.storeRow_cases row hId
  · rw [hEq]
    exact .failed kv e hFiles
  · rw [hEq]
    exact .written row kv hId hFiles hAllowed

theorem recordPending_rowWrite (store : PaymentStore) (id : String) (direction : PaymentDirection) (amountMsat createdAtMs : UInt64) :
    RowWrite store id (store.recordPending id direction amountMsat createdAtMs) := by
  rw [recordPending]
  split
  · rename_i existing hExisting
    split
    · exact .skipped
    · rename_i hFailed
      refine storeRow_rowWrite rfl ?_
      rw [hExisting]
      exact .inr ⟨not_not.mp hFailed, rfl⟩
  · rename_i hNone
    refine storeRow_rowWrite rfl ?_
    rw [hNone]
    trivial

theorem settle_rowWrite (hInv : store.Inv) (id : String) (status : PaymentStatus) (feePaidMsat : Option UInt64)
    (failureReason : Option String) : RowWrite store id (store.settle id status feePaidMsat failureReason) := by
  obtain hSkip | ⟨existing, hExisting, hPending, hEq⟩ := store.settle_cases id status feePaidMsat failureReason
  · rw [hSkip]
    exact .skipped
  · rw [hEq]
    refine storeRow_rowWrite (hInv.keyed id existing hExisting) ?_
    rw [hExisting]
    exact .inl hPending

theorem recordClaimed_rowWrite (store : PaymentStore) (id : String) (amountMsat createdAtMs : UInt64) :
    RowWrite store id (store.recordClaimed id amountMsat createdAtMs) := by
  rw [recordClaimed]
  split
  · exact .skipped
  · rename_i hNone
    refine storeRow_rowWrite rfl ?_
    rw [Option.not_isSome_iff_eq_none.mp hNone]
    trivial

theorem new_inv {kvStore : PaymentFiles}
    (hOwn : ∀ id row, (loadRows kvStore.files).lookup id = some row → row.paymentHash = id) :
    (PaymentStore.new kvStore).Inv := ⟨rfl, hOwn⟩

end PaymentStore

namespace RowWrite

variable {store : PaymentStore} {id : String} {result : PaymentStore × Except HistoryError Unit}

theorem inv (h : RowWrite store id result) (hInv : store.Inv) : result.1.Inv := by
  cases h with
  | skipped => exact hInv
  | failed kv e hFiles =>
    refine ⟨?_, hInv.keyed⟩
    rw [hFiles]
    exact hInv.mirrored
  | written row kv hId hFiles hAllowed =>
    constructor
    · rw [hFiles, loadRows_insert, ← hInv.mirrored]
    · intro other row' hRow'
      rw [StringMap.lookup_insert_eq] at hRow'
      split at hRow'
      · rename_i hOther
        cases hRow'
        exact hId.trans hOther.symm
      · exact hInv.keyed other row' hRow'

theorem other (h : RowWrite store id result) {other : String} (hOther : other ≠ id) :
    result.1.rows.lookup other = store.rows.lookup other ∧
      result.1.kvStore.files.lookup other = store.kvStore.files.lookup other := by
  cases h with
  | skipped => exact ⟨rfl, rfl⟩
  | failed kv e hFiles => exact ⟨rfl, by rw [hFiles]⟩
  | written row kv hId hFiles hAllowed =>
    rw [hFiles, StringMap.lookup_insert_eq, StringMap.lookup_insert_eq, if_neg hOther, if_neg hOther]
    exact ⟨rfl, rfl⟩

theorem error (h : RowWrite store id result) {e : HistoryError} (hError : result.2 = .error e) :
    result.1.rows = store.rows ∧ result.1.kvStore.files = store.kvStore.files := by
  cases h with
  | skipped => cases hError
  | failed kv e hFiles => exact ⟨rfl, hFiles⟩
  | written => cases hError

end RowWrite

/-! ## Interrupting stale rows -/

namespace PaymentStore

variable {store : PaymentStore}

/-- What becomes of a row that is interrupted. -/
def interrupted (row : PersistedPayment) : PersistedPayment :=
  { row with status := .failed, failureReason := some interruptedReason }

theorem interrupt_settle (hInv : store.Inv) (id : String) :
    (store.settle id .failed none (some interruptedReason)).1.rows = store.rows ∨
      ∃ row, store.rows.lookup id = some row ∧ row.status = .pending ∧
        (store.settle id .failed none (some interruptedReason)).1.rows = store.rows.insert id (interrupted row) := by
  obtain hSkip | ⟨row, hRow, hPending, hEq⟩ := store.settle_cases id .failed none (some interruptedReason)
  · rw [hSkip]
    exact .inl rfl
  · rw [hEq]
    obtain ⟨kv, e, hStore, -⟩ | ⟨kv, hStore, -⟩ :=
      store.storeRow_cases (settledRow row .failed none (some interruptedReason)) (hInv.keyed id row hRow)
    · rw [hStore]
      exact .inl rfl
    · rw [hStore]
      exact .inr ⟨row, hRow, hPending, rfl⟩

/-- The loop keeps the invariant, and every row it changes was pending and is now interrupted. -/
theorem interrupt_rows (ids : List String) (hInv : store.Inv) :
    (store.interrupt ids).1.Inv ∧ ∀ id, (store.interrupt ids).1.rows.lookup id = store.rows.lookup id ∨
      (id ∈ ids ∧ ∃ row, store.rows.lookup id = some row ∧ row.status = .pending ∧
        (store.interrupt ids).1.rows.lookup id = some (interrupted row)) := by
  induction ids generalizing store with
  | nil => exact ⟨hInv, fun _ => .inl rfl⟩
  | cons first rest ih =>
    have hWrite := settle_rowWrite hInv first .failed none (some interruptedReason)
    have hRows := interrupt_settle hInv first
    have hFirst : ∀ id, (store.settle first .failed none (some interruptedReason)).1.rows.lookup id =
        store.rows.lookup id ∨ (id = first ∧ ∃ row, store.rows.lookup id = some row ∧ row.status = .pending ∧
          (store.settle first .failed none (some interruptedReason)).1.rows.lookup id = some (interrupted row)) := by
      intro id
      obtain hSame | ⟨row, hRow, hPending, hInsert⟩ := hRows
      · exact .inl (by rw [hSame])
      · rw [hInsert, StringMap.lookup_insert_eq]
        split
        · rename_i hId
          subst hId
          exact .inr ⟨rfl, row, hRow, hPending, rfl⟩
        · exact .inl rfl
    rw [interrupt]
    generalize store.settle first .failed none (some interruptedReason) = result at hWrite hFirst
    obtain ⟨next, outcome⟩ := result
    have hNext := hWrite.inv hInv
    cases outcome with
    | error e =>
      refine ⟨hNext, fun id => (hFirst id).imp_right ?_⟩
      rintro ⟨rfl, hRow⟩
      exact ⟨List.mem_cons_self, hRow⟩
    | ok =>
      obtain ⟨hEnd, hRest⟩ := ih hNext
      refine ⟨hEnd, ?_⟩
      intro id
      obtain hSame | ⟨hMem, row, hRow, hPending, hEndRow⟩ := hRest id
      · obtain hFirst | ⟨rfl, row, hRow, hPending, hFailed⟩ := hFirst id
        · exact .inl (hSame.trans hFirst)
        · exact .inr ⟨List.mem_cons_self, row, hRow, hPending, hSame.trans hFailed⟩
      · obtain hFirst | ⟨rfl, row', hRow', -, hFailed⟩ := hFirst id
        · exact .inr ⟨List.mem_cons_of_mem _ hMem, row, hFirst.symm.trans hRow, hPending, hEndRow⟩
        · -- The row was settled before the rest of the loop saw it.
          cases hFailed.symm.trans hRow
          cases hPending

theorem interrupt_error (ids : List String) (hInv : store.Inv) {e : HistoryError}
    (hError : (store.interrupt ids).2 = .error e) :
    ∃ done id, done ++ [id] <+: ids ∧ ∀ other ∉ done,
      (store.interrupt ids).1.rows.lookup other = store.rows.lookup other ∧
      (store.interrupt ids).1.kvStore.files.lookup other = store.kvStore.files.lookup other := by
  induction ids generalizing store with
  | nil => cases hError
  | cons first rest ih =>
    have hWrite := settle_rowWrite hInv first .failed none (some interruptedReason)
    rw [interrupt] at hError ⊢
    generalize store.settle first .failed none (some interruptedReason) = result at hWrite hError ⊢
    obtain ⟨next, outcome⟩ := result
    cases outcome with
    | error e =>
      obtain ⟨hRows, hFiles⟩ := hWrite.error rfl
      refine ⟨[], first, List.prefix_append [first] rest, ?_⟩
      intro other _
      exact ⟨by rw [hRows], by rw [hFiles]⟩
    | ok =>
      obtain ⟨done, id, hPrefix, hRest⟩ := ih (hWrite.inv hInv) hError
      refine ⟨first :: done, id, (List.cons_prefix_cons).mpr ⟨rfl, hPrefix⟩, ?_⟩
      intro other hOther
      rw [List.mem_cons, not_or] at hOther
      obtain ⟨hRows, hFiles⟩ := hRest other hOther.2
      obtain ⟨hRows', hFiles'⟩ := hWrite.other hOther.1
      exact ⟨hRows.trans hRows', hFiles.trans hFiles'⟩

theorem mem_stale (hInv : store.Inv) {livePaymentIds : List String} {nowMs : UInt64} {iteration : IterationOrder}
    {id : String} (hId : id ∈ store.stale livePaymentIds nowMs iteration) :
    ∃ row, store.rows.lookup id = some row ∧ isStale livePaymentIds nowMs row = true := by
  obtain ⟨row, hRow, rfl⟩ := List.mem_map.mp hId
  obtain ⟨hMem, hStale⟩ := List.mem_filter.mp hRow
  obtain ⟨⟨key, row'⟩, hPair, rfl⟩ := List.mem_map.mp ((iteration.perm _).mem_iff.mp hMem)
  have hLookup := (StringMap.mem_toPairs _ _ _).mp hPair
  exact ⟨row', by rw [hInv.keyed key row' hLookup]; exact hLookup, hStale⟩

theorem stale_nodup (hInv : store.Inv) (livePaymentIds : List String) (nowMs : UInt64) (iteration : IterationOrder) :
    (store.stale livePaymentIds nowMs iteration).Nodup := by
  have hKeys : (store.rows.toPairs.map Prod.snd).map PersistedPayment.paymentHash =
      store.rows.toPairs.map Prod.fst := by
    rw [List.map_map]
    apply List.map_congr_left
    rintro ⟨key, row⟩ hPair
    exact hInv.keyed key row ((StringMap.mem_toPairs _ _ _).mp hPair)
  have hPerm := (iteration.perm (store.rows.toPairs.map Prod.snd)).map PersistedPayment.paymentHash
  rw [hKeys] at hPerm
  exact (hPerm.nodup_iff.mpr store.rows.toPairs_keys_nodup).sublist (List.filter_sublist.map _)

end PaymentStore

/-! ## Every call -/

inductive StatusMove : PaymentStatus → PaymentStatus → Prop
  | stay (status : PaymentStatus) : StatusMove status status
  | succeed : StatusMove .pending .succeeded
  | fail : StatusMove .pending .failed
  | rearm : StatusMove .failed .pending

/-- No row leaves the map; a settled payment keeps its row. -/
def RowsKept (old new : Rows) : Prop :=
  ∀ id row, old.lookup id = some row → ∃ row', new.lookup id = some row' ∧
    StatusMove row.status row'.status ∧ (row.status = .succeeded → row' = row)

theorem StatusMove.of_pending (status : PaymentStatus) : StatusMove .pending status := by
  cases status with
  | pending => exact .stay _
  | succeeded => exact .succeed
  | failed => exact .fail

theorem RowWrite.kept {store : PaymentStore} {id : String} {result : PaymentStore × Except HistoryError Unit}
    (h : RowWrite store id result) : RowsKept store.rows result.1.rows := by
  intro other row hRow
  cases h with
  | skipped => exact ⟨row, hRow, .stay _, fun _ => rfl⟩
  | failed => exact ⟨row, hRow, .stay _, fun _ => rfl⟩
  | written new kv hId hFiles hAllowed =>
    rw [StringMap.lookup_insert_eq]
    split
    · rename_i hOther
      subst hOther
      rw [hRow] at hAllowed
      refine ⟨new, rfl, ?_⟩
      obtain hPending | ⟨hFailed, hArmed⟩ := hAllowed
      · rw [hPending]
        exact ⟨.of_pending _, fun hSettled => by cases hSettled⟩
      · rw [hFailed, hArmed]
        exact ⟨.rearm, fun hSettled => by cases hSettled⟩
    · exact ⟨row, hRow, .stay _, fun _ => rfl⟩

/-- A call that returned well once changes nothing when it is made again. -/
def Replayed (call : Call) (store : PaymentStore) : Prop :=
  match call with
  | .settle _ status .. =>
    (call.apply store).2 = .ok () →
      (call.apply (call.apply store).1).1.rows = (call.apply store).1.rows ∧
      (call.apply (call.apply store).1).1.kvStore.files = (call.apply store).1.kvStore.files ∧
      (status ≠ .pending → call.apply (call.apply store).1 = ((call.apply store).1, .ok ()))
  | .recordClaimed .. =>
    (call.apply store).2 = .ok () → call.apply (call.apply store).1 = ((call.apply store).1, .ok ())
  | _ => True

/-- The rows a reconcile pass fails. -/
def Interrupts (call : Call) (store : PaymentStore) : Prop :=
  match call with
  | .reconcilePending livePaymentIds nowMs _ =>
    ∀ id row, (call.apply store).1.rows.lookup id = some row → store.rows.lookup id ≠ some row →
      ∃ old, store.rows.lookup id = some old ∧ old.status = .pending ∧ id ∉ livePaymentIds ∧
        reconcileGraceMs < saturatingSub nowMs old.createdAtMs ∧ row = PaymentStore.interrupted old
  | _ => True

/-- What a call promises, from the store it is made on. -/
structure Durable (call : Call) (store : PaymentStore) : Prop where
  mirrored : (call.apply store).1 = PaymentStore.new (call.apply store).1.kvStore
  kept : RowsKept store.rows (call.apply store).1.rows
  failed : ∀ e, (call.apply store).2 = .error e → ∃ done id, done ++ [id] <+: call.targets store ∧ id ∉ done ∧
    ∀ other ∉ done, (call.apply store).1.rows.lookup other = store.rows.lookup other ∧
      (call.apply store).1.kvStore.files.lookup other = store.kvStore.files.lookup other
  replayed : Replayed call store
  interrupts : Interrupts call store

theorem PaymentStore.Inv.eq_new {store : PaymentStore} (hInv : store.Inv) : store = PaymentStore.new store.kvStore := by
  obtain ⟨rows, kvStore⟩ := store
  exact congrArg (PaymentStore.mk · kvStore) hInv.mirrored

theorem RowWrite.failed_row {store : PaymentStore} {id : String} {result : PaymentStore × Except HistoryError Unit}
    (h : RowWrite store id result) (e : HistoryError) (hError : result.2 = .error e) :
    ∃ done id', done ++ [id'] <+: [id] ∧ id' ∉ done ∧ ∀ other ∉ done,
      result.1.rows.lookup other = store.rows.lookup other ∧
      result.1.kvStore.files.lookup other = store.kvStore.files.lookup other := by
  obtain ⟨hRows, hFiles⟩ := h.error hError
  refine ⟨[], id, List.prefix_refl _, List.not_mem_nil, ?_⟩
  intro other _
  rw [hRows, hFiles]
  exact ⟨rfl, rfl⟩

theorem reconcilePending_error {store : PaymentStore} {livePaymentIds : List String} {nowMs : UInt64}
    {iteration : IterationOrder} {e : HistoryError}
    (hError : ((Call.reconcilePending livePaymentIds nowMs iteration).apply store).2 = .error e) :
    (store.interrupt (store.stale livePaymentIds nowMs iteration)).2 = .error e := by
  rw [Call.apply, PaymentStore.reconcilePending] at hError
  generalize (store.interrupt (store.stale livePaymentIds nowMs iteration)).2 = outcome at hError ⊢
  cases outcome with
  | ok => cases hError
  | error => exact hError

/-- With a target that is not terminal the same row would be written once more. -/
theorem settledRow_again (existing : PersistedPayment) (status : PaymentStatus) (feePaidMsat : Option UInt64)
    (failureReason : Option String) :
    settledRow (settledRow existing status feePaidMsat failureReason) status feePaidMsat failureReason =
      settledRow existing status feePaidMsat failureReason := by
  cases feePaidMsat <;> cases failureReason <;> rfl

theorem replayed_settle {store : PaymentStore} (hInv : store.Inv) (id : String) (status : PaymentStatus)
    (feePaidMsat : Option UInt64) (failureReason : Option String) :
    Replayed (.settle id status feePaidMsat failureReason) store := by
  intro hOk
  simp only [Call.apply] at hOk ⊢
  obtain hSkip | ⟨existing, hExisting, hPending, hEq⟩ := store.settle_cases id status feePaidMsat failureReason
  · simp only [hSkip]
    exact ⟨trivial, trivial, fun _ => trivial⟩
  rw [hEq] at hOk ⊢
  generalize hRow : settledRow existing status feePaidMsat failureReason = row at hOk ⊢
  have hId : row.paymentHash = id := by
    rw [← hRow]
    exact hInv.keyed id existing hExisting
  obtain ⟨kv, e, hStore, -⟩ | ⟨kv, hStore, hFiles⟩ := store.storeRow_cases row hId
  · rw [hStore] at hOk
    cases hOk
  rw [hStore]
  have hLookup : (store.rows.insert id row).lookup id = some row := Finmap.lookup_insert _
  obtain hSkip | ⟨again, hAgain, hPending', hEq'⟩ :=
    PaymentStore.settle_cases ⟨store.rows.insert id row, kv⟩ id status feePaidMsat failureReason
  · rw [hSkip]
    exact ⟨rfl, rfl, fun _ => rfl⟩
  · cases hLookup.symm.trans hAgain
    rw [hEq', ← hRow, settledRow_again, hRow]
    have hTarget : status = .pending := by
      rw [← hPending', ← hRow]
      rfl
    obtain ⟨kv', e, hStore', hFiles'⟩ | ⟨kv', hStore', hFiles'⟩ :=
      PaymentStore.storeRow_cases ⟨store.rows.insert id row, kv⟩ row hId
    · rw [hStore']
      exact ⟨rfl, hFiles', fun hTerminal => absurd hTarget hTerminal⟩
    · rw [hStore']
      refine ⟨StringMap.insert_insert _ _ _, ?_, fun hTerminal => absurd hTarget hTerminal⟩
      rw [hFiles', hFiles]
      exact StringMap.insert_insert _ _ _

theorem replayed_recordClaimed {store : PaymentStore} (id : String) (amountMsat createdAtMs : UInt64) :
    Replayed (.recordClaimed id amountMsat createdAtMs) store := by
  intro hOk
  have hPresent : ((store.recordClaimed id amountMsat createdAtMs).1.rows.lookup id).isSome = true := by
    rw [Call.apply, PaymentStore.recordClaimed] at hOk
    rw [PaymentStore.recordClaimed]
    split
    · assumption
    · rename_i hNone
      rw [if_neg hNone] at hOk
      have hId : (claimedRow id amountMsat createdAtMs).paymentHash = id := rfl
      obtain ⟨kv, e, hStore, -⟩ | ⟨kv, hStore, -⟩ := store.storeRow_cases _ hId
      · rw [hStore] at hOk
        cases hOk
      · rw [hStore]
        exact congrArg Option.isSome (Finmap.lookup_insert _)
  simp only [Call.apply]
  rw [PaymentStore.recordClaimed, if_pos hPresent]

theorem PaymentStore.Inv.durable {store : PaymentStore} (hInv : store.Inv) (call : Call) :
    (call.apply store).1.Inv ∧ Durable call store := by
  cases call with
  | recordPending id direction amountMsat createdAtMs =>
    have hWrite := PaymentStore.recordPending_rowWrite store id direction amountMsat createdAtMs
    exact ⟨hWrite.inv hInv, (hWrite.inv hInv).eq_new, hWrite.kept, hWrite.failed_row, trivial, trivial⟩
  | settle id status feePaidMsat failureReason =>
    have hWrite := PaymentStore.settle_rowWrite hInv id status feePaidMsat failureReason
    exact ⟨hWrite.inv hInv, (hWrite.inv hInv).eq_new, hWrite.kept, hWrite.failed_row,
      replayed_settle hInv id status feePaidMsat failureReason, trivial⟩
  | recordClaimed id amountMsat createdAtMs =>
    have hWrite := PaymentStore.recordClaimed_rowWrite store id amountMsat createdAtMs
    exact ⟨hWrite.inv hInv, (hWrite.inv hInv).eq_new, hWrite.kept, hWrite.failed_row,
      replayed_recordClaimed id amountMsat createdAtMs, trivial⟩
  | reconcilePending livePaymentIds nowMs iteration =>
    obtain ⟨hEnd, hRows⟩ := PaymentStore.interrupt_rows (store.stale livePaymentIds nowMs iteration) hInv
    refine ⟨hEnd, hEnd.eq_new, ?_, ?_, trivial, ?_⟩
    · intro id row hRow
      obtain hSame | ⟨-, row', hRow', hPending, hFailed⟩ := hRows id
      · exact ⟨row, hSame.trans hRow, .stay _, fun _ => rfl⟩
      · cases hRow.symm.trans hRow'
        refine ⟨_, hFailed, ?_, ?_⟩
        · rw [hPending]
          exact .fail
        · intro hSettled
          cases hPending.symm.trans hSettled
    · intro e hError
      obtain ⟨done, id, hPrefix, hUnchanged⟩ :=
        PaymentStore.interrupt_error _ hInv (reconcilePending_error hError)
      have hNodup := (PaymentStore.stale_nodup hInv livePaymentIds nowMs iteration).sublist hPrefix.sublist
      refine ⟨done, id, hPrefix, ?_, hUnchanged⟩
      intro hMem
      exact (List.nodup_append.mp hNodup).2.2 id hMem id (List.mem_singleton.mpr rfl) rfl
    · intro id row hRow hNew
      obtain hSame | ⟨hMem, old, hOld, hPending, hFailed⟩ := hRows id
      · exact absurd (hSame.symm.trans hRow) hNew
      · obtain ⟨old', hOld', hStale⟩ := PaymentStore.mem_stale hInv hMem
        cases hOld.symm.trans hOld'
        simp only [PaymentStore.isStale, Bool.and_eq_true, Bool.not_eq_true', decide_eq_true_eq] at hStale
        obtain ⟨⟨-, hDead⟩, hOldEnough⟩ := hStale
        rw [hInv.keyed id old hOld] at hDead
        refine ⟨old, hOld, hPending, by simpa using hDead, hOldEnough, ?_⟩
        exact Option.some.inj (hRow.symm.trans hFailed)

/-- From any files whose rows sit under their own ids, as the store writes them: every call of every sequence
of calls, with any of its writes failing, leaves memory and files equal and keeps every promise on the rows. -/
theorem paymentStore_durable (kvStore : PaymentFiles)
    (hOwn : ∀ id row, (loadRows kvStore.files).lookup id = some row → row.paymentHash = id) (calls : List Call)
    (call : Call) : Durable call (runCalls (PaymentStore.new kvStore) calls) := by
  have hRun : (runCalls (PaymentStore.new kvStore) calls).Inv :=
    List.foldlRecOn calls _ (PaymentStore.new_inv hOwn) fun store hInv call _ => (hInv.durable call).1
  exact (hRun.durable call).2

/-- One pending row on file, and a file system whose second write fails. -/
def onePending : PaymentFiles where
  files := Finmap.singleton "a" (encodeRow (pendingRow "a" .outbound 1000 1))
  failure n := if n = 1 then some "disk full" else none
  writes := 0

theorem loadRows_onePending : loadRows onePending.files = Finmap.singleton "a" (pendingRow "a" .outbound 1000 1) := by
  have hEmpty : loadRows ∅ = ∅ := by decide +kernel
  have hInsert := loadRows_insert ∅ "a" (pendingRow "a" .outbound 1000 1)
  rw [hEmpty] at hInsert
  exact hInsert

theorem paymentStore_durable_onePending :
    Durable (.settle "a" .failed none (some "no route"))
      (runCalls (PaymentStore.new onePending) [.recordClaimed "b" 5 7, .recordClaimed "c" 5 7]) := by
  refine paymentStore_durable onePending ?_ _ _
  intro id row hRow
  rw [loadRows_onePending, ← StringMap.mem_toPairs, StringMap.toPairs_singleton, List.mem_singleton] at hRow
  cases hRow
  rfl

end WalletCore.History
