import WalletCore.Broadcast.Pending

/-! # The funding flow

A funding transaction is kept under the temporary channel id before the channel manager hears of it. When it
is safe to broadcast it moves on to the pending broadcasts; when the channel manager discards the funding, it
is looked up through a map from the real id to the temporary one. The events are handled one at a time, while
the broadcasts go on beside them.
-/

namespace WalletCore.Broadcast

open Lib Sweep

universe u

variable {Tx : Type u} (codec : TxCodec Tx)

/-! ## The store -/

/-- The funding transactions by temporary channel id, and the temporary ids by real ones. -/
structure FundingStore where
  fundingTxs : StringMap (List UInt8)
  channelIdMap : StringMap String

namespace FundingStore

variable (store : FundingStore)

def persistFundingTx (temp : String) (tx : Tx) : FundingStore :=
  { store with fundingTxs := store.fundingTxs.insert temp (codec.serialize tx) }

def fundingTx (temp : String) : Option Tx := (store.fundingTxs.lookup temp).bind codec.deserialize

/-- What goes wrong is ignored. -/
def removeFundingTx (temp : String) (fails : Bool) : FundingStore :=
  if fails then store else { store with fundingTxs := store.fundingTxs.erase temp }

def recordChannelIdMap (real temp : String) (fails : Bool) : FundingStore :=
  if fails then store else { store with channelIdMap := store.channelIdMap.insert real temp }

def tempIdFor (real : String) : Option String := store.channelIdMap.lookup real

def removeChannelIdMap (real : String) (fails : Bool) : FundingStore :=
  if fails then store else { store with channelIdMap := store.channelIdMap.erase real }

@[simp] theorem lookup_persistFundingTx (temp k : String) (tx : Tx) :
    (store.persistFundingTx codec temp tx).fundingTxs.lookup k =
      if k = temp then some (codec.serialize tx) else store.fundingTxs.lookup k :=
  StringMap.lookup_insert_eq _ _ _ _

@[simp] theorem lookup_removeFundingTx (temp k : String) (fails : Bool) :
    (store.removeFundingTx temp fails).fundingTxs.lookup k =
      if fails = false ∧ k = temp then none else store.fundingTxs.lookup k := by
  cases fails with
  | true => simp [removeFundingTx]
  | false => simpa [removeFundingTx] using StringMap.lookup_erase_eq _ _ _

@[simp] theorem lookup_recordChannelIdMap (real temp k : String) (fails : Bool) :
    (store.recordChannelIdMap real temp fails).channelIdMap.lookup k =
      if fails = false ∧ k = real then some temp else store.channelIdMap.lookup k := by
  cases fails with
  | true => simp [recordChannelIdMap]
  | false => simpa [recordChannelIdMap] using StringMap.lookup_insert_eq _ _ _ _

@[simp] theorem lookup_removeChannelIdMap (real k : String) (fails : Bool) :
    (store.removeChannelIdMap real fails).channelIdMap.lookup k =
      if fails = false ∧ k = real then none else store.channelIdMap.lookup k := by
  cases fails with
  | true => simp [removeChannelIdMap]
  | false => simpa [removeChannelIdMap] using StringMap.lookup_erase_eq _ _ _

@[simp] theorem channelIdMap_removeFundingTx (temp : String) (fails : Bool) :
    (store.removeFundingTx temp fails).channelIdMap = store.channelIdMap := by
  cases fails <;> rfl

@[simp] theorem fundingTxs_recordChannelIdMap (real temp : String) (fails : Bool) :
    (store.recordChannelIdMap real temp fails).fundingTxs = store.fundingTxs := by
  cases fails <;> rfl

@[simp] theorem fundingTxs_removeChannelIdMap (real : String) (fails : Bool) :
    (store.removeChannelIdMap real fails).fundingTxs = store.fundingTxs := by
  cases fails <;> rfl

end FundingStore

/-! ## The handlers -/

/-- What the channel manager emits. The wallet builds the funding transaction, or fails to. -/
inductive LdkEvent (Tx : Type u) where
  | fundingGenerationReady (temp : String) (built : Option Tx)
  | channelPending (real : String)
  | fundingTxBroadcastSafe (temp : String)
  | channelClosed (real : String)
  | discardFunding (real : String)

/-- The next write of the event at hand, the call of the channel manager, or the hand-over to the queue. -/
inductive Handler (Tx : Type u) where
  | idle
  | persisting (temp : String) (tx : Tx)
  | notifying (temp : String) (tx : Tx)
  | recording (real temp : String)
  | persistingPending (temp : String) (tx : Tx)
  | queueing (temp : String) (tx : Tx)
  | releasing (temp : String)
  | closing (real : String)
  | discarding (real temp : String)
  | forgetting (real : String)

inductive FundingEvent (Tx : Type u) where
  | ldk (event : LdkEvent Tx)
  | proceed (nowSecs : UInt64) (fails : Bool)
  | background (event : Event Tx)

/-- The disk, the broadcasts, the event at hand, and for which temporary ids the channel manager has asked for
a transaction and which channels it has closed. -/
structure FundingNode (Tx : Type u) where
  store : FundingStore
  broadcasts : Run Tx
  handler : Handler Tx
  asked : List String
  closed : List String

namespace FundingNode

-- the temporary id of a channel, as the channel manager knows it
variable (former : String → Option String)

def start : FundingNode Tx := ⟨⟨∅, ∅⟩, .start, .idle, [], []⟩

/-- A transaction is asked for once, before the channel is closed; a discard comes after the close. -/
def emits (node : FundingNode Tx) : LdkEvent Tx → Prop
  | .fundingGenerationReady temp _ => temp ∉ node.asked ∧ ∀ real ∈ node.closed, former real ≠ some temp
  | .channelPending _ => True
  | .fundingTxBroadcastSafe temp => temp ∈ node.asked
  | .channelClosed _ => True
  | .discardFunding real => real ∈ node.closed

instance (node : FundingNode Tx) (event : LdkEvent Tx) : Decidable (node.emits former event) := by
  cases event <;> unfold emits <;> infer_instance

/-- What is read at the start of an event. -/
def handle (node : FundingNode Tx) : LdkEvent Tx → Handler Tx
  | .fundingGenerationReady temp built =>
    match built with
    | some tx => .persisting temp tx
    | none => .idle
  | .channelPending real =>
    match former real with
    | some temp => .recording real temp
    | none => .idle
  | .fundingTxBroadcastSafe temp =>
    match node.store.fundingTx codec temp with
    | some tx => .persistingPending temp tx
    | none => .idle
  | .channelClosed real => .closing real
  | .discardFunding real =>
    match node.store.tempIdFor real with
    | some temp => .discarding real temp
    | none => .idle

def begin (node : FundingNode Tx) (event : LdkEvent Tx) : FundingNode Tx :=
  { node with
    handler := node.handle codec former event
    asked := match event with
      | .fundingGenerationReady temp _ => temp :: node.asked
      | _ => node.asked
    closed := match event with
      | .channelClosed real => real :: node.closed
      | _ => node.closed }

def proceed (node : FundingNode Tx) (nowSecs : UInt64) (fails : Bool) : Option (FundingNode Tx) :=
  match node.handler with
  | .idle => none
  -- the channel manager is not notified of what could not be written
  | .persisting temp tx =>
    some (if fails then { node with handler := .idle }
      else { node with store := node.store.persistFundingTx codec temp tx, handler := .notifying temp tx })
  | .notifying _ _ => some { node with handler := .idle }
  | .recording real temp =>
    some { node with store := node.store.recordChannelIdMap real temp fails, handler := .idle }
  | .persistingPending temp tx =>
    (node.broadcasts.step codec (.persist tx nowSecs fails)).map fun broadcasts =>
      { node with broadcasts, handler := .queueing temp tx }
  | .queueing temp tx =>
    (node.broadcasts.step codec (.trySend [tx])).map fun broadcasts => { node with broadcasts, handler := .releasing temp }
  | .releasing temp => some { node with store := node.store.removeFundingTx temp fails, handler := .idle }
  | .closing real => some { node with store := node.store.removeChannelIdMap real fails, handler := .idle }
  | .discarding real temp =>
    some { node with store := node.store.removeFundingTx temp fails, handler := .forgetting real }
  | .forgetting real => some { node with store := node.store.removeChannelIdMap real fails, handler := .idle }

def step (node : FundingNode Tx) : FundingEvent Tx → Option (FundingNode Tx)
  | .ldk event =>
    match node.handler with
    | .idle => if node.emits former event then some (node.begin codec former event) else none
    | _ => none
  | .proceed nowSecs fails => node.proceed codec nowSecs fails
  | .background event =>
    (node.broadcasts.step codec event).map fun broadcasts =>
      { node with
        broadcasts
        handler := match event with
          | .restart => .idle
          | _ => node.handler }

end FundingNode

/-! ## What is promised -/

/-- The transactions the channel manager was notified of, the ids the network knows, the temporary ids whose
funding was discarded, whether every removal of the discard at hand has gone through, and the channels whose
last event of the two was handled with every removal going through. -/
structure FundingLedger (Tx : Type u) where
  notified : StringMap Tx
  accepted : List String
  discarded : List String
  clean : Bool
  safe : List String
  cleared : List String

namespace FundingLedger

variable (former : String → Option String)

def empty : FundingLedger Tx := ⟨∅, [], [], true, [], []⟩

def afterLdk (ledger : FundingLedger Tx) (node : FundingNode Tx) : LdkEvent Tx → FundingLedger Tx
  | .fundingGenerationReady _ _ | .channelClosed _ => ledger
  | .channelPending real => { ledger with cleared := ledger.cleared.filter (· ≠ real) }
  | .fundingTxBroadcastSafe temp =>
    match node.store.fundingTx codec temp with
    | some _ => ledger
    | none => { ledger with safe := temp :: ledger.safe }
  | .discardFunding real =>
    { ledger with
      discarded := (former real).toList ++ ledger.discarded
      clean := true
      cleared := match node.store.tempIdFor real with
        | some _ => ledger.cleared
        | none => real :: ledger.cleared }

def afterProceed (ledger : FundingLedger Tx) (fails : Bool) : Handler Tx → FundingLedger Tx
  | .notifying temp tx => { ledger with notified := ledger.notified.insert temp tx }
  | .releasing temp => if fails then ledger else { ledger with safe := temp :: ledger.safe }
  | .discarding _ _ => { ledger with clean := !fails }
  | .forgetting real => if ledger.clean && !fails then { ledger with cleared := real :: ledger.cleared } else ledger
  | _ => ledger

def afterBackground (ledger : FundingLedger Tx) (node : Node Tx) : Event Tx → FundingLedger Tx
  | .answer worker answer =>
    match node.task worker with
    | .sending tx _ =>
      if saysKnown answer then { ledger with accepted := codec.computeTxid tx :: ledger.accepted } else ledger
    | _ => ledger
  | _ => ledger

def after (ledger : FundingLedger Tx) (node : FundingNode Tx) : FundingEvent Tx → FundingLedger Tx
  | .ldk event => ledger.afterLdk codec former node event
  | .proceed _ fails => ledger.afterProceed fails node.handler
  | .background event => ledger.afterBackground codec node.broadcasts.node event

/-- From the notification until the network accepted the transaction or its funding was discarded. -/
def Protected (ledger : FundingLedger Tx) (temp : String) (tx : Tx) : Prop :=
  ledger.notified.lookup temp = some tx ∧ codec.computeTxid tx ∉ ledger.accepted ∧ temp ∉ ledger.discarded

end FundingLedger

structure FundingRun (Tx : Type u) where
  node : FundingNode Tx
  ledger : FundingLedger Tx

namespace FundingRun

variable (former : String → Option String)

def start : FundingRun Tx := ⟨.start, .empty⟩

def step (run : FundingRun Tx) (event : FundingEvent Tx) : Option (FundingRun Tx) :=
  (run.node.step codec former event).map (⟨·, run.ledger.after codec former run.node event⟩)

/-- The channel manager is notified of what is stored. -/
def NotifiesStored (run : FundingRun Tx) : Prop :=
  ∀ temp tx, run.node.handler = .notifying temp tx →
    run.node.store.fundingTxs.lookup temp = some (codec.serialize tx)

/-- A protected transaction is in one of the two stores. -/
def Stored (run : FundingRun Tx) : Prop :=
  ∀ temp tx, run.ledger.Protected codec temp tx →
    run.node.store.fundingTxs.lookup temp = some (codec.serialize tx) ∨
      codec.computeTxid tx ∈ run.node.broadcasts.node.pending

/-- Nothing is left behind of a funding that was broadcast, nor of one that was discarded. -/
def Cleaned (run : FundingRun Tx) : Prop :=
  (∀ temp ∈ run.ledger.safe, run.node.store.fundingTxs.lookup temp = none) ∧
    ∀ real ∈ run.ledger.cleared, run.node.store.channelIdMap.lookup real = none ∧
      ∀ temp, former real = some temp → run.node.store.fundingTxs.lookup temp = none

/-- The pending entry is written, the map leads to what is to be discarded, and no entry of a protected
transaction is given up: by an answer that does not say that it is known, or by its age. -/
def Orderly (run : FundingRun Tx) : FundingEvent Tx → Prop
  | .ldk (.discardFunding real) => ∀ temp, former real = some temp →
    run.node.store.tempIdFor real = some temp ∨ run.node.store.fundingTxs.lookup temp = none
  | .proceed _ fails =>
    match run.node.handler with
    | .notifying _ tx =>
      ∀ worker, (run.node.broadcasts.node.task worker).removes ≠ some (codec.computeTxid tx)
    | .persistingPending temp tx => run.ledger.Protected codec temp tx →
      fails = false ∨ codec.computeTxid tx ∈ run.node.broadcasts.node.pending
    | _ => True
  | .background (.answer worker answer) => ∀ temp tx sent rest, run.ledger.Protected codec temp tx →
    run.node.broadcasts.node.task worker = .sending sent rest → codec.computeTxid sent = codec.computeTxid tx →
      answer.benign = true → saysKnown answer = true
  | .background (.read fails) => ∀ temp tx nowSecs keys fresh createdAtSecs, run.ledger.Protected codec temp tx →
    run.node.broadcasts.node.task .drain = .reading nowSecs (codec.computeTxid tx) keys fresh →
      run.node.broadcasts.node.pending.visit codec nowSecs (codec.computeTxid tx) fails ≠ .stale createdAtSecs
  | _ => True

end FundingRun

/-! ## What broadcasts do to the pending entries -/

namespace Node

variable {codec} {node next : Node Tx} {event : Event Tx}

theorem mem_pending_step (hStep : node.step codec event = some next) {key : String} (hMem : key ∈ node.pending)
    (hCalm : ∀ worker, (node.task worker).removes ≠ some key) : key ∈ next.pending := by
  have hRemove : ∀ worker key' fails, (node.task worker).removes = some key' →
      key ∈ node.pending.remove key' fails := by
    intro worker key' fails hRemoves
    cases fails with
    | true => exact hMem
    | false =>
      refine Finmap.mem_erase.mpr ⟨?_, hMem⟩
      rintro rfl
      exact hCalm worker hRemoves
  cases event with
  | persist tx nowSecs fails =>
    cases hStep
    cases fails with
    | true => exact hMem
    | false => exact Finmap.mem_insert.mpr (.inr hMem)
  | trySend package =>
    cases hStep
    split <;> exact hMem
  | receive =>
    simp only [step] at hStep
    split at hStep <;> cases hStep
    exact hMem
  | broadcast i tx =>
    simp only [step] at hStep
    split at hStep <;> cases hStep
    exact hMem
  | drain nowSecs listing =>
    simp only [step] at hStep
    split at hStep
    · cases hStep
      exact hMem
    · split at hStep <;> cases hStep
      exact hMem
    · cases hStep
  | read fails =>
    simp only [step] at hStep
    split at hStep <;> cases hStep
    exact hMem
  | discard fails =>
    simp only [step] at hStep
    split at hStep <;> cases hStep
    rename_i key' nowSecs keys fresh hTask
    exact hRemove .drain key' fails (by rw [hTask]; rfl)
  | answer worker answer =>
    simp only [step] at hStep
    split at hStep <;> cases hStep
    exact hMem
  | remove worker fails =>
    simp only [step] at hStep
    split at hStep <;> cases hStep
    rename_i key' rest hTask
    exact hRemove worker key' fails (by rw [hTask]; rfl)
  | restart =>
    cases hStep
    exact hMem

variable (codec) in
/-- A removal is decided by an answer or by what a drain reads. -/
def Decides (node : Node Tx) (key : String) : Event Tx → Prop
  | .answer worker answer => (answer = .ok ∨ answer.benign = true) ∧
    ∃ tx rest, node.task worker = .sending tx rest ∧ codec.computeTxid tx = key
  | .read fails => ∃ nowSecs keys fresh, node.task .drain = .reading nowSecs key keys fresh ∧
    (node.pending.visit codec nowSecs key fails = .corrupt ∨
      ∃ createdAtSecs, node.pending.visit codec nowSecs key fails = .stale createdAtSecs)
  | _ => False

theorem removes_step (hStep : node.step codec event = some next) {worker : Worker} {key : String}
    (hRemoves : (next.task worker).removes = some key) :
    (node.task worker).removes = some key ∨ node.Decides codec key event := by
  have hCalm : ∀ (base : Node Tx) w task, base.task = node.task → task.removes = none →
      ((base.setTask w task).task worker).removes = some key → (node.task worker).removes = some key := by
    intro base w task hBase hTask hNext
    rw [setTask_task] at hNext
    split at hNext
    · rw [hTask] at hNext
      cases hNext
    · rw [← hBase]
      exact hNext
  cases event with
  | persist tx nowSecs fails =>
    cases hStep
    exact .inl hRemoves
  | trySend package =>
    cases hStep
    left
    split at hRemoves <;> exact hRemoves
  | receive =>
    simp only [step] at hStep
    split at hStep <;> cases hStep
    exact .inl (hCalm { node with queue := _ } _ _ rfl (Task.removes_sendAll _) hRemoves)
  | broadcast i tx =>
    simp only [step] at hStep
    split at hStep <;> cases hStep
    exact .inl (hCalm node _ _ rfl rfl hRemoves)
  | drain nowSecs listing =>
    simp only [step] at hStep
    split at hStep
    · cases hStep
      exact .inl hRemoves
    · split at hStep <;> cases hStep
      exact .inl (hCalm node _ _ rfl (Task.removes_readAll _ _ _) hRemoves)
    · cases hStep
  | read fails =>
    simp only [step] at hStep
    split at hStep <;> cases hStep
    rename_i nowSecs key' keys fresh hTask
    cases hVisit : node.pending.visit codec nowSecs key' fails with
    | failed | missing | fresh tx =>
      rw [hVisit] at hRemoves
      exact .inl (hCalm node _ _ rfl (Task.removes_readAll _ _ _) hRemoves)
    | corrupt =>
      rw [hVisit, setTask_task] at hRemoves
      split at hRemoves
      · cases hRemoves
        exact .inr ⟨nowSecs, keys, fresh, hTask, .inl hVisit⟩
      · exact .inl hRemoves
    | stale createdAtSecs =>
      rw [hVisit, setTask_task] at hRemoves
      split at hRemoves
      · cases hRemoves
        exact .inr ⟨nowSecs, keys, fresh, hTask, .inr ⟨createdAtSecs, hVisit⟩⟩
      · exact .inl hRemoves
  | discard fails =>
    simp only [step] at hStep
    split at hStep <;> cases hStep
    exact .inl (hCalm { node with pending := _ } _ _ rfl (Task.removes_readAll _ _ _) hRemoves)
  | answer w answer =>
    simp only [step] at hStep
    split at hStep <;> cases hStep
    rename_i tx rest hTask
    rw [setTask_task] at hRemoves
    split at hRemoves
    · rw [answered] at hRemoves
      cases hOutcome : broadcastTransaction answer with
      | accepted =>
        rw [hOutcome] at hRemoves
        exact .inr ⟨.inl (broadcastTransaction_accepted hOutcome), tx, rest, hTask, Option.some.inj hRemoves⟩
      | alreadyKnown =>
        rw [hOutcome] at hRemoves
        exact .inr ⟨.inr (broadcastTransaction_alreadyKnown.mp hOutcome), tx, rest, hTask, Option.some.inj hRemoves⟩
      | failed detail =>
        rw [hOutcome, Task.removes_sendAll] at hRemoves
        cases hRemoves
    · exact .inl hRemoves
  | remove w fails =>
    simp only [step] at hStep
    split at hStep <;> cases hStep
    exact .inl (hCalm { node with pending := _ } _ _ rfl (Task.removes_sendAll _) hRemoves)
  | restart =>
    cases hStep
    cases hRemoves

end Node

/-! ## The invariant -/

namespace FundingRun

variable (former : String → Option String)

/-- What the event at hand relies on. -/
def Handling (run : FundingRun Tx) : Prop :=
  match run.node.handler with
  | .idle | .closing _ => True
  | .persisting temp _ => temp ∈ run.node.asked ∧ run.ledger.notified.lookup temp = none ∧ temp ∉ run.ledger.safe ∧
    ∀ real ∈ run.node.closed, former real ≠ some temp
  | .notifying temp tx => temp ∈ run.node.asked ∧ run.node.store.fundingTxs.lookup temp = some (codec.serialize tx)
  | .recording real temp => former real = some temp ∧ real ∉ run.ledger.cleared
  | .persistingPending temp tx => temp ∈ run.node.asked ∧ run.node.store.fundingTx codec temp = some tx
  | .queueing temp _ | .releasing temp => temp ∈ run.node.asked ∧ ∀ tx, run.ledger.Protected codec temp tx →
    codec.computeTxid tx ∈ run.node.broadcasts.node.pending
  | .discarding real temp => former real = some temp ∧ temp ∈ run.ledger.discarded ∧ real ∈ run.node.closed
  | .forgetting real => real ∈ run.node.closed ∧ (run.ledger.clean = true →
    ∀ temp, former real = some temp → run.node.store.fundingTxs.lookup temp = none)

structure Inv (run : FundingRun Tx) : Prop where
  broadcasts : run.node.broadcasts.Inv codec
  entries : ∀ temp bytes, run.node.store.fundingTxs.lookup temp = some bytes → ∃ tx, bytes = codec.serialize tx
  mapped : ∀ real temp, run.node.store.channelIdMap.lookup real = some temp → former real = some temp
  asked : ∀ temp tx, run.ledger.notified.lookup temp = some tx → temp ∈ run.node.asked
  same : ∀ temp tx bytes, run.ledger.notified.lookup temp = some tx →
    run.node.store.fundingTxs.lookup temp = some bytes → bytes = codec.serialize tx
  stored : run.Stored codec
  calm : ∀ temp tx, run.ledger.Protected codec temp tx →
    ∀ worker, (run.node.broadcasts.node.task worker).removes ≠ some (codec.computeTxid tx)
  safe : ∀ temp ∈ run.ledger.safe, temp ∈ run.node.asked ∧ run.node.store.fundingTxs.lookup temp = none
  cleared : ∀ real ∈ run.ledger.cleared, real ∈ run.node.closed ∧ run.node.store.channelIdMap.lookup real = none ∧
    ∀ temp, former real = some temp → run.node.store.fundingTxs.lookup temp = none
  handling : run.Handling codec former

theorem inv_start : (start : FundingRun Tx).Inv codec former := by
  have hNothing : ∀ temp tx, ¬ (FundingLedger.empty : FundingLedger Tx).Protected codec temp tx := by
    rintro temp tx ⟨hNotified, -⟩
    cases hNotified
  refine ⟨Run.inv_start codec, ?_, ?_, ?_, ?_, ?_, ?_, ?_, ?_, trivial⟩
  · intro temp bytes hLookup
    cases hLookup
  · intro real temp hLookup
    cases hLookup
  · intro temp tx hNotified
    cases hNotified
  · intro temp tx bytes hNotified
    cases hNotified
  · intro temp tx hProtected
    exact absurd hProtected (hNothing temp tx)
  · intro temp tx hProtected
    exact absurd hProtected (hNothing temp tx)
  · intro temp hTemp
    cases hTemp
  · intro real hReal
    cases hReal

variable {codec former} {node : FundingNode Tx} {ledger : FundingLedger Tx}

/-! ## Events -/

theorem inv_generationReady (h : Inv codec former ⟨node, ledger⟩) {temp : String} {built : Option Tx}
    (hEmits : node.emits former (.fundingGenerationReady temp built)) :
    Inv codec former ⟨node.begin codec former (.fundingGenerationReady temp built), ledger⟩ := by
  obtain ⟨hAsked, hClosed⟩ := hEmits
  have hSafe : ∀ temp' ∈ ledger.safe, temp' ∈ temp :: node.asked ∧ node.store.fundingTxs.lookup temp' = none :=
    fun temp' hMem => ⟨List.mem_cons_of_mem _ (h.safe temp' hMem).1, (h.safe temp' hMem).2⟩
  refine ⟨h.broadcasts, h.entries, h.mapped, ?_, h.same, h.stored, h.calm, hSafe, h.cleared, ?_⟩
  · intro temp' tx hNotified
    exact List.mem_cons_of_mem _ (h.asked temp' tx hNotified)
  · cases built with
    | none => trivial
    | some tx =>
      refine ⟨List.mem_cons_self, ?_, ?_, hClosed⟩
      · cases hNotified : ledger.notified.lookup temp with
        | none => rfl
        | some tx' => exact absurd (h.asked temp tx' hNotified) hAsked
      · intro hMem
        exact hAsked (h.safe temp hMem).1

theorem inv_pending (h : Inv codec former ⟨node, ledger⟩) (real : String) :
    Inv codec former ⟨node.begin codec former (.channelPending real),
      ledger.afterLdk codec former node (.channelPending real)⟩ := by
  refine ⟨h.broadcasts, h.entries, h.mapped, h.asked, h.same, h.stored, h.calm, h.safe, ?_, ?_⟩
  · intro real' hMem
    exact h.cleared real' (List.mem_of_mem_filter hMem)
  · cases hFormer : former real with
    | none =>
      simp only [Handling, FundingNode.begin, FundingNode.handle, hFormer]
    | some temp =>
      simp only [Handling, FundingNode.begin, FundingNode.handle, hFormer]
      refine ⟨trivial, ?_⟩
      simp [FundingLedger.afterLdk]

theorem inv_broadcastSafe (h : Inv codec former ⟨node, ledger⟩) {temp : String} (hAsked : temp ∈ node.asked) :
    Inv codec former ⟨node.begin codec former (.fundingTxBroadcastSafe temp),
      ledger.afterLdk codec former node (.fundingTxBroadcastSafe temp)⟩ := by
  cases hTx : node.store.fundingTx codec temp with
  | some tx =>
    simp only [FundingLedger.afterLdk, hTx]
    refine ⟨h.broadcasts, h.entries, h.mapped, h.asked, h.same, h.stored, h.calm, h.safe, h.cleared, ?_⟩
    simp only [Handling, FundingNode.begin, FundingNode.handle, hTx]
    exact ⟨hAsked, trivial⟩
  | none =>
    simp only [FundingLedger.afterLdk, hTx]
    refine ⟨h.broadcasts, h.entries, h.mapped, h.asked, h.same, h.stored, h.calm, ?_, h.cleared, ?_⟩
    · refine List.forall_mem_cons.mpr ⟨⟨hAsked, ?_⟩, h.safe⟩
      cases hLookup : node.store.fundingTxs.lookup temp with
      | none => exact hLookup
      | some bytes =>
        obtain ⟨tx, rfl⟩ := h.entries temp bytes hLookup
        simp [FundingStore.fundingTx, hLookup, codec.deserialize_serialize] at hTx
    · simp only [Handling, FundingNode.begin, FundingNode.handle, hTx]

theorem inv_closed (h : Inv codec former ⟨node, ledger⟩) (real : String) :
    Inv codec former ⟨node.begin codec former (.channelClosed real), ledger⟩ := by
  refine ⟨h.broadcasts, h.entries, h.mapped, h.asked, h.same, h.stored, h.calm, h.safe, ?_, trivial⟩
  intro real' hMem
  obtain ⟨hClosed, hRest⟩ := h.cleared real' hMem
  exact ⟨List.mem_cons_of_mem _ hClosed, hRest⟩

theorem inv_discard (h : Inv codec former ⟨node, ledger⟩) {real : String} (hClosed : real ∈ node.closed)
    (hFound : ∀ temp, former real = some temp →
      node.store.tempIdFor real = some temp ∨ node.store.fundingTxs.lookup temp = none) :
    Inv codec former ⟨node.begin codec former (.discardFunding real),
      ledger.afterLdk codec former node (.discardFunding real)⟩ := by
  have hShrinks : ∀ temp tx, (ledger.afterLdk codec former node (.discardFunding real)).Protected codec temp tx →
      ledger.Protected codec temp tx := by
    rintro temp tx ⟨hNotified, hAccepted, hDiscarded⟩
    exact ⟨hNotified, hAccepted, fun hMem => hDiscarded (List.mem_append_right _ hMem)⟩
  refine ⟨h.broadcasts, h.entries, h.mapped, h.asked, h.same, ?_, ?_, h.safe, ?_, ?_⟩
  · intro temp tx hProtected
    exact h.stored temp tx (hShrinks temp tx hProtected)
  · intro temp tx hProtected
    exact h.calm temp tx (hShrinks temp tx hProtected)
  · intro real' hMem
    cases hTemp : node.store.tempIdFor real with
    | some temp =>
      simp only [FundingLedger.afterLdk, hTemp] at hMem
      exact h.cleared real' hMem
    | none =>
      simp only [FundingLedger.afterLdk, hTemp] at hMem
      rcases List.mem_cons.mp hMem with rfl | hMem
      · refine ⟨hClosed, hTemp, fun temp hFormer => ?_⟩
        rcases hFound temp hFormer with hMap | hNone
        · rw [hTemp] at hMap
          cases hMap
        · exact hNone
      · exact h.cleared real' hMem
  · cases hTemp : node.store.tempIdFor real with
    | none => simp only [Handling, FundingNode.begin, FundingNode.handle, hTemp]
    | some temp =>
      have hFormer : former real = some temp := h.mapped real temp hTemp
      simp only [Handling, FundingNode.begin, FundingNode.handle, hTemp]
      exact ⟨hFormer, List.mem_append_left _ (by simp [hFormer]), hClosed⟩

/-! ## Writes -/

theorem inv_idle (h : Inv codec former ⟨node, ledger⟩) : Inv codec former ⟨{ node with handler := .idle }, ledger⟩ :=
  { h with handling := trivial }

theorem inv_persist (h : Inv codec former ⟨node, ledger⟩) {temp : String} {tx : Tx}
    (hHandler : node.handler = .persisting temp tx) : Inv codec former
      ⟨{ node with store := node.store.persistFundingTx codec temp tx, handler := .notifying temp tx }, ledger⟩ := by
  have hHandling := h.handling
  simp only [Handling, hHandler] at hHandling
  obtain ⟨hAsked, hUnknown, hNotSafe, hOpen⟩ := hHandling
  have hOther : ∀ temp' tx', ledger.notified.lookup temp' = some tx' → temp' ≠ temp := by
    rintro temp' tx' hNotified rfl
    rw [hUnknown] at hNotified
    cases hNotified
  refine ⟨h.broadcasts, ?_, h.mapped, h.asked, ?_, ?_, h.calm, ?_, ?_, ⟨hAsked, ?_⟩⟩
  · intro temp' bytes hLookup
    rw [FundingStore.lookup_persistFundingTx] at hLookup
    split at hLookup
    · cases hLookup
      exact ⟨tx, rfl⟩
    · exact h.entries temp' bytes hLookup
  · intro temp' tx' bytes hNotified hLookup
    rw [FundingStore.lookup_persistFundingTx, if_neg (hOther temp' tx' hNotified)] at hLookup
    exact h.same temp' tx' bytes hNotified hLookup
  · intro temp' tx' hProtected
    rw [FundingStore.lookup_persistFundingTx, if_neg (hOther temp' tx' hProtected.1)]
    exact h.stored temp' tx' hProtected
  · intro temp' hSafe
    refine ⟨(h.safe temp' hSafe).1, ?_⟩
    rw [FundingStore.lookup_persistFundingTx, if_neg]
    · exact (h.safe temp' hSafe).2
    · rintro rfl
      exact hNotSafe hSafe
  · intro real hCleared
    obtain ⟨hClosed, hMap, hGone⟩ := h.cleared real hCleared
    refine ⟨hClosed, hMap, fun temp' hFormer => ?_⟩
    rw [FundingStore.lookup_persistFundingTx, if_neg]
    · exact hGone temp' hFormer
    · rintro rfl
      exact hOpen real hClosed hFormer
  · rw [FundingStore.lookup_persistFundingTx, if_pos rfl]

theorem inv_notify (h : Inv codec former ⟨node, ledger⟩) {temp : String} {tx : Tx}
    (hHandler : node.handler = .notifying temp tx)
    (hNew : ∀ worker, (node.broadcasts.node.task worker).removes ≠ some (codec.computeTxid tx)) :
    Inv codec former ⟨{ node with handler := .idle }, { ledger with notified := ledger.notified.insert temp tx }⟩ := by
  have hHandling := h.handling
  simp only [Handling, hHandler] at hHandling
  obtain ⟨hAsked, hLookup⟩ := hHandling
  have hEither : ∀ {P : String → Tx → Prop} temp' tx', P temp tx →
      (∀ temp' tx', ledger.notified.lookup temp' = some tx' → P temp' tx') →
        (ledger.notified.insert temp tx).lookup temp' = some tx' → P temp' tx' := by
    intro P temp' tx' hHere hOld hNotified
    rw [StringMap.lookup_insert_eq] at hNotified
    split at hNotified
    · rename_i hTemp
      cases hNotified
      exact hTemp ▸ hHere
    · exact hOld temp' tx' hNotified
  refine ⟨h.broadcasts, h.entries, h.mapped, ?_, ?_, ?_, ?_, h.safe, h.cleared, trivial⟩
  · intro temp' tx' hNotified
    exact hEither (P := fun temp _ => temp ∈ node.asked) temp' tx' hAsked h.asked hNotified
  · intro temp' tx' bytes hNotified
    refine hEither (P := fun temp tx => node.store.fundingTxs.lookup temp = some bytes → bytes = codec.serialize tx)
      temp' tx' ?_ (fun temp tx hOld => h.same temp tx bytes hOld) hNotified
    intro hBytes
    rw [hLookup] at hBytes
    exact (Option.some.inj hBytes).symm
  · rintro temp' tx' ⟨hNotified, hKept⟩
    refine hEither (P := fun temp tx => codec.computeTxid tx ∉ ledger.accepted ∧ temp ∉ ledger.discarded →
      node.store.fundingTxs.lookup temp = some (codec.serialize tx) ∨
        codec.computeTxid tx ∈ node.broadcasts.node.pending)
      temp' tx' ?_ (fun temp tx hOld hKept => h.stored temp tx ⟨hOld, hKept⟩) hNotified hKept
    exact fun _ => .inl hLookup
  · rintro temp' tx' ⟨hNotified, hKept⟩
    refine hEither (P := fun temp tx => codec.computeTxid tx ∉ ledger.accepted ∧ temp ∉ ledger.discarded →
      ∀ worker, (node.broadcasts.node.task worker).removes ≠ some (codec.computeTxid tx))
      temp' tx' ?_ (fun temp tx hOld hKept => h.calm temp tx ⟨hOld, hKept⟩) hNotified hKept
    exact fun _ => hNew

theorem inv_record (h : Inv codec former ⟨node, ledger⟩) {real temp : String}
    (hHandler : node.handler = .recording real temp) (fails : Bool) : Inv codec former
      ⟨{ node with store := node.store.recordChannelIdMap real temp fails, handler := .idle }, ledger⟩ := by
  have hHandling := h.handling
  simp only [Handling, hHandler] at hHandling
  obtain ⟨hFormer, hNot⟩ := hHandling
  refine ⟨h.broadcasts, ?_, ?_, h.asked, ?_, ?_, h.calm, ?_, ?_, trivial⟩
  · simpa using h.entries
  · intro real' temp' hLookup
    rw [FundingStore.lookup_recordChannelIdMap] at hLookup
    split at hLookup
    · rename_i hReal
      cases hLookup
      exact hReal.2 ▸ hFormer
    · exact h.mapped real' temp' hLookup
  · simpa using h.same
  · simpa [Stored] using h.stored
  · simpa using h.safe
  · intro real' hCleared
    have hReal : ¬ (fails = false ∧ real' = real) := by
      rintro ⟨-, rfl⟩
      exact hNot hCleared
    rw [FundingStore.lookup_recordChannelIdMap, if_neg hReal, FundingStore.fundingTxs_recordChannelIdMap]
    exact h.cleared real' hCleared

theorem inv_unmap (h : Inv codec former ⟨node, ledger⟩) (real : String) (fails : Bool) : Inv codec former
      ⟨{ node with store := node.store.removeChannelIdMap real fails, handler := .idle }, ledger⟩ := by
  refine ⟨h.broadcasts, ?_, ?_, h.asked, ?_, ?_, h.calm, ?_, ?_, trivial⟩
  · simpa using h.entries
  · intro real' temp hLookup
    rw [FundingStore.lookup_removeChannelIdMap] at hLookup
    split at hLookup
    · cases hLookup
    · exact h.mapped real' temp hLookup
  · simpa using h.same
  · simpa [Stored] using h.stored
  · simpa using h.safe
  · intro real' hCleared
    obtain ⟨hClosed, hMap, hGone⟩ := h.cleared real' hCleared
    rw [FundingStore.lookup_removeChannelIdMap, FundingStore.fundingTxs_removeChannelIdMap, hMap]
    exact ⟨hClosed, ite_self none, hGone⟩

/-- A removal does not take the only copy of a protected transaction, and nothing that is promised needs it. -/
theorem inv_remove (h : Inv codec former ⟨node, ledger⟩) (temp : String) (fails : Bool)
    (hCopy : ∀ tx, ledger.Protected codec temp tx → codec.computeTxid tx ∈ node.broadcasts.node.pending) :
    Inv codec former ⟨{ node with store := node.store.removeFundingTx temp fails, handler := .idle }, ledger⟩ := by
  have hShrinks : ∀ temp' bytes, (node.store.removeFundingTx temp fails).fundingTxs.lookup temp' = some bytes →
      node.store.fundingTxs.lookup temp' = some bytes := by
    intro temp' bytes hLookup
    rw [FundingStore.lookup_removeFundingTx] at hLookup
    split at hLookup
    · cases hLookup
    · exact hLookup
  have hStays : ∀ temp', node.store.fundingTxs.lookup temp' = none →
      (node.store.removeFundingTx temp fails).fundingTxs.lookup temp' = none := by
    intro temp' hNone
    rw [FundingStore.lookup_removeFundingTx, hNone, ite_self]
  refine ⟨h.broadcasts, ?_, ?_, h.asked, ?_, ?_, h.calm, ?_, ?_, trivial⟩
  · exact fun temp' bytes hLookup => h.entries temp' bytes (hShrinks temp' bytes hLookup)
  · simpa using h.mapped
  · exact fun temp' tx bytes hNotified hLookup => h.same temp' tx bytes hNotified (hShrinks temp' bytes hLookup)
  · intro temp' tx hProtected
    rw [FundingStore.lookup_removeFundingTx]
    split
    · rename_i hTemp
      exact .inr (hCopy tx (hTemp.2 ▸ hProtected))
    · exact h.stored temp' tx hProtected
  · exact fun temp' hSafe => ⟨(h.safe temp' hSafe).1, hStays temp' (h.safe temp' hSafe).2⟩
  · intro real hCleared
    obtain ⟨hClosed, hMap, hGone⟩ := h.cleared real hCleared
    rw [FundingStore.channelIdMap_removeFundingTx]
    exact ⟨hClosed, hMap, fun temp' hFormer => hStays temp' (hGone temp' hFormer)⟩

theorem inv_release (h : Inv codec former ⟨node, ledger⟩) {temp : String} (hHandler : node.handler = .releasing temp)
    (fails : Bool) : Inv codec former
      ⟨{ node with store := node.store.removeFundingTx temp fails, handler := .idle },
        ledger.afterProceed fails (.releasing temp)⟩ := by
  have hHandling := h.handling
  simp only [Handling, hHandler] at hHandling
  obtain ⟨hAsked, hCopy⟩ := hHandling
  have hRemoved := inv_remove h temp fails hCopy
  cases fails with
  | true => exact hRemoved
  | false =>
    refine { hRemoved with safe := List.forall_mem_cons.mpr ⟨⟨hAsked, ?_⟩, hRemoved.safe⟩ }
    rw [FundingStore.lookup_removeFundingTx, if_pos ⟨rfl, rfl⟩]

theorem inv_discarding (h : Inv codec former ⟨node, ledger⟩) {real temp : String}
    (hHandler : node.handler = .discarding real temp) (fails : Bool) : Inv codec former
      ⟨{ node with store := node.store.removeFundingTx temp fails, handler := .forgetting real },
        { ledger with clean := !fails }⟩ := by
  have hHandling := h.handling
  simp only [Handling, hHandler] at hHandling
  obtain ⟨hFormer, hDiscarded, hClosed⟩ := hHandling
  have hRemoved := inv_remove h temp fails fun tx hProtected => absurd hDiscarded hProtected.2.2
  refine { hRemoved with handling := ⟨hClosed, fun hClean temp' hFormer' => ?_⟩ }
  have hTemp : temp' = temp := by
    rw [hFormer] at hFormer'
    exact (Option.some.inj hFormer').symm
  have hMade : fails = false := by simpa using hClean
  rw [FundingStore.lookup_removeFundingTx, if_pos ⟨hMade, hTemp⟩]

theorem inv_forget (h : Inv codec former ⟨node, ledger⟩) {real : String} (hHandler : node.handler = .forgetting real)
    (fails : Bool) : Inv codec former
      ⟨{ node with store := node.store.removeChannelIdMap real fails, handler := .idle },
        ledger.afterProceed fails (.forgetting real)⟩ := by
  have hHandling := h.handling
  simp only [Handling, hHandler] at hHandling
  obtain ⟨hClosed, hGone⟩ := hHandling
  have hUnmapped := inv_unmap h real fails
  rw [FundingLedger.afterProceed]
  split
  · rename_i hDone
    rw [Bool.and_eq_true] at hDone
    have hMade : fails = false := by simpa using hDone.2
    refine { hUnmapped with cleared := List.forall_mem_cons.mpr ⟨⟨hClosed, ?_, ?_⟩, hUnmapped.cleared⟩ }
    · rw [FundingStore.lookup_removeChannelIdMap, if_pos ⟨hMade, rfl⟩]
    · rw [FundingStore.fundingTxs_removeChannelIdMap]
      exact hGone hDone.1
  · exact hUnmapped

theorem inv_handOver (h : Inv codec former ⟨node, ledger⟩) {temp : String} {tx : Tx}
    (hHandler : node.handler = .persistingPending temp tx) {nowSecs : UInt64} {fails : Bool} {broadcasts : Run Tx}
    (hWritten : ledger.Protected codec temp tx →
      fails = false ∨ codec.computeTxid tx ∈ node.broadcasts.node.pending)
    (hStep : node.broadcasts.step codec (.persist tx nowSecs fails) = some broadcasts) :
    Inv codec former ⟨{ node with broadcasts, handler := .queueing temp tx }, ledger⟩ := by
  have hHandling := h.handling
  simp only [Handling, hHandler] at hHandling
  obtain ⟨hAsked, hRead⟩ := hHandling
  have hBroadcasts := Run.inv_step codec h.broadcasts hStep
  cases hStep
  have hStays : ∀ key, key ∈ node.broadcasts.node.pending →
      key ∈ node.broadcasts.node.pending.persist codec tx nowSecs fails := by
    intro key hMem
    cases fails with
    | true => exact hMem
    | false => exact Finmap.mem_insert.mpr (.inr hMem)
  refine ⟨hBroadcasts, h.entries, h.mapped, h.asked, h.same, ?_, h.calm, h.safe, h.cleared, hAsked, ?_⟩
  · intro temp' tx' hProtected
    exact (h.stored temp' tx' hProtected).imp_right (hStays _)
  · intro tx' hProtected
    -- what was read is what the channel manager was notified of
    have hSame : tx' = tx := by
      obtain ⟨bytes, hLookup, hDecoded⟩ := Option.bind_eq_some_iff.mp hRead
      rw [h.same temp tx' bytes hProtected.1 hLookup, codec.deserialize_serialize] at hDecoded
      exact Option.some.inj hDecoded
    subst hSame
    rcases hWritten hProtected with rfl | hMem
    · exact Finmap.mem_insert.mpr (.inl rfl)
    · exact hStays _ hMem

theorem inv_queue (h : Inv codec former ⟨node, ledger⟩) {temp : String} {tx : Tx}
    (hHandler : node.handler = .queueing temp tx) {broadcasts : Run Tx}
    (hStep : node.broadcasts.step codec (.trySend [tx]) = some broadcasts) :
    Inv codec former ⟨{ node with broadcasts, handler := .releasing temp }, ledger⟩ := by
  have hHandling := h.handling
  simp only [Handling, hHandler] at hHandling
  have hBroadcasts := Run.inv_step codec h.broadcasts hStep
  obtain ⟨next, hNext, rfl⟩ := Option.map_eq_some_iff.mp hStep
  have hSame : next.pending = node.broadcasts.node.pending ∧ next.task = node.broadcasts.node.task := by
    simp only [Node.step, Option.some.injEq] at hNext
    subst hNext
    split <;> exact ⟨rfl, rfl⟩
  refine ⟨hBroadcasts, h.entries, h.mapped, h.asked, h.same, ?_, ?_, h.safe, h.cleared, hHandling.1, ?_⟩
  · intro temp' tx' hProtected
    rw [hSame.1]
    exact h.stored temp' tx' hProtected
  · intro temp' tx' hProtected
    rw [hSame.2]
    exact h.calm temp' tx' hProtected
  · intro tx' hProtected
    rw [hSame.1]
    exact hHandling.2 tx' hProtected

theorem inv_proceed (h : Inv codec former ⟨node, ledger⟩) {nowSecs : UInt64} {fails : Bool} {next : FundingNode Tx}
    (hOrderly : Orderly codec former ⟨node, ledger⟩ (.proceed nowSecs fails))
    (hNext : node.proceed codec nowSecs fails = some next) :
    Inv codec former ⟨next, ledger.afterProceed fails node.handler⟩ := by
  unfold FundingNode.proceed at hNext
  cases hHandler : node.handler with
  | idle =>
    rw [hHandler] at hNext
    cases hNext
  | persisting temp tx =>
    rw [hHandler] at hNext
    cases hNext
    cases fails with
    | true => exact inv_idle h
    | false => exact inv_persist h hHandler
  | notifying temp tx =>
    rw [hHandler] at hNext
    cases hNext
    simp only [Orderly, hHandler] at hOrderly
    exact inv_notify h hHandler hOrderly
  | recording real temp =>
    rw [hHandler] at hNext
    cases hNext
    exact inv_record h hHandler fails
  | persistingPending temp tx =>
    rw [hHandler] at hNext
    obtain ⟨broadcasts, hStep, rfl⟩ := Option.map_eq_some_iff.mp hNext
    simp only [Orderly, hHandler] at hOrderly
    exact inv_handOver h hHandler hOrderly hStep
  | queueing temp tx =>
    rw [hHandler] at hNext
    obtain ⟨broadcasts, hStep, rfl⟩ := Option.map_eq_some_iff.mp hNext
    exact inv_queue h hHandler hStep
  | releasing temp =>
    rw [hHandler] at hNext
    cases hNext
    exact inv_release h hHandler fails
  | closing real =>
    rw [hHandler] at hNext
    cases hNext
    exact inv_unmap h real fails
  | discarding real temp =>
    rw [hHandler] at hNext
    cases hNext
    exact inv_discarding h hHandler fails
  | forgetting real =>
    rw [hHandler] at hNext
    cases hNext
    exact inv_forget h hHandler fails

/-! ## Beside the handlers -/

variable (codec) in
theorem afterBackground_eq (ledger : FundingLedger Tx) (node : Node Tx) (event : Event Tx) :
    ∃ accepted, ledger.afterBackground codec node event = { ledger with accepted } ∧
      ∀ txid ∈ ledger.accepted, txid ∈ accepted := by
  cases event with
  | answer worker answer =>
    simp only [FundingLedger.afterBackground]
    split
    · split
      · exact ⟨_, rfl, fun txid hMem => List.mem_cons_of_mem _ hMem⟩
      · exact ⟨_, rfl, fun txid hMem => hMem⟩
    · exact ⟨_, rfl, fun txid hMem => hMem⟩
  | _ => exact ⟨_, rfl, fun txid hMem => hMem⟩

theorem not_decides (h : Inv codec former ⟨node, ledger⟩) {event : Event Tx}
    (hOrderly : Orderly codec former ⟨node, ledger⟩ (.background event)) (temp : String) (tx : Tx)
    (hProtected : (ledger.afterBackground codec node.broadcasts.node event).Protected codec temp tx)
    (hBefore : ledger.Protected codec temp tx) : ¬ node.broadcasts.node.Decides codec (codec.computeTxid tx) event := by
  intro hDecides
  cases event with
  | answer worker answer =>
    obtain ⟨hSuccess, sent, rest, hTask, hTxid⟩ := hDecides
    have hKnown : saysKnown answer = true := by
      rcases hSuccess with rfl | hBenign
      · rfl
      · exact hOrderly temp tx sent rest hBefore hTask hTxid hBenign
    refine hProtected.2.1 ?_
    simp [FundingLedger.afterBackground, hTask, hKnown, hTxid]
  | read fails =>
    obtain ⟨nowSecs, keys, fresh, hTask, hVisit⟩ := hDecides
    rcases hVisit with hCorrupt | ⟨createdAtSecs, hStale⟩
    · have hSound := h.broadcasts.kept.visit_sound nowSecs (codec.computeTxid tx) fails
      rw [hCorrupt] at hSound
      exact hSound
    · exact hOrderly temp tx nowSecs keys fresh createdAtSecs hBefore hTask hStale
  | _ => exact hDecides

theorem inv_background (h : Inv codec former ⟨node, ledger⟩) {event : Event Tx} {broadcasts : Run Tx}
    (hOrderly : Orderly codec former ⟨node, ledger⟩ (.background event))
    (hStep : node.broadcasts.step codec event = some broadcasts) {handler : Handler Tx}
    (hHandler : handler = .idle ∨ handler = node.handler) :
    Inv codec former ⟨{ node with broadcasts, handler }, ledger.afterBackground codec node.broadcasts.node event⟩ := by
  have hBroadcasts := Run.inv_step codec h.broadcasts hStep
  obtain ⟨next, hNext, rfl⟩ := Option.map_eq_some_iff.mp hStep
  have hDecides := not_decides h hOrderly
  obtain ⟨accepted, hLedger, hGrows⟩ := afterBackground_eq codec ledger node.broadcasts.node event
  rw [hLedger] at hDecides ⊢
  have hShrinks : ∀ temp tx, ({ ledger with accepted } : FundingLedger Tx).Protected codec temp tx →
      ledger.Protected codec temp tx := by
    rintro temp tx ⟨hNotified, hAccepted, hDiscarded⟩
    exact ⟨hNotified, fun hMem => hAccepted (hGrows _ hMem), hDiscarded⟩
  have hStays : ∀ temp tx, ledger.Protected codec temp tx →
      codec.computeTxid tx ∈ node.broadcasts.node.pending → codec.computeTxid tx ∈ next.pending :=
    fun temp tx hProtected hMem => Node.mem_pending_step hNext hMem (h.calm temp tx hProtected)
  refine ⟨hBroadcasts, h.entries, h.mapped, h.asked, h.same, ?_, ?_, h.safe, h.cleared, ?_⟩
  · intro temp tx hProtected
    have hBefore := hShrinks temp tx hProtected
    exact (h.stored temp tx hBefore).imp_right (hStays temp tx hBefore)
  · intro temp tx hProtected worker hRemoves
    have hBefore := hShrinks temp tx hProtected
    rcases Node.removes_step hNext hRemoves with hRemoves | hDecided
    · exact h.calm temp tx hBefore worker hRemoves
    · exact hDecides temp tx hProtected hBefore hDecided
  · rcases hHandler with rfl | rfl
    · trivial
    · have hHandling := h.handling
      cases hAt : node.handler with
      | queueing temp _ | releasing temp =>
        simp only [Handling, hAt] at hHandling ⊢
        refine ⟨hHandling.1, fun tx hProtected => ?_⟩
        have hBefore := hShrinks temp tx hProtected
        exact hStays temp tx hBefore (hHandling.2 tx hBefore)
      | idle | closing real => simp only [Handling]
      | _ =>
        simp only [Handling, hAt] at hHandling ⊢
        exact hHandling

/-! ## Runs -/

theorem inv_step {run next : FundingRun Tx} {event : FundingEvent Tx} (h : run.Inv codec former)
    (hOrderly : run.Orderly codec former event) (hStep : run.step codec former event = some next) :
    next.Inv codec former := by
  obtain ⟨node, ledger⟩ := run
  obtain ⟨node', hNode, rfl⟩ := Option.map_eq_some_iff.mp hStep
  cases event with
  | ldk event =>
    simp only [FundingNode.step] at hNode
    split at hNode
    · split at hNode
      · rename_i hEmits
        cases hNode
        cases event with
        | fundingGenerationReady temp built => exact inv_generationReady h hEmits
        | channelPending real => exact inv_pending h real
        | fundingTxBroadcastSafe temp => exact inv_broadcastSafe h hEmits
        | channelClosed real => exact inv_closed h real
        | discardFunding real => exact inv_discard h hEmits hOrderly
      · cases hNode
    · cases hNode
  | proceed nowSecs fails => exact inv_proceed h hOrderly hNode
  | background event =>
    obtain ⟨broadcasts, hBroadcasts, rfl⟩ := Option.map_eq_some_iff.mp hNode
    refine inv_background h hOrderly hBroadcasts ?_
    cases event with
    | restart => exact .inl rfl
    | _ => exact .inr rfl

/-- The channel manager hears only of what has been written, in whatever run. -/
theorem notifiesStored_step {run next : FundingRun Tx} {event : FundingEvent Tx} (h : run.NotifiesStored codec)
    (hStep : run.step codec former event = some next) : next.NotifiesStored codec := by
  obtain ⟨node, ledger⟩ := run
  obtain ⟨node', hNode, rfl⟩ := Option.map_eq_some_iff.mp hStep
  intro temp tx hHandler
  cases event with
  | ldk event =>
    simp only [FundingNode.step] at hNode
    split at hNode
    · split at hNode
      · cases hNode
        simp only [FundingNode.begin, FundingNode.handle] at hHandler
        split at hHandler <;> try split at hHandler
        all_goals cases hHandler
      · cases hNode
    · cases hNode
  | proceed nowSecs fails =>
    simp only [FundingNode.step, FundingNode.proceed] at hNode
    cases hAt : node.handler with
    | persisting temp' tx' =>
      rw [hAt] at hNode
      cases fails with
      | true =>
        cases hNode
        cases hHandler
      | false =>
        cases hNode
        cases hHandler
        exact (FundingStore.lookup_persistFundingTx codec node.store temp temp tx).trans (if_pos rfl)
    | persistingPending | queueing =>
      rw [hAt] at hNode
      obtain ⟨broadcasts, -, rfl⟩ := Option.map_eq_some_iff.mp hNode
      cases hHandler
    | idle =>
      rw [hAt] at hNode
      cases hNode
    | _ =>
      rw [hAt] at hNode
      cases hNode
      cases hHandler
  | background event =>
    obtain ⟨broadcasts, hBroadcasts, rfl⟩ := Option.map_eq_some_iff.mp hNode
    cases event with
    | restart => cases hHandler
    | _ => exact h temp tx hHandler

end FundingRun

/-- In every run the channel manager is notified of what is stored, and in every orderly one a funding transaction
is stored until it is accepted or discarded, and nothing is left of what was handled. -/
theorem funding_kept (codec : TxCodec Tx) (former : String → Option String) {events : List (FundingEvent Tx)}
    {run : FundingRun Tx} (hRun : exec (FundingRun.step codec former) .start events = some run) :
    run.NotifiesStored codec ∧
      (Along (FundingRun.step codec former) (FundingRun.Orderly codec former) .start events →
        run.Stored codec ∧ run.Cleaned former) := by
  constructor
  · refine exec_inv_all (fun _ _ _ h hStep => FundingRun.notifiesStored_step h hStep) ?_ hRun
    intro temp tx hHandler
    cases hHandler
  · intro hOrderly
    have hInv : run.Inv codec former :=
      exec_inv (fun _ _ _ h hGuard hStep => FundingRun.inv_step h hGuard hStep) (FundingRun.inv_start codec former)
        hOrderly hRun
    exact ⟨hInv.stored, fun temp hSafe => (hInv.safe temp hSafe).2, fun real hCleared => (hInv.cleared real hCleared).2⟩

/-- One channel, known by its temporary id before. -/
def oneChannel (real : String) : Option String := if real = "real" then some "temp" else none

/-- The transaction is built, kept, announced and handed over. -/
def handedOver (pendingFails : Bool) : List (FundingEvent UInt32) := [
  .ldk (.fundingGenerationReady "temp" (some 7)),
  .proceed 1700000000 false,
  .proceed 1700000000 false,
  .ldk (.fundingTxBroadcastSafe "temp"),
  .proceed 1700000100 pendingFails,
  .proceed 1700000100 false,
  .proceed 1700000100 false]

theorem handedOver_kept : ∃ run, exec (FundingRun.step emptyTxCodec oneChannel) .start (handedOver false) = some run ∧
    run.NotifiesStored emptyTxCodec ∧ run.Stored emptyTxCodec ∧ run.Cleaned oneChannel := by
  have hRun : ∃ run, exec (FundingRun.step emptyTxCodec oneChannel) .start (handedOver false) = some run := ⟨_, rfl⟩
  obtain ⟨run, hRun⟩ := hRun
  obtain ⟨hNotifies, hRest⟩ := funding_kept emptyTxCodec oneChannel hRun
  refine ⟨run, hRun, hNotifies, hRest ?_⟩
  refine ⟨trivial, ?_⟩
  rintro _ ⟨⟩
  refine ⟨trivial, ?_⟩
  rintro _ ⟨⟩
  -- nobody broadcasts yet
  refine ⟨fun worker hRemoves => ?_, ?_⟩
  · cases hRemoves
  rintro _ ⟨⟩
  refine ⟨trivial, ?_⟩
  rintro _ ⟨⟩
  refine ⟨fun _ => .inl rfl, ?_⟩
  rintro _ ⟨⟩
  refine ⟨trivial, ?_⟩
  rintro _ ⟨⟩
  refine ⟨trivial, ?_⟩
  rintro _ ⟨⟩
  trivial

/-- The channel is closed and its funding discarded before it was broadcast; every write goes through. -/
def closedEarly : List (FundingEvent UInt32) := [
  .ldk (.fundingGenerationReady "temp" (some 7)),
  .proceed 1700000000 false,
  .proceed 1700000000 false,
  .ldk (.channelPending "real"),
  .proceed 1700000000 false,
  .ldk (.channelClosed "real"),
  .proceed 1700000100 false,
  .ldk (.discardFunding "real")]

/-- The close takes the map entry that the discard needs, and the hand-over drops what it could not hand over. -/
theorem funding_leaked_and_lost :
    (∃ run, exec (FundingRun.step emptyTxCodec oneChannel) .start closedEarly = some run ∧
      ¬ run.Cleaned oneChannel) ∧
    ∃ run, exec (FundingRun.step emptyTxCodec oneChannel) .start (handedOver true) = some run ∧
      ¬ run.Stored emptyTxCodec := by
  constructor
  · refine ⟨_, rfl, ?_⟩
    rintro ⟨-, hCleared⟩
    have hGone := (hCleared "real" List.mem_cons_self).2 "temp" rfl
    exact absurd hGone (by decide)
  · refine ⟨_, rfl, ?_⟩
    intro hStored
    have hProtected := hStored "temp" 7 ⟨rfl, List.not_mem_nil, List.not_mem_nil⟩
    exact absurd hProtected (by decide)

end WalletCore.Broadcast
