import WalletCore.CloseRecords.Monotone
import WalletCore.Lib.Transition
import WalletCore.Restore.AppStores

/-! # Recovery of force closes

The state behind the deposit request is read, changed and written back by four callers: the event handler
enters channels, two ticks confirm sweeps and clear what is resolved, and the user dismisses. At a start it
may be seeded from its remote copy. Each of them reads in one step and writes in another.
-/

namespace WalletCore.Restore

open Lib History CloseRecords Sweep

/-! ## The store -/

theorem RecoveryStatus.fromStr_asStr (status : RecoveryStatus) : fromStr status.asStr = some status := by
  cases status <;> rfl

/-- A written state reads back exactly. -/
theorem decodeRecovery_encodeRecovery (state : RecoveryState) : decodeRecovery (encodeRecovery state) = some state := by
  have hChannels := mapM_encoded (fun text => Json.asStr_string text) state.channelIds
  have hBalance : readOption Json.asU64 (writeOption Json.ofU64 state.stuckBalanceSat) = some state.stuckBalanceSat := by
    cases state.stuckBalanceSat <;> rfl
  simp [decodeRecovery, encodeRecovery, requiredField, field, readRecovery, hChannels, hBalance, readVariant,
    RecoveryStatus.fromStr_asStr]

/-- What `enter` is called with. -/
structure Entry where
  channelId : String
  localBalanceSat : Option UInt64
  depositAddress : Option String
  depositNeededSat : UInt64
  nowMs : UInt64

/-- A new state, or one more channel in the state that was read. -/
def Entry.updated (entry : Entry) : Option RecoveryState → RecoveryState
  | some existing =>
    { existing with
      channelIds := existing.channelIds ++ [entry.channelId]
      stuckBalanceSat := App.addBalance existing.stuckBalanceSat entry.localBalanceSat
      depositNeededSat := entry.depositNeededSat
      updatedAt := entry.nowMs }
  | none =>
    ⟨.needsRecovery, entry.localBalanceSat, entry.depositAddress.getD "", entry.depositNeededSat, [entry.channelId],
      entry.nowMs, entry.nowMs⟩

/-- Local first, then memory; a failed write is logged. -/
def RecoveryStore.write (store : RecoveryStore) (state : RecoveryState) (fails : Bool) : RecoveryStore :=
  ⟨some state, if fails then store.file else some (encodeRecovery state)⟩

def RecoveryStore.clear (store : RecoveryStore) (fails : Bool) : RecoveryStore :=
  ⟨none, if fails then store.file else none⟩

/-- A request to the remote copy that nobody waits for. -/
inductive RemoteRequest where
  | put (state : RecoveryState)
  | delete

/-- The recovery task: it waits for a sweep, has one that succeeded, or is about to write. -/
inductive Sweeper where
  | idle
  | attempting
  | succeeded
  | marking (state : RecoveryState) (nowMs : UInt64)

structure Entering where
  entry : Entry
  read : Option RecoveryState

/-- The store, its remote copy, and each caller between its steps. -/
structure RecoveryNode where
  store : RecoveryStore
  remote : Option RecoveryState
  requests : List RemoteRequest
  closeRecords : CloseRecordStore
  entering : Option Entering
  sweeper : Sweeper
  clearing : Option RecoveryState
  dismissing : Option RecoveryState
  seeding : Option RecoveryState

inductive RecoveryEvent where
  | enterRead (entry : Entry)
  | enterWrite (fails : Bool)
  | autoRead
  | swept (count : Nat)
  | markRead (nowMs : UInt64)
  | markWrite (fails : Bool)
  | clearRead
  | clearRun (fails : Bool)
  | dismissRead
  | dismissRun (fails : Bool)
  | land (i : Nat)
  | lose (i : Nat)
  | restart (closeRecords : CloseRecordStore)
  | seedRead
  | seedWrite (fails : Bool)
  | close (op : CloseRecords.Op)

namespace RecoveryNode

/-- A start on a data directory. -/
def start (file : Option Bytes) (remote : Option RecoveryState) (requests : List RemoteRequest)
    (closeRecords : CloseRecordStore) : RecoveryNode :=
  ⟨.new file, remote, requests, closeRecords, none, .idle, none, none, none⟩

def writeState (node : RecoveryNode) (state : RecoveryState) (fails : Bool) : RecoveryNode :=
  { node with store := node.store.write state fails, requests := node.requests ++ [.put state] }

def clear (node : RecoveryNode) (fails : Bool) : RecoveryNode :=
  match node.store.state with
  | none => node
  | some _ => { node with store := node.store.clear fails, requests := node.requests ++ [.delete] }

/-- What a channel's close has come to does not depend on the other channels. -/
def resolved (node : RecoveryNode) (channelIds : List String) : Bool :=
  App.closeConfirmedForAllChannels channelIds node.closeRecords.get

def step (node : RecoveryNode) : RecoveryEvent → Option RecoveryNode
  | .enterRead entry =>
    match node.entering, node.store.state with
    | some _, _ => none
    | none, some existing =>
      if entry.channelId ∈ existing.channelIds then some node
      else some { node with entering := some ⟨entry, some existing⟩ }
    | none, none => some { node with entering := some ⟨entry, none⟩ }
  | .enterWrite fails =>
    node.entering.map fun p => { node.writeState (p.entry.updated p.read) fails with entering := none }
  | .autoRead =>
    match node.sweeper, node.store.state with
    | .idle, some state => some (if state.status = .sweepConfirmed then node else { node with sweeper := .attempting })
    | .idle, none => some node
    | _, _ => none
  | .swept count =>
    match node.sweeper with
    | .attempting => some { node with sweeper := if 0 < count then .succeeded else .idle }
    | _ => none
  | .markRead nowMs =>
    match node.sweeper, node.store.state with
    | .succeeded, some state =>
      some { node with sweeper := if state.status = .sweepConfirmed then .idle else .marking state nowMs }
    | .succeeded, none => some { node with sweeper := .idle }
    | _, _ => none
  | .markWrite fails =>
    match node.sweeper with
    | .marking state nowMs =>
      some { node.writeState { state with status := .sweepConfirmed, updatedAt := nowMs } fails with sweeper := .idle }
    | _ => none
  | .clearRead =>
    match node.clearing, node.store.state with
    | some _, _ => none
    | none, none => some node
    | none, some state =>
      some (if state.status = .sweepConfirmed then node
        else if node.resolved state.channelIds then { node with clearing := some state }
        else node)
  | .clearRun fails => node.clearing.map fun _ => { node.clear fails with clearing := none }
  | .dismissRead =>
    match node.dismissing, node.store.state with
    | some _, _ => none
    | none, none => some node
    | none, some state =>
      some (if state.status = .sweepConfirmed then { node with dismissing := some state } else node)
  | .dismissRun fails => node.dismissing.map fun _ => { node.clear fails with dismissing := none }
  | .land i =>
    node.requests[i]?.map fun request =>
      { node with
        remote := match request with
          | .put state => some state
          | .delete => none
        requests := node.requests.eraseIdx i }
  | .lose i => node.requests[i]?.map fun _ => { node with requests := node.requests.eraseIdx i }
  | .restart closeRecords => some (start node.store.file node.remote node.requests closeRecords)
  | .seedRead =>
    match node.seeding, node.store.state with
    | some _, _ => none
    | none, some _ => some node
    | none, none => some { node with seeding := node.remote }
  | .seedWrite fails =>
    node.seeding.map fun state => { node with store := node.store.write state fails, seeding := none }
  | .close op => some { node with closeRecords := op.apply node.closeRecords }

end RecoveryNode

/-! ## Calls that nobody interrupts -/

namespace RecoveryNode

variable {node : RecoveryNode} {app : App}

/-- Uninterrupted, the two steps of `enter` are the store's one operation. -/
theorem exec_enter {entry : Entry} (hStore : node.store = app.recovery) (hIdle : node.entering = none)
    (hNew : ∀ state ∈ node.store.state, entry.channelId ∉ state.channelIds) (fails : Bool) :
    ∃ node', exec step node [.enterRead entry, .enterWrite fails] = some node' ∧
      node'.store = (app.enterRecovery entry.channelId entry.localBalanceSat (entry.depositAddress.getD "")
        entry.depositNeededSat entry.nowMs fails).recovery := by
  cases hState : node.store.state with
  | none =>
    have hApp : app.recovery.state = none := by rw [← hStore, hState]
    simp only [exec, step, hIdle, hState, Option.bind_some, Option.map_some, App.enterRecovery, hApp]
    refine ⟨_, rfl, ?_⟩
    simp only [writeState, hStore]
    rfl
  | some existing =>
    have hApp : app.recovery.state = some existing := by rw [← hStore, hState]
    have hMem := hNew existing hState
    simp only [exec, step, hIdle, hState, if_neg hMem, Option.bind_some, Option.map_some, App.enterRecovery, hApp]
    refine ⟨_, rfl, ?_⟩
    simp only [writeState, hStore]
    rfl

theorem exec_clear {state : RecoveryState} (hStore : node.store = app.recovery)
    (hRecords : node.closeRecords = app.closeRecords) (hIdle : node.clearing = none) (hState : node.store.state = some state)
    (hStatus : state.status = .needsRecovery) (hResolved : node.resolved state.channelIds = true) (fails : Bool) :
    ∃ node', exec step node [.clearRead, .clearRun fails] = some node' ∧
      node'.store = (app.maybeClearResolved fails).recovery := by
  have hApp : app.recovery.state = some state := by rw [← hStore, hState]
  have hConfirmed : App.closeConfirmedForAllChannels state.channelIds app.closeRecords.get = true := by
    rw [← hRecords]
    exact hResolved
  simp only [exec, step, hIdle, hState, hStatus, hResolved, reduceCtorEq, if_false, if_true, Option.bind_some,
    Option.map_some, App.maybeClearResolved, App.clearRecovery, hApp, hConfirmed, clear]
  refine ⟨_, rfl, ?_⟩
  simp only [hStore]
  rfl

end RecoveryNode

/-! ## What is owed -/

/-- The channels whose entry has ended and that no clear has settled, those of them that were entered since
the last sweep, and whether the last state was cleared. -/
structure Ledger where
  owed : List String
  fresh : List String
  gone : Bool

namespace Ledger

def empty : Ledger := ⟨[], [], false⟩

def enter (ledger : Ledger) (channelId : String) : Ledger :=
  { ledger with owed := channelId :: ledger.owed, fresh := channelId :: ledger.fresh }

def settle (ledger : Ledger) (channelIds : List String) : Ledger :=
  { ledger with
    owed := ledger.owed.filter (· ∉ channelIds)
    fresh := ledger.fresh.filter (· ∉ channelIds) }

/-- A clear settles the listed channels when all are resolved, a dismissal those that the user saw. -/
def after (ledger : Ledger) (node : RecoveryNode) : RecoveryEvent → Ledger
  | .enterRead entry =>
    match node.store.state with
    | some existing => if entry.channelId ∈ existing.channelIds then ledger.enter entry.channelId else ledger
    | none => ledger
  | .enterWrite _ =>
    match node.entering with
    | some p => { ledger.enter p.entry.channelId with gone := false }
    | none => ledger
  | .swept count => if 0 < count then { ledger with fresh := [] } else ledger
  | .markWrite _ => { ledger with gone := false }
  | .clearRun _ =>
    match node.store.state with
    | some state => { if node.resolved state.channelIds then ledger.settle state.channelIds else ledger with gone := true }
    | none => ledger
  | .dismissRun _ =>
    match node.store.state, node.dismissing with
    | some _, some seen => { ledger.settle seen.channelIds with gone := true }
    | _, _ => ledger
  | _ => ledger

end Ledger

structure RecoveryRun where
  node : RecoveryNode
  ledger : Ledger

namespace RecoveryRun

def step (run : RecoveryRun) (event : RecoveryEvent) : Option RecoveryRun :=
  (run.node.step event).map (⟨·, run.ledger.after run.node event⟩)

/-- Every owed channel is listed. -/
def Listed (run : RecoveryRun) : Prop :=
  ∀ channelId ∈ run.ledger.owed, ∃ state, run.node.store.state = some state ∧ channelId ∈ state.channelIds

/-- With a channel entered since the last sweep the request stays open. -/
def Open (run : RecoveryRun) : Prop :=
  ∀ channelId ∈ run.ledger.fresh, ∀ state, run.node.store.state = some state → channelId ∈ state.channelIds →
    state.status = .needsRecovery

/-- What was cleared does not come back. -/
def StaysCleared (run : RecoveryRun) : Prop := run.ledger.gone = true → run.node.store.state = none

/-- Writes and removals go through, nobody writes over what he has not read, no channel is entered while a
sweep is confirmed or being confirmed, and a cleared state is gone remotely before the next start looks. -/
def Careful (run : RecoveryRun) : RecoveryEvent → Prop
  | .enterRead _ => ∀ state ∈ run.node.store.state, state.status = .needsRecovery
  | .enterWrite fails => fails = false ∧ run.node.seeding = none ∧
    ∀ p ∈ run.node.entering, run.node.store.state = p.read
  | .markWrite fails => fails = false ∧ run.ledger.fresh = [] ∧
    ∀ state nowMs, run.node.sweeper = .marking state nowMs → run.node.store.state = some state
  | .clearRun fails => fails = false ∧ (run.node.store.state = none ∨ run.node.store.state = run.node.clearing)
  | .dismissRun fails => fails = false ∧ (run.node.store.state = none ∨ run.node.store.state = run.node.dismissing)
  | .seedRead => run.ledger.gone = true → run.node.remote = none
  | .seedWrite fails => fails = false
  | _ => True

structure Inv (run : RecoveryRun) : Prop where
  file : run.node.store.file.bind decodeRecovery = run.node.store.state
  listed : run.Listed
  fresh : ∀ channelId ∈ run.ledger.fresh, channelId ∈ run.ledger.owed
  isOpen : run.Open
  cleared : run.StaysCleared
  seeding : ∀ state ∈ run.node.seeding, run.node.store.state = none ∧ run.ledger.gone = false
  clearing : ∀ state ∈ run.node.clearing, run.node.resolved state.channelIds = true
  entering : ∀ p ∈ run.node.entering, ∀ state ∈ p.read, state.status = .needsRecovery

end RecoveryRun

/-! ## Steps -/

theorem RecoveryNode.resolved_mono {node : RecoveryNode} {closeRecords : CloseRecordStore}
    (h : RecordsKept node.closeRecords.records closeRecords.records) {channelIds : List String}
    (hResolved : node.resolved channelIds = true) : ({ node with closeRecords } : RecoveryNode).resolved channelIds = true := by
  rw [RecoveryNode.resolved, App.closeConfirmedForAllChannels, Bool.and_eq_true, List.all_eq_true] at hResolved ⊢
  refine ⟨hResolved.1, fun channelId hChannel => ?_⟩
  have hRecord := hResolved.2 channelId hChannel
  cases hFound : node.closeRecords.get channelId with
  | none =>
    rw [hFound] at hRecord
    cases hRecord
  | some record =>
    obtain ⟨record', hRecord', hKeeps⟩ := h channelId record hFound
    have hGet : ({ node with closeRecords } : RecoveryNode).closeRecords.get channelId = some record' := hRecord'
    rw [hFound] at hRecord
    rw [hGet]
    dsimp only at hRecord ⊢
    rw [Bool.or_eq_true] at hRecord ⊢
    obtain hCompleted | hClose := hRecord
    · obtain ⟨at', hAt⟩ := Option.isSome_iff_exists.mp hCompleted
      rw [hKeeps.completedAtMs at' hAt]
      exact .inl rfl
    · obtain ⟨tx, hTx, hConfirmed⟩ := List.any_eq_true.mp hClose
      obtain ⟨i, hi⟩ := List.mem_iff_getElem?.mp hTx
      obtain ⟨tx', hTx', hKept⟩ := hKeeps.txs i tx hi
      refine .inr (List.any_eq_true.mpr ⟨tx', List.mem_iff_getElem?.mpr ⟨i, hTx'⟩, ?_⟩)
      rw [Bool.and_eq_true] at hConfirmed ⊢
      obtain ⟨height, hHeight⟩ := Option.isSome_iff_exists.mp hConfirmed.2
      rw [hKept.role, hKept.confirmedAtHeight height hHeight]
      exact ⟨hConfirmed.1, rfl⟩

theorem RecoveryStore.file_write (store : RecoveryStore) (state : RecoveryState) :
    (store.write state false).file.bind decodeRecovery = (store.write state false).state := by
  rw [RecoveryStore.write, if_neg Bool.false_ne_true, Option.bind_some]
  exact decodeRecovery_encodeRecovery state

namespace RecoveryRun

variable {run run' : RecoveryRun}

theorem Inv.frame (h : run.Inv) {node : RecoveryNode} (hStore : node.store = run.node.store)
    (hSeeding : ∀ state ∈ node.seeding, run.node.store.state = none ∧ run.ledger.gone = false)
    (hClearing : ∀ state ∈ node.clearing, node.resolved state.channelIds = true)
    (hEntering : ∀ p ∈ node.entering, ∀ state ∈ p.read, state.status = .needsRecovery) :
    Inv ⟨node, run.ledger⟩ where
  file := by rw [hStore]; exact h.file
  listed := by rw [Listed, hStore]; exact h.listed
  fresh := h.fresh
  isOpen := by rw [Open, hStore]; exact h.isOpen
  cleared := by rw [StaysCleared, hStore]; exact h.cleared
  seeding := by rw [hStore]; exact hSeeding
  clearing := hClearing
  entering := hEntering

theorem Inv.enterRead (h : run.Inv) {entry : Entry} (hCareful : run.Careful (.enterRead entry))
    (hStep : run.step (.enterRead entry) = some run') : run'.Inv := by
  obtain ⟨node, hNode, rfl⟩ := Option.map_eq_some_iff.mp hStep
  cases hEntering : run.node.entering with
  | some p =>
    simp only [RecoveryNode.step, hEntering] at hNode
    cases hNode
  | none =>
    cases hState : run.node.store.state with
    | none =>
      simp only [RecoveryNode.step, hEntering, hState] at hNode
      cases hNode
      rw [Ledger.after, hState]
      refine h.frame rfl h.seeding h.clearing ?_
      rintro _ ⟨⟩ state hRead
      cases hRead
    | some existing =>
      simp only [RecoveryNode.step, hEntering, hState] at hNode
      simp only [Ledger.after, hState]
      split_ifs at hNode ⊢ with hMem
      · cases hNode
        -- the channel is listed already, and the call ends at once
        refine { h with listed := ?_, fresh := ?_, isOpen := ?_ }
        · intro channelId hOwed
          obtain rfl | hOld := List.mem_cons.mp hOwed
          · exact ⟨existing, hState, hMem⟩
          · exact h.listed channelId hOld
        · exact fun channelId hFresh =>
            List.mem_cons.mpr ((List.mem_cons.mp hFresh).imp_right (h.fresh channelId))
        · intro channelId _ state hCurrent _
          exact hCareful state hCurrent
      · cases hNode
        refine h.frame rfl h.seeding h.clearing ?_
        rintro _ ⟨⟩ state hRead
        exact hCareful state (hState.trans hRead)

theorem Inv.enterWrite (h : run.Inv) {fails : Bool} (hCareful : run.Careful (.enterWrite fails))
    (hStep : run.step (.enterWrite fails) = some run') : run'.Inv := by
  obtain ⟨node, hNode, rfl⟩ := Option.map_eq_some_iff.mp hStep
  obtain ⟨p, hEntering, rfl⟩ := Option.map_eq_some_iff.mp hNode
  obtain ⟨rfl, hSeeding, hRead⟩ := hCareful
  have hSame : run.node.store.state = p.read := hRead p hEntering
  have hLedger : run.ledger.after run.node (.enterWrite false) =
      { run.ledger.enter p.entry.channelId with gone := false } := by
    rw [Ledger.after, hEntering]
  have hNew : p.entry.channelId ∈ (p.entry.updated p.read).channelIds := by
    cases p.read <;> simp [Entry.updated]
  have hKept : ∀ channelId state, p.read = some state → channelId ∈ state.channelIds →
      channelId ∈ (p.entry.updated p.read).channelIds := by
    intro channelId state hState hMem
    rw [hState]
    exact List.mem_append_left _ hMem
  have hStatus : (p.entry.updated p.read).status = .needsRecovery := by
    cases hCase : p.read with
    | none => rfl
    | some state => exact h.entering p hEntering state hCase
  rw [hLedger]
  constructor
  case file => exact RecoveryStore.file_write _ _
  case listed =>
    intro channelId hOwed
    obtain rfl | hOld := List.mem_cons.mp hOwed
    · exact ⟨_, rfl, hNew⟩
    · obtain ⟨state, hState, hMem⟩ := h.listed channelId hOld
      exact ⟨_, rfl, hKept channelId state (hSame.symm.trans hState) hMem⟩
  case fresh => exact fun channelId hFresh => List.mem_cons.mpr ((List.mem_cons.mp hFresh).imp_right (h.fresh channelId))
  case isOpen =>
    rintro channelId - _ ⟨⟩ -
    exact hStatus
  case cleared => nofun
  case seeding =>
    intro state hState
    change state ∈ run.node.seeding at hState
    rw [hSeeding] at hState
    cases hState
  case clearing => exact h.clearing
  case entering => nofun

theorem Inv.swept (h : run.Inv) {count : Nat} (hStep : run.step (.swept count) = some run') : run'.Inv := by
  obtain ⟨node, hNode, rfl⟩ := Option.map_eq_some_iff.mp hStep
  rw [RecoveryNode.step] at hNode
  split at hNode
  · cases hNode
    rw [Ledger.after]
    split
    · refine { h with fresh := ?_, isOpen := ?_ } <;> nofun
    · exact h.frame rfl h.seeding h.clearing h.entering
  · cases hNode

theorem Inv.markWrite (h : run.Inv) {fails : Bool} (hCareful : run.Careful (.markWrite fails))
    (hStep : run.step (.markWrite fails) = some run') : run'.Inv := by
  obtain ⟨node, hNode, rfl⟩ := Option.map_eq_some_iff.mp hStep
  obtain ⟨rfl, hFresh, hRead⟩ := hCareful
  rw [RecoveryNode.step] at hNode
  split at hNode
  · next state nowMs hSweeper =>
    cases hNode
    have hSame := hRead state nowMs hSweeper
    constructor
    case file => exact RecoveryStore.file_write _ _
    case listed =>
      intro channelId hOwed
      obtain ⟨state', hState, hMem⟩ := h.listed channelId hOwed
      cases hSame.symm.trans hState
      exact ⟨_, rfl, hMem⟩
    case fresh => exact h.fresh
    case isOpen =>
      intro channelId hMem
      change channelId ∈ run.ledger.fresh at hMem
      rw [hFresh] at hMem
      cases hMem
    case cleared => nofun
    case seeding =>
      intro seed hSeed
      cases (h.seeding seed hSeed).1.symm.trans hSame
    case clearing => exact h.clearing
    case entering => exact h.entering
  · cases hNode

theorem Inv.clear (h : run.Inv) {state : RecoveryState} (hState : run.node.store.state = some state)
    {node : RecoveryNode} (hStore : node.store = run.node.store.clear false) (hSeeding : node.seeding = run.node.seeding)
    (hClearing : ∀ state ∈ node.clearing, node.resolved state.channelIds = true)
    (hEntering : node.entering = run.node.entering) :
    Inv ⟨node, { run.ledger.settle state.channelIds with gone := true }⟩ := by
  have hNone : node.store.state = none := by
    rw [hStore]
    rfl
  have hSettled : ∀ channelId, channelId ∉ run.ledger.owed.filter (· ∉ state.channelIds) := by
    intro channelId hMem
    obtain ⟨hOwed, hOther⟩ := List.mem_filter.mp hMem
    obtain ⟨state', hState', hListed⟩ := h.listed channelId hOwed
    cases hState.symm.trans hState'
    exact absurd hListed (by simpa using hOther)
  have hFresh : ∀ channelId, channelId ∉ run.ledger.fresh.filter (· ∉ state.channelIds) := by
    intro channelId hMem
    obtain ⟨hMem, hOther⟩ := List.mem_filter.mp hMem
    exact hSettled channelId (List.mem_filter.mpr ⟨h.fresh channelId hMem, hOther⟩)
  constructor
  case file =>
    rw [hStore]
    rfl
  case listed => exact fun channelId hOwed => absurd hOwed (hSettled channelId)
  case fresh => exact fun channelId hMem => absurd hMem (hFresh channelId)
  case isOpen => exact fun channelId hMem => absurd hMem (hFresh channelId)
  case cleared => exact fun _ => hNone
  case seeding =>
    intro seed hSeed
    change seed ∈ node.seeding at hSeed
    rw [hSeeding] at hSeed
    cases (h.seeding seed hSeed).1.symm.trans hState
  case clearing => exact hClearing
  case entering =>
    rw [hEntering]
    exact h.entering

theorem Inv.clearRun (h : run.Inv) {fails : Bool} (hCareful : run.Careful (.clearRun fails))
    (hStep : run.step (.clearRun fails) = some run') : run'.Inv := by
  obtain ⟨node, hNode, rfl⟩ := Option.map_eq_some_iff.mp hStep
  obtain ⟨seen, hClearing, rfl⟩ := Option.map_eq_some_iff.mp hNode
  obtain ⟨rfl, hRead⟩ := hCareful
  cases hState : run.node.store.state with
  | none =>
    simp only [Ledger.after, RecoveryNode.clear, hState]
    exact h.frame rfl h.seeding nofun h.entering
  | some state =>
    obtain rfl : state = seen := by
      obtain hNone | hSame := hRead
      · cases hState.symm.trans hNone
      · cases (hState.symm.trans hSame).trans hClearing
        rfl
    have hResolved := h.clearing state hClearing
    simp only [Ledger.after, RecoveryNode.clear, hState, hResolved, if_true]
    exact h.clear hState rfl rfl nofun rfl

theorem Inv.dismissRun (h : run.Inv) {fails : Bool} (hCareful : run.Careful (.dismissRun fails))
    (hStep : run.step (.dismissRun fails) = some run') : run'.Inv := by
  obtain ⟨node, hNode, rfl⟩ := Option.map_eq_some_iff.mp hStep
  obtain ⟨seen, hDismissing, rfl⟩ := Option.map_eq_some_iff.mp hNode
  obtain ⟨rfl, hRead⟩ := hCareful
  cases hState : run.node.store.state with
  | none =>
    simp only [Ledger.after, RecoveryNode.clear, hState]
    exact h.frame rfl h.seeding h.clearing h.entering
  | some state =>
    obtain rfl : state = seen := by
      obtain hNone | hSame := hRead
      · cases hState.symm.trans hNone
      · cases (hState.symm.trans hSame).trans hDismissing
        rfl
    simp only [Ledger.after, RecoveryNode.clear, hState, hDismissing]
    exact h.clear hState rfl rfl h.clearing rfl

theorem Inv.clearRead (h : run.Inv) (hStep : run.step .clearRead = some run') : run'.Inv := by
  obtain ⟨node, hNode, rfl⟩ := Option.map_eq_some_iff.mp hStep
  rw [RecoveryNode.step] at hNode
  split at hNode
  · cases hNode
  · cases hNode
    exact h
  · cases hNode
    split_ifs with hConfirmed hResolved
    · exact h
    · refine h.frame rfl h.seeding ?_ h.entering
      rintro _ ⟨⟩
      exact hResolved
    · exact h

theorem Inv.seedRead (h : run.Inv) (hCareful : run.Careful .seedRead) (hStep : run.step .seedRead = some run') :
    run'.Inv := by
  obtain ⟨node, hNode, rfl⟩ := Option.map_eq_some_iff.mp hStep
  rw [RecoveryNode.step] at hNode
  split at hNode
  · cases hNode
  · cases hNode
    exact h
  · next _ hState =>
    cases hNode
    refine h.frame rfl ?_ h.clearing h.entering
    intro seed hSeed
    refine ⟨hState, ?_⟩
    -- a remote copy that was read is not that of a cleared state
    by_contra hGone
    have hRemote := hCareful (by simpa using hGone)
    cases hRemote.symm.trans hSeed

theorem Inv.seedWrite (h : run.Inv) {fails : Bool} (hCareful : run.Careful (.seedWrite fails))
    (hStep : run.step (.seedWrite fails) = some run') : run'.Inv := by
  obtain ⟨node, hNode, rfl⟩ := Option.map_eq_some_iff.mp hStep
  obtain ⟨seed, hSeeding, rfl⟩ := Option.map_eq_some_iff.mp hNode
  obtain ⟨hNone, hGone⟩ := h.seeding seed hSeeding
  obtain rfl : fails = false := hCareful
  have hOwed : ∀ channelId, channelId ∉ run.ledger.owed := by
    intro channelId hMem
    obtain ⟨state, hState, -⟩ := h.listed channelId hMem
    cases hNone.symm.trans hState
  constructor
  case file => exact RecoveryStore.file_write _ _
  case listed => exact fun channelId hMem => absurd hMem (hOwed channelId)
  case fresh => exact h.fresh
  case isOpen => exact fun channelId hMem => absurd (h.fresh channelId hMem) (hOwed channelId)
  case cleared =>
    intro hCleared
    cases hGone.symm.trans hCleared
  case seeding => nofun
  case clearing => exact h.clearing
  case entering => exact h.entering

theorem Inv.restart (h : run.Inv) {closeRecords : CloseRecordStore}
    (hStep : run.step (.restart closeRecords) = some run') : run'.Inv := by
  cases hStep
  have hState : (RecoveryNode.start run.node.store.file run.node.remote run.node.requests closeRecords).store.state =
      run.node.store.state := h.file
  constructor
  case file => rfl
  case listed =>
    rw [Listed, hState]
    exact h.listed
  case fresh => exact h.fresh
  case isOpen =>
    rw [Open, hState]
    exact h.isOpen
  case cleared =>
    rw [StaysCleared, hState]
    exact h.cleared
  case seeding => nofun
  case clearing => nofun
  case entering => nofun

theorem Inv.close (h : run.Inv) {op : CloseRecords.Op} (hStep : run.step (.close op) = some run') : run'.Inv := by
  cases hStep
  refine h.frame rfl h.seeding (fun state hClearing => ?_) h.entering
  exact RecoveryNode.resolved_mono (op.apply_kept _) (h.clearing state hClearing)

theorem Inv.step_frame (h : run.Inv) {event : RecoveryEvent} (hStep : run.step event = some run')
    (hEvent : event = .autoRead ∨ (∃ nowMs, event = .markRead nowMs) ∨ event = .dismissRead ∨ (∃ i, event = .land i) ∨
      ∃ i, event = .lose i) : run'.Inv := by
  obtain ⟨node, hNode, rfl⟩ := Option.map_eq_some_iff.mp hStep
  obtain rfl | ⟨nowMs, rfl⟩ | rfl | ⟨i, rfl⟩ | ⟨i, rfl⟩ := hEvent
  · rw [RecoveryNode.step] at hNode
    split at hNode <;> cases hNode
    · split_ifs
      · exact h
      · exact h.frame rfl h.seeding h.clearing h.entering
    · exact h
  · rw [RecoveryNode.step] at hNode
    split at hNode <;> cases hNode
    · exact h.frame rfl h.seeding h.clearing h.entering
    · exact h.frame rfl h.seeding h.clearing h.entering
  · rw [RecoveryNode.step] at hNode
    split at hNode <;> cases hNode
    · exact h
    · split_ifs
      · exact h.frame rfl h.seeding h.clearing h.entering
      · exact h
  · obtain ⟨request, -, rfl⟩ := Option.map_eq_some_iff.mp hNode
    exact h.frame rfl h.seeding h.clearing h.entering
  · obtain ⟨request, -, rfl⟩ := Option.map_eq_some_iff.mp hNode
    exact h.frame rfl h.seeding h.clearing h.entering

theorem Inv.step (h : run.Inv) {event : RecoveryEvent} (hCareful : run.Careful event)
    (hStep : run.step event = some run') : run'.Inv := by
  cases event with
  | enterRead entry => exact h.enterRead hCareful hStep
  | enterWrite fails => exact h.enterWrite hCareful hStep
  | autoRead => exact h.step_frame hStep (.inl rfl)
  | swept count => exact h.swept hStep
  | markRead nowMs => exact h.step_frame hStep (.inr (.inl ⟨nowMs, rfl⟩))
  | markWrite fails => exact h.markWrite hCareful hStep
  | clearRead => exact h.clearRead hStep
  | clearRun fails => exact h.clearRun hCareful hStep
  | dismissRead => exact h.step_frame hStep (.inr (.inr (.inl rfl)))
  | dismissRun fails => exact h.dismissRun hCareful hStep
  | land i => exact h.step_frame hStep (.inr (.inr (.inr (.inl ⟨i, rfl⟩))))
  | lose i => exact h.step_frame hStep (.inr (.inr (.inr (.inr ⟨i, rfl⟩))))
  | restart closeRecords => exact h.restart hStep
  | seedRead => exact h.seedRead hCareful hStep
  | seedWrite fails => exact h.seedWrite hCareful hStep
  | close op => exact h.close hStep

/-- In a run of careful steps every owed channel stays listed, a channel entered after a sweep keeps the
request open, and what was cleared does not come back. -/
theorem recovery_keeps_channels {file : Option Bytes} {remote : Option RecoveryState} {requests : List RemoteRequest}
    {closeRecords : CloseRecordStore} {events : List RecoveryEvent}
    (hCareful : Along step Careful ⟨.start file remote requests closeRecords, .empty⟩ events)
    (hRun : exec step ⟨.start file remote requests closeRecords, .empty⟩ events = some run) :
    run.Listed ∧ run.Open ∧ run.StaysCleared := by
  have hStart : Inv ⟨.start file remote requests closeRecords, .empty⟩ := by
    constructor
    case file => rfl
    all_goals nofun
  have hInv := exec_inv (fun _ _ _ h => h.step) hStart hCareful hRun
  exact ⟨hInv.listed, hInv.isOpen, hInv.cleared⟩

/-! ## Runs -/

def noRecords : CloseRecordStore := .new ⟨⟨none, none⟩, fun _ => false, 0, []⟩ 0

/-- A new wallet. -/
def first : RecoveryRun := ⟨.start none none [] noRecords, .empty⟩

def entryOf (channelId : String) : Entry := ⟨channelId, none, none, 25000, 0⟩

def enters (channelId : String) : List RecoveryEvent := [.enterRead (entryOf channelId), .enterWrite false]

def confirms : List RecoveryEvent := [.autoRead, .swept 1, .markRead 1, .markWrite false]

theorem first_channel_survives_restart : ∃ run,
    exec step first (enters "a" ++ confirms ++ [.restart noRecords]) = some run ∧ run.ledger.owed = ["a"] ∧
      run.Listed ∧ run.Open ∧ run.StaysCleared := by
  have hCareful : Along step Careful first (enters "a" ++ confirms ++ [.restart noRecords]) := by
    refine ⟨nofun, ?_⟩
    rintro _ ⟨⟩
    refine ⟨⟨rfl, rfl, by rintro _ ⟨⟩; rfl⟩, ?_⟩
    rintro _ ⟨⟩
    refine ⟨trivial, ?_⟩
    rintro _ ⟨⟩
    refine ⟨trivial, ?_⟩
    rintro _ ⟨⟩
    refine ⟨trivial, ?_⟩
    rintro _ ⟨⟩
    refine ⟨⟨rfl, rfl, by rintro _ _ ⟨⟩; rfl⟩, ?_⟩
    rintro _ ⟨⟩
    exact ⟨trivial, fun _ _ => trivial⟩
  exact ⟨_, rfl, rfl, recovery_keeps_channels hCareful rfl⟩

/-- A channel entered while a sweep is being confirmed is written over; one entered after it leaves the request
closed; and a deletion that fails lets the cleared state come back. -/
theorem interleavings_lose_channels :
    (∃ run, exec step first (enters "a" ++ [.autoRead, .swept 1, .markRead 1] ++ enters "b" ++ [.markWrite false]) =
      some run ∧ ¬ run.Listed) ∧
    (∃ run, exec step first (enters "a" ++ confirms ++ enters "b") = some run ∧ ¬ run.Open) ∧
    ∃ run, exec step first (enters "a" ++ confirms ++ [.land 0, .land 0, .dismissRead, .dismissRun false, .lose 0,
      .restart noRecords, .seedRead, .seedWrite false]) = some run ∧ ¬ run.StaysCleared := by
  refine ⟨⟨_, rfl, fun h => ?_⟩, ⟨_, rfl, fun h => ?_⟩, ⟨_, rfl, fun h => ?_⟩⟩
  · obtain ⟨state, hState, hMem⟩ := h "b" List.mem_cons_self
    cases hState
    exact absurd hMem (by decide)
  · have hStatus := h "b" List.mem_cons_self _ rfl (by decide)
    cases hStatus
  · cases h rfl

end RecoveryRun

end WalletCore.Restore
