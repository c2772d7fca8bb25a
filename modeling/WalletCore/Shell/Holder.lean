import WalletCore.Events.Queue

/-! # The wallet holder of the Android shell

One holder for the whole process owns the node. Callbacks of the process lifecycle and the restore screen
queue transitions on one chain, which runs them to their ends one after another; the event loop drains the
wallet's queue beside it. A step is what one of them does up to its next suspension.
-/

namespace WalletCore.Shell

open Lib Events

/-! ## Screens -/

structure InvoiceUi where
  bolt11 : String
  expiryUnixSecs : UInt64
deriving DecidableEq

inductive RestoreUi where
  | inProgress (step : String)
  | succeeded
  | failed (message : String)
deriving DecidableEq

structure UiState where
  currentInvoice : Option InvoiceUi
  lastOutcome : Option String
  syncBanner : Option String
  fenced : Bool
  recoveryBannerDismissed : Bool
  startError : Option String
  restore : Option RestoreUi
deriving DecidableEq

namespace UiState

def initial : UiState := ⟨none, none, none, false, false, none, none⟩

def restoring (state : UiState) : Bool :=
  match state.restore with
  | some (.inProgress _) => true
  | _ => false

def reduce (state : UiState) : Event → UiState
  | .syncFailed => { state with syncBanner := some "Chain sync failed — retrying" }
  | .syncCompleted => { state with syncBanner := none }
  | .invoiceReady bolt11 expiryUnixSecs => { state with currentInvoice := some ⟨bolt11, expiryUnixSecs⟩ }
  | .paymentReceived _ amountMsat skimmedFeeMsat =>
    let fee := (skimmedFeeMsat.map fun fee => " (LSP fee " ++ Nat.repr (fee / 1000).toNat ++ " sats)").getD ""
    { state with
      currentInvoice := none
      lastOutcome := some ("Received " ++ Nat.repr (amountMsat / 1000).toNat ++ " sats" ++ fee) }
  | .paymentSuccessful .. => { state with lastOutcome := some "Payment sent" }
  | .paymentFailed _ reason => { state with lastOutcome := some ("Payment failed: " ++ reason) }
  | .channelPending _ => { state with lastOutcome := some "JIT channel opening" }
  | .channelReady _ => { state with lastOutcome := some "Channel ready" }
  | .lsps2Failed reason =>
    { state with currentInvoice := none, lastOutcome := some ("Invoice request failed: " ++ reason) }
  | .fenced _ => { state with fenced := true }
  | .recoveryStateChanged => { state with recoveryBannerDismissed := false }
  | .restoreProgress step =>
    if state.restoring then { state with restore := some (.inProgress step) } else state
  | .nodeStarted | .nodeStopped | .channelClosed .. | .backupDegraded _ | .sweepStateChanged | .onchainStateChanged => state

def clearRestore (state : UiState) : UiState := if state.restoring then state else { state with restore := none }

end UiState

/-! ## What the core answers -/

/-- A start of a stopped node. -/
inductive StartAnswer where
  | up (chainSynced : Bool)
  | fenced
  | failed (message : Option String)

inductive WalletException where
  | noBackupFound
  | restoreFailed (detail : String)
  | backupInconsistent (detail : String)
  | invalidMnemonic
  | alreadyRunning
  /-- Its message, unless it is blank. -/
  | other (message : Option String)

def restoreErrorMessage : WalletException → String
  | .noBackupFound => "No backup found for this wallet. Make sure you entered the correct seed phrase."
  | .restoreFailed detail => "Restore failed: " ++ detail
  | .backupInconsistent detail => "Restore failed: backup inconsistent: " ++ detail
  | .invalidMnemonic => "Restore failed: the mnemonic is not a valid BIP39 English 12-word mnemonic"
  | .alreadyRunning => "Restore failed: the node is already running"
  | .other message => "Restore failed: " ++ message.getD "unknown error"

def restoreInitialStep : String := "Deriving keys..."

/-- What the core would answer now. -/
structure CoreAnswer where
  start : StartAnswer
  restore : Except WalletException Unit

/-! ## Transitions -/

/-- A start of the core: the blocking call, then what it still does to the queue. -/
inductive CoreStart where
  | call
  | notify (ops : List QueueOp)

inductive Exit where
  | restored
  | refused (message : String)

def Exit.ui : Exit → RestoreUi
  | .restored => .succeeded
  | .refused message => .failed message

inductive StartStep where
  | check
  | core (start : CoreStart)
  | loop

inductive StopStep where
  | check
  | call
  | push

inductive RestoreStep where
  | stop
  | push
  | join
  | loop
  | call
  | replaced
  | restart (exit : Exit)
  | core (exit : Exit) (start : CoreStart)
  | settle (exit : Exit)

/-- A transition of the chain, and how far it is. -/
inductive Link where
  | start (step : StartStep)
  | stop (step : StopStep)
  | restore (step : RestoreStep)

/-- The one consumer of the queue: between two events, or with one in hand. -/
inductive LoopStep where
  | next
  | handle (event : Event)
  | ack (event : Event)
deriving DecidableEq

/-- The transition that a callback queues. -/
def Link.asked (foregrounded : Bool) : Link := if foregrounded then .start .check else .stop .check

structure Holder where
  /-- The core's node. -/
  running : Bool
  events : Ledger
  state : UiState
  foregrounded : Bool
  /-- A move of the process lifecycle whose observer is not called yet. -/
  callback : Option Bool
  chain : List Link
  loopJob : Option LoopStep

inductive Act where
  | moveTo (foregrounded : Bool)
  | callback
  | startRestore
  | clearRestore
  | link (answer : CoreAnswer)
  | loop
  | emit (event : CoreEvent)

namespace Holder

/-- A new process finds the queue that the last one left. -/
def fresh (kvStore : QueueFile) : Holder := ⟨false, .start kvStore, .initial, false, none, [], none⟩

def queue (h : Holder) (op : QueueOp) : Holder := { h with events := (h.events.step op).getD h.events }

def update (h : Holder) (change : UiState → UiState) : Holder := { h with state := change h.state }

def enqueueLifecycle (h : Holder) (transition : Link) : Holder := { h with chain := h.chain ++ [transition] }

/-- One loop at a time. -/
def ensureEventLoop (h : Holder) : Holder := { h with loopJob := some (h.loopJob.getD .next) }

/-- Goes on, or ends with whether the node is up. -/
def startCore (h : Holder) (answer : StartAnswer) : CoreStart → Holder × (CoreStart ⊕ Bool)
  | .call =>
    if h.running then (h.update fun state => { state with startError := none }, .inr true)
    else
      match answer with
      | .up chainSynced => ({ h with running := true }, .inl (.notify (startOps chainSynced)))
      | .fenced => (h.update fun state => { state with fenced := true }, .inr false)
      | .failed message =>
        (h.update fun state =>
          { state with
            lastOutcome := some ("Node start failed: " ++ message.getD "null")
            startError := some (message.getD "Node start failed") }, .inr false)
  | .notify (op :: ops) => (h.queue op, .inl (.notify ops))
  | .notify [] => (h.update fun state => { state with startError := none }, .inr true)

/-- A link of the chain ends, or goes on. A restore under way owns the node: the transitions queued around
it are left out. -/
def startNode (h : Holder) (answer : CoreAnswer) : StartStep → Holder × Option Link
  | .check => (h, if h.state.restoring then none else some (.start (.core .call)))
  | .core start =>
    match h.startCore answer.start start with
    | (h, .inl start) => (h, some (.start (.core start)))
    | (h, .inr up) => (h, if up then some (.start .loop) else none)
  | .loop => (h.ensureEventLoop, none)

def stopNode (h : Holder) : StopStep → Holder × Option Link
  | .check => (h, if h.state.restoring then none else some (.stop .call))
  | .call => if h.running then ({ h with running := false }, some (.stop .push)) else (h, none)
  | .push => (h.queue (.push .nodeStopped), none)

/-- Waits in `join` until the loop has ended. -/
def restoreNode (h : Holder) (answer : CoreAnswer) : RestoreStep → Option (Holder × Option Link)
  | .stop =>
    if h.running then some ({ h with running := false }, some (.restore .push)) else some (h, some (.restore .loop))
  | .push => some (h.queue (.push .nodeStopped), some (.restore .join))
  | .join => if h.loopJob = none then some (h, some (.restore .loop)) else none
  | .loop => some (h.ensureEventLoop, some (.restore .call))
  | .call =>
    match if h.running then .error .alreadyRunning else answer.restore with
    | .error e => some (h, some (.restore (.restart (.refused (restoreErrorMessage e)))))
    | .ok _ => some (h, some (.restore .replaced))
  | .replaced => some (h.update fun state => { state with fenced := false }, some (.restore (.restart .restored)))
  | .restart exit => some (h, some (.restore (if h.foregrounded then .core exit .call else .settle exit)))
  | .core exit start =>
    match h.startCore answer.start start with
    | (h, .inl start) => some (h, some (.restore (.core exit start)))
    | (h, .inr _) => some (h, some (.restore (.settle exit)))
  | .settle exit => some (h.update fun state => { state with restore := some exit.ui }, none)

def runLink (h : Holder) (answer : CoreAnswer) : Link → Option (Holder × Option Link)
  | .start step => some (h.startNode answer step)
  | .stop step => some (h.stopNode step)
  | .restore step => h.restoreNode answer step

/-- An acknowledgement of nothing throws, and the process ends. -/
def runEventLoop (h : Holder) : LoopStep → Option Holder
  | .next => h.events.queue.peek.map fun event => { h.queue .next with loopJob := some (.handle event) }
  | .handle event => some { h.update (·.reduce event) with loopJob := some (.ack event) }
  | .ack event =>
    if h.events.queue.queue = [] then none
    else some { h.queue .ack with loopJob := if event = .nodeStopped then none else some .next }

/-- The main thread does nothing else between a move of the lifecycle and its observer. -/
def step (h : Holder) : Act → Option Holder
  | .moveTo foregrounded =>
    if h.callback = none ∧ h.foregrounded ≠ foregrounded then
      some { h with foregrounded := foregrounded, callback := some foregrounded }
    else none
  | .callback =>
    h.callback.map fun foregrounded => { h with callback := none }.enqueueLifecycle (.asked foregrounded)
  | .startRestore =>
    if h.callback ≠ none then none
    else if h.state.restoring then some h
    else some <| (h.update fun state => { state with restore := some (.inProgress restoreInitialStep) }).enqueueLifecycle
      (.restore .stop)
  | .clearRestore =>
    if h.callback ≠ none then none
    else some (h.update UiState.clearRestore)
  | .link answer =>
    match h.chain with
    | [] => none
    | link :: rest => (h.runLink answer link).map fun (h, next) => { h with chain := next.toList ++ rest }
  | .loop => h.loopJob.bind h.runEventLoop
  | .emit event => some (h.queue (.push event.toEvent))

end Holder

end WalletCore.Shell
