import WalletCore.CloseRecords.Store
import WalletCore.History.PaymentStore
import WalletCore.Sweep.Store

/-! # The stores of the application

A `Node` owns four stores besides the channel state: payment rows, close records with their funding
outputs, the recovery banner, and the outputs that wait to be swept. All but the last are read into memory
when the `Node` is made and are written back from there.
-/

namespace WalletCore.Restore

open Lib History CloseRecords Sweep

/-! ## The recovery store -/

inductive RecoveryStatus where
  | needsRecovery
  | sweepConfirmed
deriving DecidableEq

def RecoveryStatus.asStr : RecoveryStatus → String
  | .needsRecovery => "needs_recovery"
  | .sweepConfirmed => "sweep_confirmed"

def RecoveryStatus.fromStr : String → Option RecoveryStatus
  | "needs_recovery" => some .needsRecovery
  | "sweep_confirmed" => some .sweepConfirmed
  | _ => none

structure RecoveryState where
  status : RecoveryStatus
  stuckBalanceSat : Option UInt64
  depositAddress : String
  depositNeededSat : UInt64
  channelIds : List String
  createdAt : UInt64
  updatedAt : UInt64
deriving DecidableEq

def encodeRecovery (state : RecoveryState) : Bytes :=
  .ofJson (.object [
    ("status", .string state.status.asStr),
    ("stuckBalanceSat", writeOption .ofU64 state.stuckBalanceSat),
    ("depositAddress", .string state.depositAddress),
    ("depositNeededSat", .ofU64 state.depositNeededSat),
    ("channelIds", .array (state.channelIds.map .string)),
    ("createdAt", .ofU64 state.createdAt),
    ("updatedAt", .ofU64 state.updatedAt)])

def readRecovery (status : Json) (stuckBalanceSat : Option Json)
    (depositAddress depositNeededSat channelIds createdAt updatedAt : Json) : Option RecoveryState := do
  let status ← readVariant RecoveryStatus.fromStr status
  let stuckBalanceSat ← (stuckBalanceSat.map (readOption Json.asU64)).getD (some none)
  let depositAddress ← depositAddress.asStr
  let depositNeededSat ← depositNeededSat.asU64
  let channelIds ← (← channelIds.asArray).mapM Json.asStr
  let createdAt ← createdAt.asU64
  let updatedAt ← updatedAt.asU64
  return ⟨status, stuckBalanceSat, depositAddress, depositNeededSat, channelIds, createdAt, updatedAt⟩

def decodeRecovery (bytes : Bytes) : Option RecoveryState :=
  match bytes.fromSlice with
  | some (.object entries) => do
    readRecovery (← requiredField entries "status") (← field entries "stuckBalanceSat")
      (← requiredField entries "depositAddress") (← requiredField entries "depositNeededSat")
      (← requiredField entries "channelIds") (← requiredField entries "createdAt") (← requiredField entries "updatedAt")
  | some (.array [status, stuckBalanceSat, depositAddress, depositNeededSat, channelIds, createdAt, updatedAt]) =>
    readRecovery status (some stuckBalanceSat) depositAddress depositNeededSat channelIds createdAt updatedAt
  | _ => none

structure RecoveryStore where
  state : Option RecoveryState
  file : Option Bytes

/-- Absent or corrupt counts as no state. -/
def RecoveryStore.new (file : Option Bytes) : RecoveryStore := ⟨file.bind decodeRecovery, file⟩

/-! ## All four -/

/-- What the running node sends to its VSS store on behalf of the stores. -/
inductive Pushed where
  | put (key : String) (bytes : Bytes)
  | delete (key : String)
deriving DecidableEq

def closeRecordsVssKey : String := "close_records"

def forceCloseRecoveryVssKey : String := "force_close_recovery"

structure App where
  payments : PaymentStore
  closeRecords : CloseRecordStore
  recovery : RecoveryStore
  sweeps : SweepStore
  pushed : List Pushed

namespace App

def push (app : App) (pushed : Pushed) : App := { app with pushed := app.pushed ++ [pushed] }

/-! ### Close records -/

def upsert (app : App) (incoming : CloseRecord) : App :=
  let closeRecords := app.closeRecords.upsert incoming
  { app with closeRecords := closeRecords }.push (.put closeRecordsVssKey (encodeRecords closeRecords.records))

/-- A remote map folded in; after a conflict the merged map is put again. -/
def absorbRemote (app : App) (remoteBytes : Bytes) (nowMs : UInt64) (conflict : Bool) : App :=
  let closeRecords := app.closeRecords.absorbRemote remoteBytes nowMs
  let app := { app with closeRecords := closeRecords }
  if conflict then app.push (.put closeRecordsVssKey (encodeRecords closeRecords.records)) else app

def recordFundingTxo (app : App) (channelId : String) (entry : FundingTxoEntry) : App :=
  { app with closeRecords := app.closeRecords.recordFundingTxo channelId entry }

def removeFundingTxo (app : App) (channelId : String) : App :=
  { app with closeRecords := app.closeRecords.removeFundingTxo channelId }

def channelClosed (app : App) (channelId : String) (classification : ClosureClassification)
    (eventFundingTxo : Option CloseOutpoint) (lastLocalBalanceSats : Option UInt64) (nowMs : UInt64) : App :=
  let mapEntry := app.closeRecords.fundingTxos.lookup channelId
  if classification.hasOnchainTx = false ∧ app.closeRecords.get channelId = none then app.removeFundingTxo channelId
  else
    (app.upsert (channelClosedRecord mapEntry channelId classification eventFundingTxo
      lastLocalBalanceSats nowMs)).removeFundingTxo channelId

def recordSweepTx (app : App) (txid : String) (channelIds : List String) (nowMs : UInt64) : App :=
  channelIds.foldl (fun app channelId => app.upsert (sweepRecord channelId txid nowMs)) app

/-! ### Recovery -/

/-- Local first, then the remote copy, then memory. -/
def writeState (app : App) (state : RecoveryState) (fails : Bool) : App :=
  { app with recovery := ⟨some state, if fails then app.recovery.file else some (encodeRecovery state)⟩ }.push
    (.put forceCloseRecoveryVssKey (encodeRecovery state))

/-- A remote state is taken over into an empty store only. -/
def seedRecovery (app : App) (remoteBytes : Bytes) (fails : Bool) : App :=
  match app.recovery.state with
  | some _ => app
  | none =>
    match decodeRecovery remoteBytes with
    | none => app
    | some state =>
      { app with recovery := ⟨some state, if fails then app.recovery.file else some (encodeRecovery state)⟩ }

def addBalance : Option UInt64 → Option UInt64 → Option UInt64
  | some total, some more => some (total + more)
  | _, _ => none

def enterRecovery (app : App) (channelId : String) (localBalanceSat : Option UInt64) (depositAddress : String)
    (depositNeededSat nowMs : UInt64) (fails : Bool) : App :=
  match app.recovery.state with
  | some existing =>
    if channelId ∈ existing.channelIds then app
    else
      app.writeState { existing with
        channelIds := existing.channelIds ++ [channelId]
        stuckBalanceSat := addBalance existing.stuckBalanceSat localBalanceSat
        depositNeededSat := depositNeededSat
        updatedAt := nowMs } fails
  | none =>
    app.writeState ⟨.needsRecovery, localBalanceSat, depositAddress, depositNeededSat, [channelId], nowMs, nowMs⟩ fails

def clearRecovery (app : App) (fails : Bool) : App :=
  match app.recovery.state with
  | none => app
  | some _ =>
    { app with recovery := ⟨none, if fails then app.recovery.file else none⟩ }.push (.delete forceCloseRecoveryVssKey)

/-- Every channel of the recovery has a confirmed closing transaction, or a completed record. -/
def closeConfirmedForAllChannels (channelIds : List String) (getRecord : String → Option CloseRecord) : Bool :=
  !channelIds.isEmpty && channelIds.all fun channelId =>
    match getRecord channelId with
    | none => false
    | some record => record.completedAtMs.isSome ||
      record.txs.any fun tx => (tx.role == .closing || tx.role == .commitment) && tx.confirmedAtHeight.isSome

def maybeClearResolved (app : App) (fails : Bool) : App :=
  match app.recovery.state with
  | none => app
  | some state =>
    if state.status = .sweepConfirmed then app
    else if closeConfirmedForAllChannels state.channelIds app.closeRecords.get then app.clearRecovery fails
    else app

def markSweepConfirmed (app : App) (nowMs : UInt64) (fails : Bool) : App :=
  match app.recovery.state with
  | none => app
  | some state =>
    if state.status = .sweepConfirmed then app
    else app.writeState { state with status := .sweepConfirmed, updatedAt := nowMs } fails

/-! ### Operations as data -/

inductive Op where
  | payment (call : Call)
  | upsert (incoming : CloseRecord)
  | absorbRemote (remoteBytes : Bytes) (nowMs : UInt64) (conflict : Bool)
  | recordFundingTxo (channelId : String) (entry : FundingTxoEntry)
  | removeFundingTxo (channelId : String)
  | channelClosed (channelId : String) (classification : ClosureClassification)
      (eventFundingTxo : Option CloseOutpoint) (lastLocalBalanceSats : Option UInt64) (nowMs : UInt64)
  | recordSweepTx (txid : String) (channelIds : List String) (nowMs : UInt64)
  | seedRecovery (remoteBytes : Bytes) (fails : Bool)
  | enterRecovery (channelId : String) (localBalanceSat : Option UInt64) (depositAddress : String)
      (depositNeededSat nowMs : UInt64) (fails : Bool)
  | clearRecovery (fails : Bool)
  | maybeClearResolved (fails : Bool)
  | markSweepConfirmed (nowMs : UInt64) (fails : Bool)
  | writeEntry (key : String) (entry : StoredEntry) (fails : Bool)
  | removeEntries (keys : List String) (fails : String → Bool)
  | setFlags (lastAttemptFailed : Bool) (shortfallSats : Option UInt64)

def apply (app : App) : Op → App
  | .payment call => { app with payments := (call.apply app.payments).1 }
  | .upsert incoming => app.upsert incoming
  | .absorbRemote remoteBytes nowMs conflict => app.absorbRemote remoteBytes nowMs conflict
  | .recordFundingTxo channelId entry => app.recordFundingTxo channelId entry
  | .removeFundingTxo channelId => app.removeFundingTxo channelId
  | .channelClosed channelId classification eventFundingTxo lastLocalBalanceSats nowMs =>
    app.channelClosed channelId classification eventFundingTxo lastLocalBalanceSats nowMs
  | .recordSweepTx txid channelIds nowMs => app.recordSweepTx txid channelIds nowMs
  | .seedRecovery remoteBytes fails => app.seedRecovery remoteBytes fails
  | .enterRecovery channelId localBalanceSat depositAddress depositNeededSat nowMs fails =>
    app.enterRecovery channelId localBalanceSat depositAddress depositNeededSat nowMs fails
  | .clearRecovery fails => app.clearRecovery fails
  | .maybeClearResolved fails => app.maybeClearResolved fails
  | .markSweepConfirmed nowMs fails => app.markSweepConfirmed nowMs fails
  | .writeEntry key entry fails => { app with sweeps := app.sweeps.writeEntry key entry fails }
  | .removeEntries keys fails => { app with sweeps := app.sweeps.removeEntries keys fails }
  | .setFlags lastAttemptFailed shortfallSats => { app with sweeps := app.sweeps.setFlags lastAttemptFailed shortfallSats }

def run (app : App) (ops : List Op) : App := ops.foldl apply app

end App

end WalletCore.Restore
