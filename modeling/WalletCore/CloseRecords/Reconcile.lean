import Mathlib.Data.List.Sort
import Mathlib.Logic.Relation
import WalletCore.CloseRecords.Store

/-! # The chain-truth reconcile pass

A pass asks the chain at most eight questions about the pending records and completes a
record on positive evidence only. Heights are `u32` values whose sums wrap, as in the
release profile, which sets no overflow checks. Every answer of the chain and of the
wallet may depend on how many questions the pass has asked before, and other tasks may
use the store while a question is awaited.
-/

namespace WalletCore.CloseRecords

open Lib

def finalityConfs : UInt32 := 6

def maxTimelockBlocks : UInt32 := 2016

def maxQueriesPerPass : Nat := 8

def offlineCloseReason : String := "Channel closed while the app was offline"

structure ChainTruth where
  tipHeight : Except String UInt32
  outspend : Nat → String → UInt32 → Except String (Option String)
  txConfirmedHeight : Nat → String → Except String (Option UInt32)

/-- The order in which a hash map happens to be iterated. -/
structure IterOrder (α : Type) where
  arrange : List α → List α
  perm : ∀ l : List α, (arrange l).Perm l

def IterOrder.keep (α : Type) : IterOrder α := ⟨id, .refl⟩

structure PassInput where
  chain : ChainTruth
  txConfirmedInWallet : Nat → String → Bool
  openChannelIds : List String
  pendingSweepChannels : List String
  nowMs : UInt64
  recordOrder : IterOrder (String × CloseRecord)
  fundingOrder : IterOrder (String × FundingTxoEntry)
  /-- What other tasks do during the tip fetch (0) and during the n-th question (n). -/
  meanwhile : Nat → List StoreOp

structure Pass where
  store : CloseRecordStore
  budget : Nat
  queries : Nat
  /-- The log line of a skipped record sliced its channel id inside a character. -/
  panicked : Bool

def Pass.start (store : CloseRecordStore) : Pass :=
  { store := store, budget := maxQueriesPerPass, queries := 0, panicked := false }

def saturatingSub (a b : UInt32) : UInt32 := if b ≤ a then a - b else 0

def confirmations (tipHeight confirmedAtHeight : UInt32) : UInt32 :=
  saturatingSub tipHeight confirmedAtHeight + 1

def snapshot (order : IterOrder (String × CloseRecord)) (records : Records) : List CloseRecord :=
  ((order.arrange records.toPairs).map Prod.snd).insertionSort fun a b => b.createdAtMs ≤ a.createdAtMs

def pendingSnapshot (order : IterOrder (String × CloseRecord)) (records : Records) : List CloseRecord :=
  (snapshot order records).filter fun record => record.completedAtMs.isNone

section Queries

variable (input : PassInput)

def ask (pass : Pass) : Pass :=
  { pass with
    store := applyOps (input.meanwhile (pass.queries + 1)) pass.store
    budget := pass.budget - 1
    queries := pass.queries + 1 }

/-- The budget is spent before the question is asked; an exhausted budget reads as no answer. -/
def withBudget {α : Type} (pass : Pass) (query : Nat → Except String (Option α)) :
    Pass × Except String (Option α) :=
  if pass.budget = 0 then (pass, .ok none) else (ask input pass, query pass.queries)

/-- Step (a): the closing transaction behind the funding outspend. -/
def discoverCloseTx (pass : Pass) (record : CloseRecord) : Pass × Except String (List CloseRecordTx) :=
  match record.fundingTxo.filter fun _ => !record.hasConfirmedCloseTx with
  | none => (pass, .ok [])
  | some txo =>
    match withBudget input pass fun n => input.chain.outspend n txo.txid txo.vout with
    | (pass, .error e) => (pass, .error e)
    | (pass, .ok none) => (pass, .ok [])
    | (pass, .ok (some spender)) =>
      match withBudget input pass fun n => input.chain.txConfirmedHeight n spender with
      | (pass, .error e) => (pass, .error e)
      | (pass, .ok status) => (pass, .ok [{
          txid := spender
          role := if record.closeType = .coop then .closing else .commitment
          feeSats := none
          confirmedAtHeight := status }])

/-- Step (b): confirmation heights of the known transactions that have none. -/
def fillHeights : Pass → List CloseRecordTx → Pass × Except String (List CloseRecordTx)
  | pass, [] => (pass, .ok [])
  | pass, tx :: rest =>
    if tx.confirmedAtHeight.isSome then fillHeights pass rest
    else
      match withBudget input pass fun n => input.chain.txConfirmedHeight n tx.txid with
      | (pass, .error e) => (pass, .error e)
      | (pass, .ok status) =>
        match fillHeights pass rest with
        | (pass, .error e) => (pass, .error e)
        | (pass, .ok filled) =>
          match status with
          | some height => (pass, .ok ({ tx with confirmedAtHeight := some height } :: filled))
          | none => (pass, .ok filled)

/-- Step (b2): the timelock expiry, once a close transaction has confirmed. -/
def deriveClaimable (record : CloseRecord) (factTxs : List CloseRecordTx) : Option UInt32 :=
  if record.claimableAtHeight = none ∧ record.closeType ≠ .coop ∧ record.initiator ≠ .remote then
    record.timelockBlocks.bind fun timelock =>
      (((factTxs ++ record.txs).find? fun tx => tx.role.isClose && tx.confirmedAtHeight.isSome).bind
        CloseRecordTx.confirmedAtHeight).map fun height => height + timelock
  else none

def factsRecord (record : CloseRecord) (factTxs : List CloseRecordTx) : CloseRecord :=
  { CloseRecord.skeleton record.channelId record.createdAtMs with
    txs := factTxs
    claimableAtHeight := deriveClaimable record factTxs }

/-- Steps (a) to (b2): every question of one record, before anything is stored. -/
def collectFacts (pass : Pass) (record : CloseRecord) (tipChanged : Bool) :
    Pass × Except String CloseRecord :=
  match discoverCloseTx input pass record with
  | (pass, .error e) => (pass, .error e)
  | (pass, .ok discovered) =>
    match if tipChanged then fillHeights input pass record.txs else (pass, .ok []) with
    | (pass, .error e) => (pass, .error e)
    | (pass, .ok filled) => (pass, .ok (factsRecord record (discovered ++ filled)))

def deepConf (tipHeight : UInt32) (height : Option UInt32) : Bool :=
  height.any fun height => finalityConfs ≤ confirmations tipHeight height

def isReceiptRole : CloseTxRole → Bool
  | .sweep | .closing | .commitment => true
  | _ => false

def hasReceipt (queries : Nat) (tipHeight : UInt32) (current : CloseRecord) : Bool :=
  current.txs.any fun tx => isReceiptRole tx.role && deepConf tipHeight tx.confirmedAtHeight &&
    input.txConfirmedInWallet queries tx.txid

def closeHeight (current : CloseRecord) : Option UInt32 :=
  (current.txs.find? fun tx => tx.role.isClose).bind CloseRecordTx.confirmedAtHeight

def claimGate (tipHeight : UInt32) (current : CloseRecord) : Bool :=
  current.claimableAtHeight.all fun claimable => claimable ≤ tipHeight

/-- The three ways a final close without a receipt may still end. -/
def terminalRule (tipHeight : UInt32) (current : CloseRecord) : Bool :=
  decide (current.closeType = .coop) ||
    (current.claimableAtHeight.any fun claimable => claimable + finalityConfs ≤ tipHeight) ||
    ((closeHeight current).any fun height => height + maxTimelockBlocks + finalityConfs ≤ tipHeight)

/-- Step (c): the resolution the evidence allows. -/
def completionOf (queries : Nat) (tipHeight : UInt32) (current : CloseRecord) : Option Resolution :=
  let closeFinal := deepConf tipHeight (closeHeight current)
  if hasReceipt input queries tipHeight current then some .verified
  else if !claimGate tipHeight current then none
  else if decide (current.expectedAmountSats = some 0) && closeFinal then some .verified
  else if closeFinal && terminalRule tipHeight current then some .unverified
  else none

def storeFacts (pass : Pass) (facts : CloseRecord) : Pass :=
  if facts.txs = [] ∧ facts.claimableAtHeight = none then pass
  else { pass with store := pass.store.upsert facts }

def completionRecord (facts : CloseRecord) (nowMs : UInt64) (resolution : Resolution) : CloseRecord :=
  { facts with txs := [], completedAtMs := some nowMs, resolution := some resolution }

/-- The completion step of one record, on the record as it stands after the merge. -/
def completeRecord (pass : Pass) (record facts : CloseRecord) (tipHeight : UInt32) : Pass :=
  let current := (pass.store.get record.channelId).getD record
  if current.channelId ∈ input.pendingSweepChannels then pass
  else
    match completionOf input pass.queries tipHeight current with
    | some resolution =>
      { pass with store := pass.store.upsert (completionRecord facts input.nowMs resolution) }
    | none => pass

def reconcileOneRecord (pass : Pass) (record : CloseRecord) (tipChanged : Bool) (tipHeight : UInt32) :
    Pass × Except String Unit :=
  match collectFacts input pass record tipChanged with
  | (pass, .error e) => (pass, .error e)
  | (pass, .ok facts) =>
    let pass := storeFacts pass facts
    if tipChanged then (completeRecord input pass record facts tipHeight, .ok ()) else (pass, .ok ())

/-- Whether byte `index` of the text starts a character or ends the text. -/
def isCharBoundary (text : String) (index : Nat) : Bool :=
  (text.toList.scanl (fun offset c => offset + c.utf8Size) 0).contains index

def logSliceOk (channelId : String) : Bool := isCharBoundary channelId (min channelId.utf8ByteSize 8)

/-- An error skips its record only; an exhausted budget ends the pass. -/
def processRecords (tipChanged : Bool) (tipHeight : UInt32) : Pass → List CloseRecord → Pass
  | pass, [] => pass
  | pass, record :: rest =>
    match reconcileOneRecord input pass record tipChanged tipHeight with
    | (pass, .error _) =>
      if logSliceOk record.channelId = false then { pass with panicked := true }
      else if pass.budget = 0 then pass
      else processRecords tipChanged tipHeight pass rest
    | (pass, .ok ()) =>
      if pass.budget = 0 then pass else processRecords tipChanged tipHeight pass rest

/-- The record of a channel that vanished without one. -/
def safetyNetRecord (channelId : String) (txo : FundingTxoEntry) (nowMs : UInt64) : CloseRecord :=
  { CloseRecord.skeleton channelId nowMs with
    fundingTxo := some txo.outpoint
    closureReason := some offlineCloseReason
    timelockBlocks := txo.timelockBlocks }

def safetyNetStep (store : CloseRecordStore) (channelId : String) (txo : FundingTxoEntry) :
    CloseRecordStore :=
  if channelId ∈ input.openChannelIds then store
  else if (store.get channelId).isSome then store.removeFundingTxo channelId
  else (store.upsert (safetyNetRecord channelId txo input.nowMs)).removeFundingTxo channelId

def safetyNet (store : CloseRecordStore) (fundingMap : FundingTxos) : CloseRecordStore :=
  (input.fundingOrder.arrange fundingMap.toPairs).foldl
    (fun acc entry => safetyNetStep input acc entry.1 entry.2) store

def undiscoveredExists (pendingRecords : List CloseRecord) : Bool :=
  pendingRecords.any fun record => record.fundingTxo.isSome && !record.hasConfirmedCloseTx

/-- The pass after the tip is known. -/
def reconcileAtTip (store : CloseRecordStore) (pendingRecords : List CloseRecord) (fundingMap : FundingTxos)
    (tipHeight : UInt32) : Pass :=
  let tipChanged := decide (store.lastTipHeight ≠ some tipHeight)
  let store := store.setLastTipHeight tipHeight
  if !tipChanged && !undiscoveredExists pendingRecords then .start store
  else
    let store := if tipChanged then safetyNet input store fundingMap else store
    processRecords input tipChanged tipHeight (.start store) (pendingSnapshot input.recordOrder store.records)

def reconcileCloseRecords (store : CloseRecordStore) : Pass :=
  let pendingRecords := pendingSnapshot input.recordOrder store.records
  let fundingMap := store.fundingTxos
  if pendingRecords = [] ∧ fundingMap = ∅ then .start store
  else
    let store := applyOps (input.meanwhile 0) store
    match input.chain.tipHeight with
    | .error _ => .start store
    | .ok tipHeight => reconcileAtTip input store pendingRecords fundingMap tipHeight

/-! ## The records a pass looks at -/

theorem mem_snapshot (order : IterOrder (String × CloseRecord)) (records : Records) (record : CloseRecord) :
    record ∈ snapshot order records ↔ ∃ key, records.lookup key = some record := by
  rw [snapshot, List.mem_insertionSort, List.mem_map]
  constructor
  · rintro ⟨⟨key, record'⟩, hMem, rfl⟩
    exact ⟨key, (StringMap.mem_toPairs _ _ _).mp ((order.perm _).mem_iff.mp hMem)⟩
  · rintro ⟨key, hKey⟩
    exact ⟨(key, record), (order.perm _).mem_iff.mpr ((StringMap.mem_toPairs _ _ _).mpr hKey), rfl⟩

theorem mem_pendingSnapshot (order : IterOrder (String × CloseRecord)) (store : CloseRecordStore)
    (record : CloseRecord) : record ∈ pendingSnapshot order store.records ↔
      store.get record.channelId = some record ∧ record.completedAtMs = none := by
  rw [pendingSnapshot, List.mem_filter, mem_snapshot, Option.isNone_iff_eq_none]
  constructor
  · rintro ⟨⟨key, hKey⟩, hPending⟩
    exact ⟨(store.keyed key record hKey).symm ▸ hKey, hPending⟩
  · rintro ⟨hGet, hPending⟩
    exact ⟨⟨_, hGet⟩, hPending⟩

theorem pendingSnapshot_nodup (order : IterOrder (String × CloseRecord)) (store : CloseRecordStore) :
    ((pendingSnapshot order store.records).map CloseRecord.channelId).Nodup := by
  have hPerm : (snapshot order store.records).Perm (store.records.toPairs.map Prod.snd) :=
    (List.perm_insertionSort _ _).trans ((order.perm _).map _)
  have hIds : (store.records.toPairs.map Prod.snd).map CloseRecord.channelId = store.records.toPairs.map Prod.fst := by
    rw [List.map_map]
    apply List.map_congr_left
    intro entry hEntry
    exact store.keyed entry.1 entry.2 ((StringMap.mem_toPairs _ _ _).mp hEntry)
  have hNodup : ((snapshot order store.records).map CloseRecord.channelId).Nodup := by
    rw [(hPerm.map _).nodup_iff, hIds]
    exact store.records.toPairs_keys_nodup
  exact hNodup.sublist (List.filter_sublist.map _)

/-! ## The questions of one record -/

/-- One question within the budget. -/
def Asks (pass pass' : Pass) : Prop := pass.budget ≠ 0 ∧ pass' = ask input pass

abbrev Asked : Pass → Pass → Prop := Relation.ReflTransGen (Asks input)

theorem withBudget_asked {α : Type} (pass : Pass) (query : Nat → Except String (Option α)) :
    Asked input pass (withBudget input pass query).1 := by
  rw [withBudget]
  split
  · exact .refl
  · rename_i h
    exact .single ⟨h, rfl⟩

theorem discoverCloseTx_asked (pass : Pass) (record : CloseRecord) :
    Asked input pass (discoverCloseTx input pass record).1 := by
  unfold discoverCloseTx
  split
  · exact .refl
  · rename_i txo _
    have hFirst := withBudget_asked input pass fun n => input.chain.outspend n txo.txid txo.vout
    split
    · rename_i h
      rw [h] at hFirst
      exact hFirst
    · rename_i h
      rw [h] at hFirst
      exact hFirst
    · rename_i pass' spender h
      rw [h] at hFirst
      have hSecond := withBudget_asked input pass' fun n => input.chain.txConfirmedHeight n spender
      split <;>
      · rename_i h'
        rw [h'] at hSecond
        exact hFirst.trans hSecond

theorem fillHeights_asked (pass : Pass) (txs : List CloseRecordTx) :
    Asked input pass (fillHeights input pass txs).1 := by
  induction txs generalizing pass with
  | nil => exact .refl
  | cons tx rest ih =>
    rw [fillHeights]
    split
    · exact ih pass
    · have hFirst := withBudget_asked input pass fun n => input.chain.txConfirmedHeight n tx.txid
      split
      · rename_i h
        rw [h] at hFirst
        exact hFirst
      · rename_i pass' status h
        rw [h] at hFirst
        have hRest := ih pass'
        split
        · rename_i h'
          rw [h'] at hRest
          exact hFirst.trans hRest
        · rename_i h'
          rw [h'] at hRest
          split <;> exact hFirst.trans hRest

theorem collectFacts_asked (pass : Pass) (record : CloseRecord) (tipChanged : Bool) :
    Asked input pass (collectFacts input pass record tipChanged).1 := by
  have hFirst := discoverCloseTx_asked input pass record
  rw [collectFacts]
  split
  · rename_i h
    rw [h] at hFirst
    exact hFirst
  · rename_i pass' discovered h
    rw [h] at hFirst
    have hSecond : Asked input pass'
        (if tipChanged then fillHeights input pass' record.txs else (pass', .ok [])).1 := by
      split
      · exact fillHeights_asked input pass' record.txs
      · exact .refl
    split <;>
    · rename_i h'
      rw [h'] at hSecond
      exact hFirst.trans hSecond

theorem Asked.budget_add_queries {pass pass' : Pass} (h : Asked input pass pass') :
    pass'.budget + pass'.queries = pass.budget + pass.queries := by
  induction h with
  | refl => rfl
  | tail _ hStep ih =>
    obtain ⟨hBudget, rfl⟩ := hStep
    rw [← ih]
    simp only [ask]
    omega

end Queries

end WalletCore.CloseRecords
