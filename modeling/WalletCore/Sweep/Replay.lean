import WalletCore.Restore.AppStores
import WalletCore.Sweep.Tracking

/-! # Replay of missed outputs

After a restore the sweep store is empty, and no event will fill it again. A pass at startup walks the
close records, asks their monitors for the outputs of the transactions they name, and tracks those that
the chain says are unspent.
-/

namespace WalletCore.Sweep

open Lib CloseRecords
open Restore (hexStr)
open Wallet hiding Psbt

/-! ## What is replayed -/

def needsDescriptorReplay (record : CloseRecord) : Bool :=
  record.closeType == .force && record.fundingTxo.isSome && record.expectedAmountSats.any (· ≠ 0) &&
    record.resolution != some .verified &&
    !(record.txs.any fun tx => tx.role == .sweep && tx.confirmedAtHeight.isSome) &&
    (Restore.App.closeConfirmedForAllChannels [record.channelId] (fun _ => some record) ||
      record.txs.any (·.role.isClose))

/-- The commitment or closing transaction first. -/
def replayCandidates (record : CloseRecord) : List CloseRecordTx :=
  let scannable (tx : CloseRecordTx) : Bool := tx.role != .sweep && tx.role != .anchorCpfp
  ((record.txs.filter (·.role.isClose)).filter scannable) ++ ((record.txs.filter (!·.role.isClose)).filter scannable)

/-! ## A pass -/

/-- What monitors and the chain answer, by the record, the transaction and the output they are asked for. -/
structure ReplayWorld where
  hasMonitor : Nat → CloseOutpoint → Bool
  fullTx : Nat × Nat → String → Except String (Option Transaction)
  txConfirmedHeight : Nat × Nat → String → Except String (Option UInt32)
  replaySpendableOutputs : Nat × Nat → CloseOutpoint → Transaction → UInt32 → Option (List SpendableOutputDescriptor)
  outpointSpent : Nat × Nat → Nat → String → UInt32 → Except String Bool

/-- What a tracking call meets. -/
structure TrackIo where
  listing : List String
  revealError : Nat → Option String
  key : String
  fails : Bool
  detail : String

def TrackIo.call (io : TrackIo) (outputs : List SpendableOutputDescriptor) (channelId : String) : TrackCall :=
  ⟨io.listing, outputs.zipIdx.map fun (descriptor, i) => (descriptor, io.revealError i), some channelId, io.key, io.fails⟩

namespace ReplayWorld

variable (world : ReplayWorld)

def asksSpent (slot : Nat × Nat) (output : SpendableOutputDescriptor × Nat) : Except String Bool :=
  world.outpointSpent slot output.2 output.1.spendableOutpoint.txid output.1.spendableOutpoint.index.toUInt32

def isUnspent (slot : Nat × Nat) (output : SpendableOutputDescriptor × Nat) : Bool :=
  match world.asksSpent slot output with
  | .ok spent => !spent
  | .error _ => false

def isSpent (slot : Nat × Nat) (output : SpendableOutputDescriptor × Nat) : Bool :=
  match world.asksSpent slot output with
  | .ok spent => spent
  | .error _ => false

/-- The record's height saves a query. -/
def candidateHeight (slot : Nat × Nat) (candidate : CloseRecordTx) : Except String (Option UInt32) :=
  match candidate.confirmedAtHeight with
  | some height => .ok (some height)
  | none => world.txConfirmedHeight slot candidate.txid

/-- The outputs to be tracked, and how many were spent already. -/
def survivors (slot : Nat × Nat) (fundingTxo : CloseOutpoint) (candidate : CloseRecordTx) :
    Except String (List SpendableOutputDescriptor × Nat) := do
  let some tx ← world.fullTx slot candidate.txid | return ([], 0)
  let some height ← world.candidateHeight slot candidate | return ([], 0)
  let some descriptors := world.replaySpendableOutputs slot fundingTxo tx height
    | throw "monitor disappeared mid-pass"
  return ((descriptors.zipIdx.filter (world.isUnspent slot)).map Prod.fst,
    descriptors.zipIdx.countP (world.isSpent slot))

end ReplayWorld

structure ReplaySummary where
  recordsExamined : Nat
  descriptorsTracked : Nat
  alreadySpent : Nat

structure ReplayRun where
  engine : SweepEngine
  summary : ReplaySummary

section

variable (signer : Signer) (keys : Descriptors) (world : ReplayWorld) (io : Nat × Nat → TrackIo)

def replayOneTx (slot : Nat × Nat) (record : CloseRecord) (fundingTxo : CloseOutpoint) (candidate : CloseRecordTx)
    (e : SweepEngine) : Except String (Nat × Nat) × SweepEngine :=
  match world.survivors slot fundingTxo candidate with
  | .error error => (.error error, e)
  | .ok (survivors, alreadySpent) =>
    if survivors = [] then (.ok (0, alreadySpent), e)
    else
      match ((io slot).call survivors record.channelId).run signer keys e with
      | (.error (), e) => (.error ("failed to persist spendable outputs: " ++ (io slot).detail), e)
      | (.ok tracked, e) => (.ok (tracked, alreadySpent), e)

/-- A transaction that fails is logged and skipped. -/
def replayCandidate (r : Nat) (record : CloseRecord) (fundingTxo : CloseOutpoint) (run : ReplayRun)
    (candidate : CloseRecordTx × Nat) : ReplayRun :=
  match replayOneTx signer keys world io (r, candidate.2) record fundingTxo candidate.1 run.engine with
  | (.ok (tracked, spent), engine) =>
    ⟨engine, { run.summary with
      descriptorsTracked := run.summary.descriptorsTracked + tracked
      alreadySpent := run.summary.alreadySpent + spent }⟩
  | (.error _, engine) => { run with engine }

def replayRecord (run : ReplayRun) (record : CloseRecord × Nat) : ReplayRun :=
  match record.1.fundingTxo with
  | none => run
  | some fundingTxo =>
    if world.hasMonitor record.2 fundingTxo then
      (replayCandidates record.1).zipIdx.foldl (replayCandidate signer keys world io record.2 record.1 fundingTxo)
        { run with summary.recordsExamined := run.summary.recordsExamined + 1 }
    else run

/-- `records` is the snapshot the pass starts from. -/
def replayMissedSpendableOutputs (records : List CloseRecord) (e : SweepEngine) : ReplayRun :=
  (records.filter needsDescriptorReplay).zipIdx.foldl (replayRecord signer keys world io) ⟨e, ⟨0, 0, 0⟩⟩

end

/-! ## The calls of a pass -/

def callStep (signer : Signer) (keys : Descriptors) (e : SweepEngine) (call : TrackCall) : Option SweepEngine :=
  some (call.run signer keys e).2

section

variable (world : ReplayWorld) (io : Nat × Nat → TrackIo)

/-- What a transaction has tracked depends on the answers only. -/
def txCalls (slot : Nat × Nat) (record : CloseRecord) (fundingTxo : CloseOutpoint) (candidate : CloseRecordTx) :
    List TrackCall :=
  match world.survivors slot fundingTxo candidate with
  | .error _ => []
  | .ok (survivors, _) => if survivors = [] then [] else [(io slot).call survivors record.channelId]

def recordCalls (record : CloseRecord × Nat) : List TrackCall :=
  match record.1.fundingTxo with
  | none => []
  | some fundingTxo =>
    if world.hasMonitor record.2 fundingTxo then
      (replayCandidates record.1).zipIdx.flatMap fun candidate =>
        txCalls world io (record.2, candidate.2) record.1 fundingTxo candidate.1
    else []

def replayCalls (records : List CloseRecord) : List TrackCall :=
  (records.filter needsDescriptorReplay).zipIdx.flatMap (recordCalls world io)

end

section

variable {signer : Signer} {keys : Descriptors} {world : ReplayWorld} {io : Nat × Nat → TrackIo}

theorem exec_foldl {α : Type} {calls : α → List TrackCall} {next : ReplayRun → α → ReplayRun}
    (h : ∀ run item, exec (callStep signer keys) run.engine (calls item) = some (next run item).engine)
    (run : ReplayRun) (items : List α) :
    exec (callStep signer keys) run.engine (items.flatMap calls) = some (items.foldl next run).engine := by
  induction items generalizing run with
  | nil => rfl
  | cons item rest ih =>
    rw [List.flatMap_cons, exec_append, h, Option.bind_some, ih, List.foldl_cons]

theorem exec_txCalls (r : Nat) (record : CloseRecord) (fundingTxo : CloseOutpoint) (run : ReplayRun)
    (candidate : CloseRecordTx × Nat) :
    exec (callStep signer keys) run.engine (txCalls world io (r, candidate.2) record fundingTxo candidate.1) =
      some (replayCandidate signer keys world io r record fundingTxo run candidate).engine := by
  rw [txCalls, replayCandidate, replayOneTx]
  cases world.survivors (r, candidate.2) fundingTxo candidate.1 with
  | error error => rfl
  | ok found =>
    obtain ⟨survivors, alreadySpent⟩ := found
    dsimp only
    split_ifs
    · rfl
    · simp only [exec, callStep]
      obtain ⟨result, engine⟩ :=
        ((io (r, candidate.2)).call survivors record.channelId).run signer keys run.engine
      cases result <;> rfl

theorem exec_recordCalls (run : ReplayRun) (record : CloseRecord × Nat) :
    exec (callStep signer keys) run.engine (recordCalls world io record) =
      some (replayRecord signer keys world io run record).engine := by
  rw [recordCalls, replayRecord]
  cases record.1.fundingTxo with
  | none => rfl
  | some fundingTxo =>
    dsimp only
    split_ifs
    · exact exec_foldl (exec_txCalls record.2 record.1 fundingTxo) { run with
        summary.recordsExamined := run.summary.recordsExamined + 1 } _
    · rfl

theorem exec_replayCalls (records : List CloseRecord) (e : SweepEngine) :
    exec (callStep signer keys) e (replayCalls world io records) =
      some (replayMissedSpendableOutputs signer keys world io records e).engine :=
  exec_foldl exec_recordCalls ⟨e, ⟨0, 0, 0⟩⟩ _

theorem mem_txCalls {slot : Nat × Nat} {record : CloseRecord} {fundingTxo : CloseOutpoint} {candidate : CloseRecordTx}
    {call : TrackCall} (h : call ∈ txCalls world io slot record fundingTxo candidate) :
    ∃ survivors spent, world.survivors slot fundingTxo candidate = .ok (survivors, spent) ∧ survivors ≠ [] ∧
      call = (io slot).call survivors record.channelId := by
  rw [txCalls] at h
  split at h
  · cases h
  · next survivors spent hFound =>
    split_ifs at h with hNone
    · cases h
    · exact ⟨survivors, spent, hFound, hNone, List.mem_singleton.mp h⟩

theorem mem_recordCalls {record : CloseRecord × Nat} {call : TrackCall} :
    call ∈ recordCalls world io record ↔ ∃ fundingTxo, record.1.fundingTxo = some fundingTxo ∧
      world.hasMonitor record.2 fundingTxo = true ∧ ∃ candidate ∈ (replayCandidates record.1).zipIdx,
        call ∈ txCalls world io (record.2, candidate.2) record.1 fundingTxo candidate.1 := by
  rw [recordCalls]
  cases record.1.fundingTxo with
  | none => simp
  | some fundingTxo =>
    dsimp only
    split_ifs with hMonitor
    · simp [hMonitor]
    · simp [hMonitor]

theorem mem_replayCalls {records : List CloseRecord} {call : TrackCall} :
    call ∈ replayCalls world io records ↔
      ∃ record ∈ (records.filter needsDescriptorReplay).zipIdx, call ∈ recordCalls world io record := by
  rw [replayCalls, List.mem_flatMap]

theorem TrackIo.call_outputs (trackIo : TrackIo) (outputs : List SpendableOutputDescriptor) (channelId : String) :
    (trackIo.call outputs channelId).outputs.map Prod.fst = outputs := by
  simp only [TrackIo.call, List.map_map]
  exact List.zipIdx_map_fst 0 outputs

variable (io) in
/-- Passes that get the same answers ask for the same outputs, whatever their writes meet. -/
theorem replayCalls_outputs {io' : Nat × Nat → TrackIo} {records : List CloseRecord} {call : TrackCall}
    (h : call ∈ replayCalls world io' records) :
    ∃ other ∈ replayCalls world io records, other.outputs.map Prod.fst = call.outputs.map Prod.fst := by
  obtain ⟨record, hRecord, hCall⟩ := mem_replayCalls.mp h
  obtain ⟨fundingTxo, hFunding, hMonitor, candidate, hCandidate, hCall⟩ := mem_recordCalls.mp hCall
  obtain ⟨survivors, spent, hFound, hSome, rfl⟩ := mem_txCalls hCall
  refine ⟨(io (record.2, candidate.2)).call survivors record.1.channelId, ?_, ?_⟩
  · refine mem_replayCalls.mpr ⟨record, hRecord, mem_recordCalls.mpr ⟨fundingTxo, hFunding, hMonitor, candidate,
      hCandidate, ?_⟩⟩
    rw [txCalls, hFound]
    dsimp only
    rw [if_neg hSome]
    exact List.mem_cons_self
  · rw [TrackIo.call_outputs, TrackIo.call_outputs]

/-- Whatever is asked for was answered to be unspent. -/
theorem survivors_unspent {slot : Nat × Nat} {fundingTxo : CloseOutpoint} {candidate : CloseRecordTx}
    {survivors : List SpendableOutputDescriptor} {spent : Nat}
    (h : world.survivors slot fundingTxo candidate = .ok (survivors, spent)) {descriptor : SpendableOutputDescriptor}
    (hMem : descriptor ∈ survivors) : ∃ i, world.asksSpent slot (descriptor, i) = .ok false := by
  have hFound : survivors = [] ∨ ∃ descriptors : List SpendableOutputDescriptor,
      survivors = (descriptors.zipIdx.filter (world.isUnspent slot)).map Prod.fst := by
    rw [ReplayWorld.survivors] at h
    obtain ⟨tx, -, h⟩ := Restore.bind_ok h
    cases tx with
    | none =>
      cases h
      exact .inl rfl
    | some tx =>
      obtain ⟨height, -, h⟩ := Restore.bind_ok h
      cases height with
      | none =>
        cases h
        exact .inl rfl
      | some height =>
        dsimp only at h
        split at h
        · next descriptors _ =>
          cases h
          exact .inr ⟨descriptors, rfl⟩
        · cases h
  obtain rfl | ⟨descriptors, rfl⟩ := hFound
  · cases hMem
  · obtain ⟨output, hOutput, rfl⟩ := List.mem_map.mp hMem
    have hUnspent := (List.mem_filter.mp hOutput).2
    refine ⟨output.2, ?_⟩
    rw [ReplayWorld.isUnspent] at hUnspent
    split at hUnspent
    · next spent hAnswer =>
      obtain rfl : spent = false := by simpa using hUnspent
      exact hAnswer
    · cases hUnspent

/-! ## What passes store -/

theorem replay_entryAt {records : List CloseRecord} {e : SweepEngine} {key : String} {entry : StoredEntry}
    (h : (replayMissedSpendableOutputs signer keys world io records e).engine.store.entryAt key = some entry) :
    e.store.entryAt key = some entry ∨
      ∀ o ∈ entry.outpoints, ∃ slot i, world.outpointSpent slot i o.txid o.vout = .ok false := by
  have hAsked : ∀ call ∈ replayCalls world io records, ∀ output ∈ call.outputs, ∃ slot i,
      world.asksSpent slot (output.1, i) = .ok false := by
    intro call hCall output hOutput
    obtain ⟨record, -, hCall⟩ := mem_replayCalls.mp hCall
    obtain ⟨fundingTxo, -, -, candidate, -, hCall⟩ := mem_recordCalls.mp hCall
    obtain ⟨survivors, spent, hFound, -, rfl⟩ := mem_txCalls hCall
    have hMem : output.1 ∈ survivors := by
      rw [← TrackIo.call_outputs (io (record.2, candidate.2)) survivors record.1.channelId]
      exact List.mem_map_of_mem hOutput
    exact ⟨_, survivors_unspent hFound hMem⟩
  have hStep : ∀ (s : SweepEngine) (call : TrackCall) (t : SweepEngine),
      (∀ key entry, s.store.entryAt key = some entry → e.store.entryAt key = some entry ∨
        ∀ o ∈ entry.outpoints, ∃ slot i, world.outpointSpent slot i o.txid o.vout = .ok false) →
      (∀ output ∈ call.outputs, ∃ slot i, world.asksSpent slot (output.1, i) = .ok false) →
      callStep signer keys s call = some t →
      ∀ key entry, t.store.entryAt key = some entry → e.store.entryAt key = some entry ∨
        ∀ o ∈ entry.outpoints, ∃ slot i, world.outpointSpent slot i o.txid o.vout = .ok false := by
    rintro s call _ hBefore hCall ⟨⟩ key entry hEntry
    obtain hOld | ⟨-, hNew⟩ := TrackCall.run_entryAt hEntry
    · exact hBefore key entry hOld
    · refine .inr fun o ho => ?_
      obtain ⟨output, hOutput, hTxid, hVout⟩ := hNew o ho
      obtain ⟨slot, i, hAnswer⟩ := hCall output hOutput
      exact ⟨slot, i, by rw [hTxid, hVout]; exact hAnswer⟩
  exact exec_inv hStep (fun _ _ hOld => .inl hOld)
    (along_of_forall hAsked e) (exec_replayCalls records e) key entry h

theorem exec_has {e e' : SweepEngine} {calls : List TrackCall} (hRun : exec (callStep signer keys) e calls = some e')
    (hWrites : Along (callStep signer keys) (fun e call => call.Writes e) e calls) :
    ∀ call ∈ calls, ∀ output ∈ call.outputs, e'.Has signer keys output.1 := by
  induction calls generalizing e with
  | nil => nofun
  | cons first rest ih =>
    intro call hCall output hOutput
    obtain rfl | hLater := List.mem_cons.mp hCall
    · have hStep : ∀ (s : SweepEngine) (next : TrackCall) (t : SweepEngine), s.Has signer keys output.1 → next.Writes s →
          callStep signer keys s next = some t → t.Has signer keys output.1 := by
        rintro s next _ hHas hNext ⟨⟩
        exact hNext.has_mono hHas
      exact exec_inv hStep (hWrites.1.has hOutput) (hWrites.2 _ rfl) hRun
    · exact ih hRun (hWrites.2 _ rfl) call hLater output hOutput

/-- Calls whose outputs are all accounted for store nothing. -/
theorem exec_nothing {e e' : SweepEngine} {calls : List TrackCall}
    (hRun : exec (callStep signer keys) e calls = some e')
    (hReads : Along (callStep signer keys) (fun e call => call.Reads e) e calls)
    (hHas : ∀ call ∈ calls, ∀ output ∈ call.outputs, e.Has signer keys output.1) : e'.store = e.store := by
  induction calls generalizing e with
  | nil =>
    cases hRun
    rfl
  | cons first rest ih =>
    have hFirst : (first.run signer keys e).2.store = e.store :=
      TrackCall.run_nothing hReads.1 (hHas first List.mem_cons_self)
    rw [← hFirst]
    refine ih hRun (hReads.2 _ rfl) fun call hCall output hOutput => ?_
    obtain hOwned | hTracked := hHas call (List.mem_cons_of_mem _ hCall) output hOutput
    · exact .inl (hOwned.mono (live_le_collectOutputs _ _ _))
    · refine .inr ?_
      rw [hFirst]
      exact hTracked

/-- A pass that wrote what it found leaves nothing for a second one with the same answers. -/
theorem replay_again {io' : Nat × Nat → TrackIo} {records : List CloseRecord} {e : SweepEngine}
    (hWrites : Along (callStep signer keys) (fun e call => call.Writes e) e (replayCalls world io records))
    (hReads : Along (callStep signer keys) (fun e call => call.Reads e)
      (replayMissedSpendableOutputs signer keys world io records e).engine (replayCalls world io' records)) :
    (replayMissedSpendableOutputs signer keys world io' records
      (replayMissedSpendableOutputs signer keys world io records e).engine).engine.store =
      (replayMissedSpendableOutputs signer keys world io records e).engine.store := by
  refine exec_nothing (exec_replayCalls records _) hReads fun call hCall output hOutput => ?_
  obtain ⟨other, hOther, hSame⟩ := replayCalls_outputs io hCall
  have hMem : output.1 ∈ other.outputs.map Prod.fst := by
    rw [hSame]
    exact List.mem_map_of_mem hOutput
  obtain ⟨found, hFound, hDescriptor⟩ := List.mem_map.mp hMem
  rw [← hDescriptor]
  exact exec_has (exec_replayCalls records e) hWrites other hOther found hFound

end

/-! ## Two callers -/

inductive Caller where
  | handler
  | replay
deriving DecidableEq

/-- A call between its reading and its writing. -/
structure PendingTrack where
  entries : List (String × StoredEntry)
  outputs : List SpendableOutputDescriptor
  tracking : Tracking
  channelIdHex : Option String

structure Trackers where
  engine : SweepEngine
  pending : Caller → Option PendingTrack

/-- Whole calls, replays and passes, and calls taken apart. -/
inductive TrackEvent where
  | track (call : TrackCall)
  | replay (world : ReplayWorld) (io : Nat × Nat → TrackIo) (records : List CloseRecord)
  | pass (env : PassEnv)
  | read (caller : Caller) (listing : List String) (outputs : List (SpendableOutputDescriptor × Option String))
      (channelIdHex : Option String)
  | write (caller : Caller) (key : String) (fails : Bool)

def Trackers.start (e : SweepEngine) : Trackers := ⟨e, fun _ => none⟩

section

variable (signer : Signer) (keys : Descriptors)

def Trackers.step (s : Trackers) : TrackEvent → Option Trackers
  | .track call => some { s with engine := (call.run signer keys s.engine).2 }
  | .replay world io records =>
    some { s with engine := (replayMissedSpendableOutputs signer keys world io records s.engine).engine }
  | .pass env => some { s with engine := (sweepOnce signer keys env s.engine).engine }
  | .read caller listing outputs channelIdHex =>
    match s.pending caller with
    | some _ => none
    | none =>
      let entries := s.engine.store.entries listing.dedup
      let tracking := collectOutputs signer keys entries s.engine.wallet outputs
      some ⟨{ s.engine with wallet := tracking.wallet },
        Function.update s.pending caller (some ⟨entries, outputs.map Prod.fst, tracking, channelIdHex⟩)⟩
  | .write caller key fails =>
    (s.pending caller).map fun p =>
      ⟨{ s.engine with store := (storeOutputs s.engine.store p.tracking p.channelIdHex key fails).2 },
        Function.update s.pending caller none⟩

/-- What is stored is left of what the call has read, or holds none of its outputs. -/
def PendingTrack.Undisturbed (p : PendingTrack) (store : SweepStore) : Prop :=
  ∀ key entry, store.entryAt key = some entry →
    (∃ listed ∈ p.entries, listed.1 = key ∧ entry.Within listed.2) ∨
    ∀ descriptor ∈ p.outputs, ¬ entry.Tracks signer descriptor

/-- No listing of a whole call fails, and no call writes past what another has stored since its reading. -/
def Trackers.Informed (s : Trackers) : TrackEvent → Prop
  | .track call => call.Reads s.engine
  | .replay world io records =>
    Along (callStep signer keys) (fun e call => call.Reads e) s.engine (replayCalls world io records)
  | .write caller _ _ => ∀ p ∈ s.pending caller, p.Undisturbed signer s.engine.store
  | .pass _ | .read .. => True

/-- One answer for each outpoint. -/
def ReplayWorld.Steady (world : ReplayWorld) : Prop :=
  ∀ slot i slot' i' txid vout, world.outpointSpent slot i txid vout = world.outpointSpent slot' i' txid vout

structure Trackers.Inv (s : Trackers) : Prop where
  unique : s.engine.store.Unique
  pending : ∀ caller, ∀ p ∈ s.pending caller, p.tracking.Sound signer keys p.entries p.outputs

end

section

variable {signer : Signer} {keys : Descriptors} {s t : Trackers}

/-- A call's own writing, past the entries it has read and such that hold nothing of it. -/
theorem PendingTrack.Undisturbed.unique {p : PendingTrack} {store : SweepStore} (h : p.Undisturbed signer store)
    (hSound : p.tracking.Sound signer keys p.entries p.outputs) (hUnique : store.Unique) (key : String) (fails : Bool) :
    (storeOutputs store p.tracking p.channelIdHex key fails).2.Unique := by
  apply storeOutputs_unique hUnique hSound.distinct
  intro other entry hEntry
  obtain ⟨listed, hListed, -, hWithin⟩ | hFree := h other entry hEntry
  · exact (hSound.apart listed hListed).within hWithin
  · constructor
    · intro hex hMem hHas
      obtain ⟨descriptor, hOutput, rfl⟩ := hSound.hexes hex hMem
      exact hFree descriptor hOutput (.inl hHas)
    · intro found hMem hHas
      obtain ⟨o, ho, rfl⟩ := List.mem_map.mp hMem
      obtain ⟨descriptor, hOutput, hTxid, hVout⟩ := hSound.outpoints o ho
      refine hFree descriptor hOutput (.inr ?_)
      rw [← storedOutpointKey_spendable descriptor.spendableOutpoint o.valueSats, ← hTxid, ← hVout]
      exact hHas

theorem Trackers.Inv.step (h : s.Inv signer keys) {event : TrackEvent} (hInformed : s.Informed signer keys event)
    (hStep : s.step signer keys event = some t) : t.Inv signer keys := by
  cases event with
  | track call =>
    cases hStep
    exact ⟨TrackCall.run_unique hInformed h.unique, h.pending⟩
  | replay world io records =>
    cases hStep
    refine ⟨?_, h.pending⟩
    have hCall : ∀ (e : SweepEngine) (call : TrackCall) (e' : SweepEngine), e.store.Unique → call.Reads e →
        callStep signer keys e call = some e' → e'.store.Unique := by
      rintro e call _ hUnique hReads ⟨⟩
      exact TrackCall.run_unique hReads hUnique
    exact exec_inv hCall h.unique hInformed (exec_replayCalls records s.engine)
  | pass env =>
    cases hStep
    exact ⟨h.unique.shrinks (sweepOnce_shrinks s.engine), h.pending⟩
  | read caller listing outputs channelIdHex =>
    rw [Trackers.step] at hStep
    split at hStep
    · cases hStep
    · cases hStep
      refine ⟨h.unique, fun other p hp => ?_⟩
      simp only [Option.mem_def, Function.update_apply] at hp
      split_ifs at hp with hSame
      · cases hp
        exact collectOutputs_sound signer keys _ _ outputs
      · exact h.pending other p hp
  | write caller key fails =>
    obtain ⟨p, hPending, rfl⟩ := Option.map_eq_some_iff.mp hStep
    refine ⟨(hInformed p hPending).unique (h.pending caller p hPending) h.unique key fails, fun other q hq => ?_⟩
    simp only [Option.mem_def, Function.update_apply] at hq
    split_ifs at hq
    exact h.pending other q hq

/-- In runs whose calls have read what is stored, no output is stored twice. A pass stores only what was
answered to be unspent, a second one stores nothing new, and a call that fails stores nothing. -/
theorem outputs_tracked_once (signer : Signer) (keys : Descriptors) :
    (∀ e events t, e.store.Unique → Along (Trackers.step signer keys) (Trackers.Informed signer keys) (.start e) events →
      exec (Trackers.step signer keys) (.start e) events = some t → t.engine.store.Unique) ∧
    (∀ world io records e key entry, world.Steady →
      (replayMissedSpendableOutputs signer keys world io records e).engine.store.entryAt key = some entry →
      e.store.entryAt key = some entry ∨
        ∀ o ∈ entry.outpoints, ∀ slot i, world.outpointSpent slot i o.txid o.vout = .ok false) ∧
    (∀ world io io' records e,
      Along (callStep signer keys) (fun e call => call.Writes e) e (replayCalls world io records) →
      Along (callStep signer keys) (fun e call => call.Reads e)
        (replayMissedSpendableOutputs signer keys world io records e).engine (replayCalls world io' records) →
      (replayMissedSpendableOutputs signer keys world io' records
        (replayMissedSpendableOutputs signer keys world io records e).engine).engine.store =
        (replayMissedSpendableOutputs signer keys world io records e).engine.store) ∧
    ∀ (call : TrackCall) e, (call.run signer keys e).1 = .error () → (call.run signer keys e).2.store = e.store := by
  refine ⟨?_, ?_, ?_, ?_⟩
  · intro e events t hUnique hInformed hRun
    have hStart : (Trackers.start e).Inv signer keys := ⟨hUnique, fun _ _ => nofun⟩
    exact (exec_inv (fun s event t h => h.step) hStart hInformed hRun).unique
  · intro world io records e key entry hSteady hEntry
    refine (replay_entryAt hEntry).imp_right fun hAsked o ho slot i => ?_
    obtain ⟨slot', i', hAnswer⟩ := hAsked o ho
    rw [hSteady slot i slot' i', hAnswer]
  · intro world io io' records e hWrites hReads
    exact replay_again hWrites hReads
  · intro call e hError
    exact TrackCall.run_error hError

end

theorem demoEngine_unique : (demoEngine []).store.Unique := by
  have hNone : ∀ key, (demoEngine []).store.entryAt key = none := fun _ => rfl
  constructor
  · intro key entry hEntry
    cases (hNone key).symm.trans hEntry
  · intro key entry other found hEntry
    cases (hNone key).symm.trans hEntry

/-- A force close with a confirmed commitment transaction. -/
def demoForceClose : CloseRecord :=
  { CloseRecord.skeleton "c" 0 with
    fundingTxo := some ⟨"funding", 0⟩
    closeType := .force
    txs := [⟨"commitment", .commitment, none, some 1⟩]
    expectedAmountSats := some 100000 }

/-- One output of the commitment transaction, still there. -/
def demoWorld : ReplayWorld where
  hasMonitor _ _ := true
  fullTx _ txid := .ok (some ⟨txid, [], []⟩)
  txConfirmedHeight _ _ := .ok none
  replaySpendableOutputs _ _ _ _ := some [demoOutput]
  outpointSpent _ _ _ _ := .ok false

def demoIo (listing : List String) (key : String) (_ : Nat × Nat) : TrackIo := ⟨listing, fun _ => none, key, false, ""⟩

def demoRecovered : SweepEngine :=
  (replayMissedSpendableOutputs demoSigner demoKeys demoWorld (demoIo [] "a") [demoForceClose] (demoEngine [])).engine

theorem demoRecovered_reads (call : TrackCall) (h : "a" ∈ call.listing) : call.Reads demoRecovered := by
  intro key hKey
  have hFiles : demoRecovered.store.files.keys = {"a"} := by decide
  have hMem : key ∈ demoRecovered.store.files.keys := Finmap.mem_keys.mpr (Finmap.lookup_isSome.mp hKey)
  rw [hFiles, Finset.mem_singleton] at hMem
  rwa [hMem]

theorem demoWorld_calls (listing : List String) (key : String) :
    replayCalls demoWorld (demoIo listing key) [demoForceClose] =
      [⟨listing, [(demoOutput, none)], some "c", key, false⟩] := rfl

/-- The replayed output comes again from a second pass and from an event. -/
theorem replayed_output_tracked_once :
    (∀ t, exec (Trackers.step demoSigner demoKeys) (.start (demoEngine []))
      [.replay demoWorld (demoIo [] "a") [demoForceClose], .track ⟨["a"], [(demoOutput, none)], none, "b", false⟩] =
        some t → t.engine.store.Unique) ∧
    (∃ entry, demoRecovered.store.entryAt "a" = some entry ∧ ∀ o ∈ entry.outpoints, ∀ slot i,
      demoWorld.outpointSpent slot i o.txid o.vout = .ok false) ∧
    (replayMissedSpendableOutputs demoSigner demoKeys demoWorld (demoIo ["a"] "b") [demoForceClose]
      demoRecovered).engine.store = demoRecovered.store ∧
    (TrackCall.run demoSigner demoKeys ⟨[], [(demoOutput, none)], none, "b", true⟩ (demoEngine [])).2.store =
      (demoEngine []).store := by
  obtain ⟨hRuns, hUnspent, hAgain, hError⟩ := outputs_tracked_once demoSigner demoKeys
  have hEmpty : ∀ call : TrackCall, call.Reads (demoEngine []) := by
    intro call key hKey
    cases hKey
  refine ⟨?_, ?_, ?_, ?_⟩
  · intro t hRun
    refine hRuns (demoEngine []) _ t demoEngine_unique ?_ hRun
    refine ⟨⟨hEmpty _, fun _ _ => trivial⟩, ?_⟩
    rintro _ ⟨⟩
    exact ⟨demoRecovered_reads _ List.mem_cons_self, fun _ _ => trivial⟩
  · refine ⟨⟨["00"], some "c", [⟨"0", 0, "100000"⟩]⟩, by decide, ?_⟩
    exact (hUnspent demoWorld (demoIo [] "a") [demoForceClose] (demoEngine []) "a" _ (fun _ _ _ _ _ _ => rfl)
      (by decide)).resolve_left (by decide)
  · refine hAgain demoWorld (demoIo [] "a") (demoIo ["a"] "b") [demoForceClose] (demoEngine []) ?_ ?_
    · rw [demoWorld_calls]
      exact ⟨⟨rfl, rfl⟩, fun _ _ => trivial⟩
    · rw [demoWorld_calls]
      exact ⟨demoRecovered_reads _ List.mem_cons_self, fun _ _ => trivial⟩
  · exact hError _ _ (by decide)

/-- Both callers read the empty store, and both store the same output. -/
theorem interleaved_calls_store_twice :
    (demoEngine []).store.Unique ∧
    ∃ t, exec (Trackers.step demoSigner demoKeys) (.start (demoEngine []))
      [.read .handler [] [(demoOutput, none)] none, .read .replay [] [(demoOutput, none)] (some "c"),
        .write .handler "a" false, .write .replay "b" false] = some t ∧ ¬ t.engine.store.Unique := by
  refine ⟨demoEngine_unique, _, rfl, fun hUnique => ?_⟩
  have hApart := hUnique.apart "a" ⟨["00"], none, [⟨"0", 0, "100000"⟩]⟩ "b" ⟨["00"], some "c", [⟨"0", 0, "100000"⟩]⟩
    (by decide) (by decide) (by decide)
  exact hApart.descriptors "00" List.mem_cons_self List.mem_cons_self

end WalletCore.Sweep
