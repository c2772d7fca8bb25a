import WalletCore.CloseRecords.Reconcile

/-! # Bytes of another party

The decoder reads an unsigned integer and cuts it to 32 bits, and the pass adds blocks to heights without
a check and cuts a channel id for its log line. What has to hold of the bytes, of the answers and of the
tip for none of this to go wrong.
-/

namespace WalletCore.CloseRecords

open Lib

/-! ## Integers that are read -/

def Narrow (raw : Option Json) : Prop := ∀ value, raw.bind Json.asU64 = some value → value.toNat < UInt32.size

/-- Absent, or the integer of the JSON. -/
def ReadFrom (field : Option UInt32) (raw : Option Json) : Prop :=
  ∀ n, field = some n → ∃ value, raw.bind Json.asU64 = some value ∧ value.toNat = n.toNat

theorem readFrom_readU32_iff (raw : Option Json) : ReadFrom (readU32 raw) raw ↔ Narrow raw := by
  constructor
  · intro h value hValue
    obtain ⟨value', hValue', hSame⟩ := h value.toUInt32 (by rw [readU32, hValue, Option.map_some])
    cases hValue.symm.trans hValue'
    rw [hSame]
    exact value.toUInt32.toNat_lt
  · intro h n hn
    obtain ⟨value, hValue, rfl⟩ := Option.map_eq_some_iff.mp hn
    refine ⟨value, hValue, ?_⟩
    rw [UInt64.toNat_toUInt32, Nat.mod_eq_of_lt (h value hValue)]

/-- Every narrowed integer of the record is the one that stands in its object. -/
structure ReadExactly (obj : JsonMap) (record : CloseRecord) : Prop where
  timelockBlocks : ReadFrom record.timelockBlocks (obj.lookup "timelockBlocks")
  claimableAtHeight : ReadFrom record.claimableAtHeight (obj.lookup "claimableAtHeight")
  vout : ∀ raw txo, (obj.lookup "fundingTxo") = some raw → record.fundingTxo = some txo →
    ∃ fields, raw.asObject = some fields ∧ ReadFrom (some txo.vout) (fields.lookup "vout")
  confirmedAtHeight : ∀ entries entry tx, (obj.lookup "txs").bind Json.asArray = some entries → entry ∈ entries →
    deserializeTx entry = some tx → ∃ fields, entry.asObject = some fields ∧
      ReadFrom tx.confirmedAtHeight (fields.lookup "confirmedAtHeight")

/-- The integers that the decoder comes to read are below 2^32. -/
structure InRange (obj : JsonMap) : Prop where
  timelockBlocks : Narrow (obj.lookup "timelockBlocks")
  claimableAtHeight : Narrow (obj.lookup "claimableAtHeight")
  vout : ∀ raw fields txid, obj.lookup "fundingTxo" = some raw → raw.asObject = some fields →
    readStr (fields.lookup "txid") = some txid → Narrow (fields.lookup "vout")
  confirmedAtHeight : ∀ entries entry fields txid, (obj.lookup "txs").bind Json.asArray = some entries →
    entry ∈ entries → entry.asObject = some fields → readStr (fields.lookup "txid") = some txid →
    Narrow (fields.lookup "confirmedAtHeight")

theorem outpoint_readExactly_iff (raw : Json) :
    (∀ txo, deserializeOutpoint raw = some txo →
      ∃ fields, raw.asObject = some fields ∧ ReadFrom (some txo.vout) (fields.lookup "vout")) ↔
    ∀ fields txid, raw.asObject = some fields → readStr (fields.lookup "txid") = some txid →
      Narrow (fields.lookup "vout") := by
  constructor
  · intro h fields txid hFields hTxid
    rw [← readFrom_readU32_iff]
    intro n hn
    have hRead : deserializeOutpoint raw = some { txid := txid, vout := n } := by
      rw [deserializeOutpoint, hFields, Option.bind_eq_bind, Option.bind_some, hTxid, Option.bind_eq_bind,
        Option.bind_some, hn]
      rfl
    obtain ⟨fields', hFields', hFrom⟩ := h _ hRead
    cases hFields.symm.trans hFields'
    exact hFrom n rfl
  · intro h txo hRead
    obtain ⟨fields, hFields, hRead⟩ := Option.bind_eq_some_iff.mp hRead
    obtain ⟨txid, hTxid, hRead⟩ := Option.bind_eq_some_iff.mp hRead
    obtain ⟨vout, hVout, hRead⟩ := Option.bind_eq_some_iff.mp hRead
    cases hRead
    have hFrom := (readFrom_readU32_iff _).mpr (h fields txid hFields hTxid)
    rw [hVout] at hFrom
    exact ⟨fields, hFields, hFrom⟩

theorem tx_readExactly_iff (entry : Json) :
    (∀ tx, deserializeTx entry = some tx →
      ∃ fields, entry.asObject = some fields ∧ ReadFrom tx.confirmedAtHeight (fields.lookup "confirmedAtHeight")) ↔
    ∀ fields txid, entry.asObject = some fields → readStr (fields.lookup "txid") = some txid →
      Narrow (fields.lookup "confirmedAtHeight") := by
  constructor
  · intro h fields txid hFields hTxid
    rw [← readFrom_readU32_iff]
    have hRead : ∃ tx, deserializeTx entry = some tx ∧
        tx.confirmedAtHeight = readU32 (fields.lookup "confirmedAtHeight") := by
      rw [deserializeTx, hFields, Option.bind_eq_bind, Option.bind_some, hTxid]
      exact ⟨_, rfl, rfl⟩
    obtain ⟨tx, hTx, hHeight⟩ := hRead
    obtain ⟨fields', hFields', hFrom⟩ := h tx hTx
    cases hFields.symm.trans hFields'
    exact hHeight ▸ hFrom
  · intro h tx hRead
    obtain ⟨fields, hFields, hRead⟩ := Option.bind_eq_some_iff.mp hRead
    obtain ⟨txid, hTxid, hRead⟩ := Option.bind_eq_some_iff.mp hRead
    cases hRead
    exact ⟨fields, hFields, (readFrom_readU32_iff _).mpr (h fields txid hFields hTxid)⟩

theorem record_readExactly_iff {raw : Json} {obj : JsonMap} {nowMs : UInt64} {record : CloseRecord}
    (hObj : raw.asObject = some obj) (h : deserializeCloseRecord raw nowMs = some record) :
    ReadExactly obj record ↔ InRange obj := by
  rw [deserializeCloseRecord, hObj, Option.bind_eq_bind, Option.bind_some] at h
  obtain ⟨channelId, _, h⟩ := Option.bind_eq_some_iff.mp h
  cases h
  constructor
  · intro hExact
    refine ⟨(readFrom_readU32_iff _).mp hExact.timelockBlocks, (readFrom_readU32_iff _).mp hExact.claimableAtHeight, ?_, ?_⟩
    · intro outpoint fields txid hOutpoint
      refine (outpoint_readExactly_iff outpoint).mp (fun txo hRead => ?_) fields txid
      exact hExact.vout outpoint txo hOutpoint (by dsimp only; rw [hOutpoint, Option.bind_some, hRead])
    · intro entries entry fields txid hEntries hEntry
      exact (tx_readExactly_iff entry).mp (fun tx hRead => hExact.confirmedAtHeight entries entry tx hEntries hEntry hRead)
        fields txid
  · intro hRange
    refine ⟨(readFrom_readU32_iff _).mpr hRange.timelockBlocks, (readFrom_readU32_iff _).mpr hRange.claimableAtHeight, ?_, ?_⟩
    · intro outpoint txo hOutpoint hRead
      dsimp only at hRead
      rw [hOutpoint, Option.bind_some] at hRead
      exact (outpoint_readExactly_iff outpoint).mpr (hRange.vout outpoint · · hOutpoint) txo hRead
    · intro entries entry tx hEntries hEntry hRead
      exact (tx_readExactly_iff entry).mpr (hRange.confirmedAtHeight entries entry · · hEntries hEntry) tx hRead

/-- Every record that is read from the bytes is read exactly. -/
def BytesExact (bytes : Bytes) (nowMs : UInt64) : Prop :=
  ∀ raw obj key value fields record, bytes.fromSlice = some raw → raw.asObject = some obj → obj.lookup key = some value →
    value.asObject = some fields → deserializeCloseRecord value nowMs = some record → ReadExactly fields record

def BytesInRange (bytes : Bytes) : Prop :=
  ∀ raw obj key value fields channelId, bytes.fromSlice = some raw → raw.asObject = some obj →
    obj.lookup key = some value → value.asObject = some fields → readStr (fields.lookup "channelId") = some channelId →
    InRange fields

theorem bytesExact_iff (bytes : Bytes) (nowMs : UInt64) : BytesExact bytes nowMs ↔ BytesInRange bytes := by
  constructor
  · intro h raw obj key value fields channelId hRaw hObj hValue hFields hId
    have hRead : ∃ record, deserializeCloseRecord value nowMs = some record := by
      rw [deserializeCloseRecord, hFields, Option.bind_eq_bind, Option.bind_some, hId]
      exact ⟨_, rfl⟩
    obtain ⟨record, hRecord⟩ := hRead
    exact (record_readExactly_iff hFields hRecord).mp (h raw obj key value fields record hRaw hObj hValue hFields hRecord)
  · intro h raw obj key value fields record hRaw hObj hValue hFields hRecord
    have hId : ∃ channelId, readStr (fields.lookup "channelId") = some channelId := by
      rw [deserializeCloseRecord, hFields, Option.bind_eq_bind, Option.bind_some] at hRecord
      obtain ⟨channelId, hId, _⟩ := Option.bind_eq_some_iff.mp hRecord
      exact ⟨channelId, hId⟩
    obtain ⟨channelId, hId⟩ := hId
    exact (record_readExactly_iff hFields hRecord).mpr (h raw obj key value fields channelId hRaw hObj hValue hFields hId)

/-! ## Sums of a pass

The sums that the pass comes to, in the order of the source. A sum that does not fit wraps, and what is
computed from it is what the pass really goes on with.
-/

abbrev Sum := UInt32 × UInt32

def Fits (sum : Sum) : Prop := sum.1.toNat + sum.2.toNat < UInt32.size

/-- Step (b2). -/
def claimableSums (record : CloseRecord) (factTxs : List CloseRecordTx) : List Sum :=
  if record.claimableAtHeight = none ∧ record.closeType ≠ .coop ∧ record.initiator ≠ .remote then
    match record.timelockBlocks, ((factTxs ++ record.txs).find? fun tx =>
        tx.role.isClose && tx.confirmedAtHeight.isSome).bind CloseRecordTx.confirmedAtHeight with
    | some timelock, some height => [(height, timelock)]
    | _, _ => []
  else []

def deepConfSums (tipHeight : UInt32) (height : Option UInt32) : List Sum :=
  height.toList.map fun height => (saturatingSub tipHeight height, 1)

section

variable (input : PassInput)

def isReceipt (queries : Nat) (tipHeight : UInt32) (tx : CloseRecordTx) : Bool :=
  isReceiptRole tx.role && deepConf tipHeight tx.confirmedAtHeight && input.txConfirmedInWallet queries tx.txid

/-- The search for a receipt ends at the first one. -/
def receiptSums (queries : Nat) (tipHeight : UInt32) : List CloseRecordTx → List Sum
  | [] => []
  | tx :: rest =>
    (if isReceiptRole tx.role then deepConfSums tipHeight tx.confirmedAtHeight else []) ++
      if isReceipt input queries tipHeight tx then [] else receiptSums queries tipHeight rest

/-- The terminal rules after a cooperative close was ruled out. -/
def terminalSums (tipHeight : UInt32) (current : CloseRecord) : List Sum :=
  current.claimableAtHeight.toList.map (·, finalityConfs) ++
    if current.claimableAtHeight.any fun claimable => claimable + finalityConfs ≤ tipHeight then []
    else (closeHeight current).toList.flatMap fun height =>
      [(height, maxTimelockBlocks), (height + maxTimelockBlocks, finalityConfs)]

/-- Without a receipt, past the timelock and with a final close that may still owe something, the pass
comes to the heights of the terminal rules. -/
def reachesTerminal (queries : Nat) (tipHeight : UInt32) (current : CloseRecord) : Bool :=
  !hasReceipt input queries tipHeight current && claimGate tipHeight current &&
    !decide (current.expectedAmountSats = some 0) && deepConf tipHeight (closeHeight current) &&
    !decide (current.closeType = .coop)

def completionSums (queries : Nat) (tipHeight : UInt32) (current : CloseRecord) : List Sum :=
  deepConfSums tipHeight (closeHeight current) ++ receiptSums input queries tipHeight current.txs ++
    if reachesTerminal input queries tipHeight current then terminalSums tipHeight current else []

/-- The record that step (c) looks at, unless outputs of its channel are still to be swept. -/
def completionSubject (pass : Pass) (record : CloseRecord) : Option CloseRecord :=
  let current := (pass.store.get record.channelId).getD record
  if current.channelId ∈ input.pendingSweepChannels then none else some current

def recordSums (pass : Pass) (record : CloseRecord) (tipChanged : Bool) (tipHeight : UInt32) : List Sum :=
  match collectFacts input pass record tipChanged with
  | (_, .error _) => []
  | (pass, .ok facts) =>
    claimableSums record facts.txs ++
      if tipChanged then
        (completionSubject input (storeFacts pass facts) record).toList.flatMap
          (completionSums input pass.queries tipHeight)
      else []

def recordsSums (tipChanged : Bool) (tipHeight : UInt32) : Pass → List CloseRecord → List Sum
  | _, [] => []
  | pass, record :: rest =>
    recordSums input pass record tipChanged tipHeight ++
      match reconcileOneRecord input pass record tipChanged tipHeight with
      | (pass, .error _) =>
        if logSliceOk record.channelId = false then [] else if pass.budget = 0 then []
        else recordsSums tipChanged tipHeight pass rest
      | (pass, .ok ()) => if pass.budget = 0 then [] else recordsSums tipChanged tipHeight pass rest

def passSums (store : CloseRecordStore) : List Sum :=
  if pendingSnapshot input.recordOrder store.records = [] ∧ store.fundingTxos = ∅ then []
  else
    match input.chain.tipHeight with
    | .error _ => []
    | .ok tipHeight =>
      let pendingRecords := pendingSnapshot input.recordOrder store.records
      let fundingMap := store.fundingTxos
      let store := applyOps (input.meanwhile 0) store
      let tipChanged := decide (store.lastTipHeight ≠ some tipHeight)
      let store := store.setLastTipHeight tipHeight
      if !tipChanged && !undiscoveredExists pendingRecords then []
      else
        let store := if tipChanged then safetyNet input store fundingMap else store
        recordsSums input tipChanged tipHeight (.start store) (pendingSnapshot input.recordOrder store.records)

/-- No sum of the pass overflows and the pass does not panic. -/
def PassClean (store : CloseRecordStore) : Prop :=
  (∀ sum ∈ passSums input store, Fits sum) ∧ (reconcileCloseRecords input store).panicked = false

/-! ## What has to hold before each step -/

/-- The only confirmation count that does not fit: all of the chain and one more. -/
def CountInRange (tipHeight : UInt32) (height : Option UInt32) : Prop :=
  ∀ h, height = some h → h.toNat = 0 → tipHeight.toNat ≠ 4294967295

def ClaimableInRange (record : CloseRecord) (factTxs : List CloseRecordTx) : Prop :=
  record.claimableAtHeight = none → record.closeType ≠ .coop → record.initiator ≠ .remote →
    ∀ timelock height, record.timelockBlocks = some timelock →
      ((factTxs ++ record.txs).find? fun tx => tx.role.isClose && tx.confirmedAtHeight.isSome).bind
        CloseRecordTx.confirmedAtHeight = some height →
      height.toNat + timelock.toNat < 4294967296

structure CompletionInRange (queries : Nat) (tipHeight : UInt32) (current : CloseRecord) : Prop where
  close : CountInRange tipHeight (closeHeight current)
  receipts : ∀ tx ∈ current.txs.takeWhile fun tx => !isReceipt input queries tipHeight tx,
    isReceiptRole tx.role = true → CountInRange tipHeight tx.confirmedAtHeight
  claimable : reachesTerminal input queries tipHeight current = true →
    ∀ claimable, current.claimableAtHeight = some claimable → claimable.toNat + 6 < 4294967296
  timelock : reachesTerminal input queries tipHeight current = true →
    (current.claimableAtHeight.any fun claimable => claimable + finalityConfs ≤ tipHeight) = false →
    ∀ height, closeHeight current = some height → height.toNat + 2022 < 4294967296

/-- What one record asks for: a channel id that can be cut when a question about it fails, otherwise
heights that leave room. -/
def RecordInRange (pass : Pass) (record : CloseRecord) (tipChanged : Bool) (tipHeight : UInt32) : Prop :=
  match collectFacts input pass record tipChanged with
  | (_, .error _) => logSliceOk record.channelId = true
  | (pass, .ok facts) =>
    ClaimableInRange record facts.txs ∧
      (tipChanged = true → ∀ current ∈ completionSubject input (storeFacts pass facts) record,
        CompletionInRange input pass.queries tipHeight current)

/-- Every record that the pass comes to is in range then. -/
def RecordsInRange (tipChanged : Bool) (tipHeight : UInt32) : Pass → List CloseRecord → Prop
  | _, [] => True
  | pass, record :: rest =>
    RecordInRange input pass record tipChanged tipHeight ∧
      let next := (reconcileOneRecord input pass record tipChanged tipHeight).1
      (next.budget ≠ 0 → RecordsInRange tipChanged tipHeight next rest)

def PassInRange (store : CloseRecordStore) : Prop :=
  ∀ tipHeight, input.chain.tipHeight = .ok tipHeight →
    ¬ (pendingSnapshot input.recordOrder store.records = [] ∧ store.fundingTxos = ∅) →
    let before := applyOps (input.meanwhile 0) store
    let tipChanged := decide (before.lastTipHeight ≠ some tipHeight)
    let known := before.setLastTipHeight tipHeight
    (!tipChanged && !undiscoveredExists (pendingSnapshot input.recordOrder store.records)) = false →
    let netted := if tipChanged then safetyNet input known store.fundingTxos else known
    RecordsInRange input tipChanged tipHeight (.start netted) (pendingSnapshot input.recordOrder netted.records)

end

/-! ## When every sum fits -/

theorem count_fits_iff (tipHeight height : UInt32) :
    Fits (saturatingSub tipHeight height, 1) ↔ (height.toNat = 0 → tipHeight.toNat ≠ 4294967295) := by
  have hTip := tipHeight.toNat_lt
  have hOne : (1 : UInt32).toNat = 1 := rfl
  rw [Fits, saturatingSub, UInt32.size, hOne]
  split
  · next hLe =>
    rw [UInt32.toNat_sub_of_le _ _ hLe]
    rw [UInt32.le_iff_toNat_le] at hLe
    omega
  · next hLe =>
    rw [UInt32.le_iff_toNat_le] at hLe
    change 0 + 1 < 4294967296 ↔ _
    omega

theorem deepConfSums_fit_iff (tipHeight : UInt32) (height : Option UInt32) :
    (∀ sum ∈ deepConfSums tipHeight height, Fits sum) ↔ CountInRange tipHeight height := by
  cases height with
  | none => simp [deepConfSums, CountInRange]
  | some h => simp [deepConfSums, CountInRange, count_fits_iff]

theorem countInRange_of_deepConf {tipHeight : UInt32} {height : Option UInt32} (h : deepConf tipHeight height = true) :
    CountInRange tipHeight height := by
  rintro height rfl hZero hTip
  have hHeight : height = 0 := UInt32.toNat_inj.mp hZero
  have hMax : tipHeight = 4294967295 := UInt32.toNat_inj.mp hTip
  rw [hHeight, hMax] at h
  revert h
  decide

theorem claimableSums_fit_iff (record : CloseRecord) (factTxs : List CloseRecordTx) :
    (∀ sum ∈ claimableSums record factTxs, Fits sum) ↔ ClaimableInRange record factTxs := by
  rw [claimableSums, ClaimableInRange]
  split
  · next hDerives =>
    obtain ⟨hNone, hCoop, hRemote⟩ := hDerives
    split
    · next timelock height hTimelock hHeight =>
      rw [List.forall_mem_singleton, Fits, UInt32.size]
      constructor
      · intro hFits _ _ _ timelock' height' hTimelock' hHeight'
        cases hTimelock.symm.trans hTimelock'
        cases hHeight.symm.trans hHeight'
        exact hFits
      · intro h
        exact h hNone hCoop hRemote timelock height hTimelock hHeight
    · next hMissing =>
      constructor
      · intro _ _ _ _ timelock height hTimelock hHeight
        exact absurd hHeight (hMissing timelock height hTimelock)
      · intro _ sum hSum
        cases hSum
  · next hNot =>
    constructor
    · intro _ hNone hCoop hRemote
      exact absurd ⟨hNone, hCoop, hRemote⟩ hNot
    · intro _ sum hSum
      cases hSum

section

variable (input : PassInput)

theorem receiptSums_fit_iff (queries : Nat) (tipHeight : UInt32) (txs : List CloseRecordTx) :
    (∀ sum ∈ receiptSums input queries tipHeight txs, Fits sum) ↔
      ∀ tx ∈ txs.takeWhile fun tx => !isReceipt input queries tipHeight tx,
        isReceiptRole tx.role = true → CountInRange tipHeight tx.confirmedAtHeight := by
  induction txs with
  | nil => simp [receiptSums]
  | cons tx rest ih =>
    have hHead : (∀ sum ∈ (if isReceiptRole tx.role then deepConfSums tipHeight tx.confirmedAtHeight else []), Fits sum) ↔
        (isReceiptRole tx.role = true → CountInRange tipHeight tx.confirmedAtHeight) := by
      split
      · next hRole => rw [deepConfSums_fit_iff, forall_prop_of_true hRole]
      · next hRole => simp [hRole]
    rw [receiptSums, List.forall_mem_append, hHead]
    by_cases hReceipt : isReceipt input queries tipHeight tx = true
    · rw [List.takeWhile_cons_of_neg (by simp [hReceipt]), if_pos hReceipt]
      rw [isReceipt, Bool.and_eq_true, Bool.and_eq_true] at hReceipt
      constructor
      · intro _ tx hTx
        cases hTx
      · intro _
        refine ⟨fun _ => countInRange_of_deepConf hReceipt.1.2, ?_⟩
        intro sum hSum
        cases hSum
    · rw [List.takeWhile_cons_of_pos (by simp [hReceipt]), if_neg hReceipt, ih, List.forall_mem_cons]

theorem terminalSums_fit_iff (tipHeight : UInt32) (current : CloseRecord) :
    (∀ sum ∈ terminalSums tipHeight current, Fits sum) ↔
      (∀ claimable, current.claimableAtHeight = some claimable → claimable.toNat + 6 < 4294967296) ∧
      ((current.claimableAtHeight.any fun claimable => claimable + finalityConfs ≤ tipHeight) = false →
        ∀ height, closeHeight current = some height → height.toNat + 2022 < 4294967296) := by
  have hSix : finalityConfs.toNat = 6 := rfl
  have hMax : maxTimelockBlocks.toNat = 2016 := rfl
  rw [terminalSums, List.forall_mem_append]
  refine and_congr ?_ ?_
  · cases current.claimableAtHeight with
    | none => simp
    | some claimable => simp [Fits, UInt32.size, hSix]
  · split
    · next hAny => simp [hAny]
    · next hAny =>
      have hFalse := Bool.eq_false_iff.mpr hAny
      rw [forall_prop_of_true hFalse]
      cases closeHeight current with
      | none => simp
      | some height =>
        simp only [Option.toList_some, List.flatMap_cons, List.flatMap_nil, List.append_nil, List.forall_mem_cons,
          List.not_mem_nil, false_implies, implies_true, and_true, Option.some.injEq, forall_eq', Fits, UInt32.size,
          UInt32.toNat_add, hSix, hMax]
        omega

theorem completionSums_fit_iff (queries : Nat) (tipHeight : UInt32) (current : CloseRecord) :
    (∀ sum ∈ completionSums input queries tipHeight current, Fits sum) ↔
      CompletionInRange input queries tipHeight current := by
  rw [completionSums, List.forall_mem_append, List.forall_mem_append, deepConfSums_fit_iff, receiptSums_fit_iff]
  have hTerminal : (∀ sum ∈ (if reachesTerminal input queries tipHeight current then terminalSums tipHeight current else []),
      Fits sum) ↔ (reachesTerminal input queries tipHeight current = true →
        (∀ claimable, current.claimableAtHeight = some claimable → claimable.toNat + 6 < 4294967296) ∧
        ((current.claimableAtHeight.any fun claimable => claimable + finalityConfs ≤ tipHeight) = false →
          ∀ height, closeHeight current = some height → height.toNat + 2022 < 4294967296)) := by
    split
    · next hReaches => rw [terminalSums_fit_iff, forall_prop_of_true hReaches]
    · next hReaches => simp [hReaches]
  rw [hTerminal]
  constructor
  · rintro ⟨⟨hClose, hReceipts⟩, hRules⟩
    exact ⟨hClose, hReceipts, fun h => (hRules h).1, fun h => (hRules h).2⟩
  · rintro ⟨hClose, hReceipts, hClaimable, hTimelock⟩
    exact ⟨⟨hClose, hReceipts⟩, fun h => ⟨hClaimable h, hTimelock h⟩⟩

theorem record_clean_iff (pass : Pass) (record : CloseRecord) (tipChanged : Bool) (tipHeight : UInt32) :
    (∀ sum ∈ recordSums input pass record tipChanged tipHeight, Fits sum) ∧
      ((∃ e, (reconcileOneRecord input pass record tipChanged tipHeight).2 = .error e) → logSliceOk record.channelId = true) ↔
    RecordInRange input pass record tipChanged tipHeight := by
  rw [recordSums, RecordInRange, reconcileOneRecord]
  obtain ⟨pass', result⟩ := collectFacts input pass record tipChanged
  cases result with
  | error e => simp
  | ok facts =>
    dsimp only
    have hOk : ¬ ∃ e, (if tipChanged then (completeRecord input (storeFacts pass' facts) record facts tipHeight,
        (.ok () : Except String Unit)) else (storeFacts pass' facts, .ok ())).2 = .error e := by
      split <;> simp
    have hCompletion : (∀ sum ∈ (if tipChanged then
          (completionSubject input (storeFacts pass' facts) record).toList.flatMap
            (completionSums input pass'.queries tipHeight) else []), Fits sum) ↔
        (tipChanged = true → ∀ current ∈ completionSubject input (storeFacts pass' facts) record,
          CompletionInRange input pass'.queries tipHeight current) := by
      split
      · next hChanged =>
        rw [forall_prop_of_true hChanged]
        cases completionSubject input (storeFacts pass' facts) record with
        | none => simp
        | some current =>
          have hOne := completionSums_fit_iff input pass'.queries tipHeight current
          simp only [Option.toList_some, List.flatMap_cons, List.flatMap_nil, List.append_nil, Option.mem_def,
            Option.some.injEq, forall_eq', hOne]
      · next hChanged => simp [hChanged]
    rw [List.forall_mem_append, claimableSums_fit_iff, hCompletion]
    exact ⟨And.left, fun h => ⟨h, fun hError => absurd hError hOk⟩⟩

theorem collectFacts_panicked (pass : Pass) (record : CloseRecord) (tipChanged : Bool) :
    (collectFacts input pass record tipChanged).1.panicked = pass.panicked := by
  have hKept : ∀ pass', Asked input pass pass' → pass'.panicked = pass.panicked := by
    intro pass' hAsked
    induction hAsked with
    | refl => rfl
    | tail _ hStep ih =>
      obtain ⟨-, rfl⟩ := hStep
      exact ih
  exact hKept _ (collectFacts_asked input pass record tipChanged)

theorem reconcileOneRecord_panicked (pass : Pass) (record : CloseRecord) (tipChanged : Bool) (tipHeight : UInt32) :
    (reconcileOneRecord input pass record tipChanged tipHeight).1.panicked = pass.panicked := by
  have hFacts := collectFacts_panicked input pass record tipChanged
  have hStore : ∀ pass facts, (storeFacts pass facts).panicked = pass.panicked := by
    intro pass facts
    rw [storeFacts]
    split <;> rfl
  have hComplete : ∀ pass facts, (completeRecord input pass record facts tipHeight).panicked = pass.panicked := by
    intro pass facts
    rw [completeRecord]
    split
    · rfl
    · split <;> rfl
  rw [reconcileOneRecord]
  split
  · next h =>
    rw [h] at hFacts
    exact hFacts
  · next h =>
    rw [h] at hFacts
    dsimp only
    split
    · rw [hComplete, hStore, hFacts]
    · rw [hStore, hFacts]

theorem records_clean_iff (tipChanged : Bool) (tipHeight : UInt32) (records : List CloseRecord) {pass : Pass}
    (hPass : pass.panicked = false) :
    (∀ sum ∈ recordsSums input tipChanged tipHeight pass records, Fits sum) ∧
      (processRecords input tipChanged tipHeight pass records).panicked = false ↔
    RecordsInRange input tipChanged tipHeight pass records := by
  induction records generalizing pass with
  | nil => simp [recordsSums, processRecords, RecordsInRange, hPass]
  | cons record rest ih =>
    have hNext := reconcileOneRecord_panicked input pass record tipChanged tipHeight
    have hRecord := record_clean_iff input pass record tipChanged tipHeight
    rw [recordsSums, processRecords, RecordsInRange, ← hRecord, List.forall_mem_append]
    rw [hPass] at hNext
    clear hRecord
    generalize reconcileOneRecord input pass record tipChanged tipHeight = outcome at hNext ⊢
    obtain ⟨pass', result⟩ := outcome
    have hNext' : pass'.panicked = false := hNext
    have hRest := ih hNext'
    cases result with
    | error e =>
      dsimp only
      by_cases hSlice : logSliceOk record.channelId = true
      · by_cases hBudget : pass'.budget = 0
        · simp [hSlice, hBudget, hNext']
        · simp only [hSlice, hBudget, Bool.true_eq_false, if_false, implies_true, and_true, and_assoc, ne_eq,
            not_false_eq_true, true_implies]
          exact and_congr_right fun _ => hRest
      · simp [hSlice]
    | ok done =>
      dsimp only
      by_cases hBudget : pass'.budget = 0
      · simp [hBudget, hNext']
      · simp only [hBudget, if_false, reduceCtorEq, exists_false, false_implies, and_true, and_assoc, ne_eq,
          not_false_eq_true, true_implies]
        exact and_congr_right fun _ => hRest

theorem pass_clean_iff (store : CloseRecordStore) : PassClean input store ↔ PassInRange input store := by
  rw [PassClean, PassInRange, passSums, reconcileCloseRecords]
  by_cases hIdle : pendingSnapshot input.recordOrder store.records = [] ∧ store.fundingTxos = ∅
  · simp [hIdle, Pass.start]
  · simp only [hIdle, if_false]
    cases hTip : input.chain.tipHeight with
    | error e => simp [Pass.start]
    | ok tipHeight =>
      simp only [reconcileAtTip, Except.ok.injEq, forall_eq', not_false_eq_true, true_implies]
      split
      · next hSteady =>
        rw [hSteady]
        simp [Pass.start]
      · next hSteady =>
        rw [Bool.not_eq_true] at hSteady
        rw [forall_prop_of_true hSteady]
        exact records_clean_iff input _ tipHeight _ rfl

end

/-! ## Runs -/

/-- The tracker's work: its operations, and passes. -/
inductive TrackStep where
  | op (op : StoreOp)
  | pass (input : PassInput)

def TrackStep.apply (store : CloseRecordStore) : TrackStep → Option CloseRecordStore
  | .op change => some (change.apply store)
  | .pass input => some (reconcileCloseRecords input store).store

def OpExact : StoreOp → Prop
  | .absorbRemote remoteBytes nowMs => BytesExact remoteBytes nowMs
  | _ => True

def OpInRange : StoreOp → Prop
  | .absorbRemote remoteBytes _ => BytesInRange remoteBytes
  | _ => True

/-- What is absorbed is read exactly, also while a pass waits, and no pass overflows or panics. -/
def StepClean (store : CloseRecordStore) : TrackStep → Prop
  | .op op => OpExact op
  | .pass input => (∀ n, ∀ op ∈ input.meanwhile n, OpExact op) ∧ PassClean input store

def StepInRange (store : CloseRecordStore) : TrackStep → Prop
  | .op op => OpInRange op
  | .pass input => (∀ n, ∀ op ∈ input.meanwhile n, OpInRange op) ∧ PassInRange input store

theorem opExact_iff (op : StoreOp) : OpExact op ↔ OpInRange op := by
  cases op with
  | absorbRemote remoteBytes nowMs => exact bytesExact_iff remoteBytes nowMs
  | _ => exact Iff.rfl

theorem stepClean_iff (store : CloseRecordStore) (step : TrackStep) : StepClean store step ↔ StepInRange store step := by
  cases step with
  | op op => exact opExact_iff op
  | pass input =>
    refine and_congr ?_ (pass_clean_iff input store)
    exact forall_congr' fun n => forall₂_congr fun op _ => opExact_iff op

/-- A timelock of 2^32 blocks. -/
def wideTimelock : Json :=
  .object [("channelId", .string "c"), ("timelockBlocks", .ofU64 4294967296)]

/-- The eighth byte of the id lies inside its last character. -/
def splitId : String := "aaaaaaaé"

def pendingClose (channelId : String) : CloseRecord :=
  { CloseRecord.skeleton channelId 0 with
    fundingTxo := some ⟨"f", 0⟩
    timelockBlocks := some 4294967295 }

def absorbedStore (channelId : String) : CloseRecordStore :=
  (CloseRecordStore.new ⟨⟨none, none⟩, fun _ => false, 0, []⟩ 0).absorbRemote
    (encodeRecords (.singleton channelId (pendingClose channelId))) 0

/-- The backend knows the tip and answers the outspend as given. -/
def outspendAnswers (outspend : Except String (Option String)) : PassInput where
  chain := {
    tipHeight := .ok 700000
    outspend := fun _ _ _ => outspend
    txConfirmedHeight := fun _ _ => .ok (some 699000) }
  txConfirmedInWallet := fun _ _ => false
  openChannelIds := []
  pendingSweepChannels := []
  nowMs := 0
  recordOrder := .keep _
  fundingOrder := .keep _
  meanwhile := fun _ => []

theorem absorbRemote_records (store : CloseRecordStore) (remoteBytes : Bytes) (nowMs : UInt64) :
    (store.absorbRemote remoteBytes nowMs).records =
      mergeMapInto store.records (CloseRecordStore.remoteMap remoteBytes nowMs) := rfl

theorem absorbedStore_records (channelId : String) :
    (absorbedStore channelId).records = Finmap.singleton channelId (pendingClose channelId) := by
  have hLookup : ∀ key record, (Finmap.singleton channelId (pendingClose channelId) : Records).lookup key = some record →
      key = channelId ∧ record = pendingClose channelId := by
    intro key record h
    have hMem := (StringMap.mem_toPairs (Finmap.singleton channelId (pendingClose channelId) : Records) key record).mpr h
    rw [StringMap.toPairs_singleton, List.mem_singleton, Prod.mk.injEq] at hMem
    exact hMem
  have hRead : CloseRecordStore.remoteMap (encodeRecords (.singleton channelId (pendingClose channelId))) 0 =
      Finmap.singleton channelId (pendingClose channelId) := by
    refine decodeRecordsMap_encode _ ?_ ?_ 0
    · intro key record h
      obtain ⟨rfl, rfl⟩ := hLookup key record h
      rfl
    · intro key record h
      obtain ⟨rfl, rfl⟩ := hLookup key record h
      exact skeleton_encodable rfl fun _ hTx => by cases hTx
  have hEmpty : (CloseRecordStore.new ⟨⟨none, none⟩, fun _ => false, 0, []⟩ 0).records = ∅ := rfl
  rw [absorbedStore, absorbRemote_records, hEmpty, hRead, mergeMapInto, StringMap.toPairs_singleton]
  apply Finmap.ext_lookup
  intro key
  rw [List.foldl_cons, List.foldl_nil, mergeInto, StringMap.lookup_insert_eq]
  apply Option.ext
  intro record
  constructor
  · intro h
    split at h
    · next hKey =>
      cases h
      rw [hKey]
      exact Finmap.lookup_singleton_eq
    · cases h
  · intro h
    obtain ⟨rfl, rfl⟩ := hLookup key record h
    rw [if_pos rfl]
    rfl

theorem absorbedStore_pending (channelId : String) :
    pendingSnapshot (.keep _) (absorbedStore channelId).records = [pendingClose channelId] := by
  rw [absorbedStore_records, pendingSnapshot, snapshot, IterOrder.keep, StringMap.toPairs_singleton]
  rfl

theorem absorbedStore_netted (channelId : String) (answer : Except String (Option String)) :
    safetyNet (outspendAnswers answer) ((absorbedStore channelId).setLastTipHeight 700000) (absorbedStore channelId).fundingTxos =
      (absorbedStore channelId).setLastTipHeight 700000 := by
  have hEmpty : (absorbedStore channelId).fundingTxos = ∅ := rfl
  rw [safetyNet, hEmpty, StringMap.toPairs_empty]
  rfl

theorem absorbedStore_pass (channelId : String) (answer : Except String (Option String)) :
    reconcileCloseRecords (outspendAnswers answer) (absorbedStore channelId) =
      processRecords (outspendAnswers answer) true 700000 (.start ((absorbedStore channelId).setLastTipHeight 700000))
        [pendingClose channelId] := by
  have hNetted := absorbedStore_netted channelId answer
  have hPending := absorbedStore_pending channelId
  have hKnown : pendingSnapshot (.keep _) ((absorbedStore channelId).setLastTipHeight 700000).records =
      [pendingClose channelId] := hPending
  have hOrder : (outspendAnswers answer).recordOrder = .keep _ := rfl
  rw [reconcileCloseRecords, hOrder, hPending, if_neg (by simp)]
  change reconcileAtTip (outspendAnswers answer) (absorbedStore channelId) [pendingClose channelId]
    (absorbedStore channelId).fundingTxos 700000 = _
  rw [reconcileAtTip]
  change processRecords (outspendAnswers answer) true 700000 (.start (safetyNet (outspendAnswers answer)
    ((absorbedStore channelId).setLastTipHeight 700000) (absorbedStore channelId).fundingTxos)) _ = _
  rw [hNetted]
  exact congrArg _ hKnown

theorem absorbedStore_sums (channelId : String) (answer : Except String (Option String)) :
    passSums (outspendAnswers answer) (absorbedStore channelId) =
      recordsSums (outspendAnswers answer) true 700000 (.start ((absorbedStore channelId).setLastTipHeight 700000))
        [pendingClose channelId] := by
  have hNetted := absorbedStore_netted channelId answer
  have hPending := absorbedStore_pending channelId
  have hKnown : pendingSnapshot (.keep _) ((absorbedStore channelId).setLastTipHeight 700000).records =
      [pendingClose channelId] := hPending
  have hOrder : (outspendAnswers answer).recordOrder = .keep _ := rfl
  rw [passSums, hOrder, hPending, if_neg (by simp)]
  change recordsSums (outspendAnswers answer) true 700000 (.start (safetyNet (outspendAnswers answer)
    ((absorbedStore channelId).setLastTipHeight 700000) (absorbedStore channelId).fundingTxos))
    (pendingSnapshot (.keep _) (safetyNet (outspendAnswers answer)
      ((absorbedStore channelId).setLastTipHeight 700000) (absorbedStore channelId).fundingTxos).records) = _
  rw [hNetted, hKnown]

/-- An integer of 2^32 reads as 0; a timelock of 2^32 - 1 blocks overflows the height it is added to; and
an id of seven letters and a two-byte one panics where the backend fails. -/
theorem hostile_bytes :
    ((deserializeCloseRecord wideTimelock 0).bind CloseRecord.timelockBlocks = some 0 ∧
      ¬ BytesExact (.ofJson (.object [("c", wideTimelock)])) 0) ∧
    (∃ sum ∈ passSums (outspendAnswers (.ok (some "t"))) (absorbedStore "c"), ¬ Fits sum) ∧
    (reconcileCloseRecords (outspendAnswers (.error "timeout")) (absorbedStore splitId)).panicked = true := by
  refine ⟨⟨?_, ?_⟩, ?_, ?_⟩
  · decide +kernel
  · intro h
    have hRange := (bytesExact_iff _ _).mp h (.object [("c", wideTimelock)]) _ "c" wideTimelock _ "c" rfl rfl
      (by decide +kernel) rfl (by decide +kernel)
    have hNarrow := hRange.timelockBlocks 4294967296 (by decide +kernel)
    revert hNarrow
    decide
  · refine ⟨(699000, 4294967295), ?_, ?_⟩
    · have hFacts : ∃ pass, collectFacts (outspendAnswers (.ok (some "t")))
          (.start ((absorbedStore "c").setLastTipHeight 700000)) (pendingClose "c") true =
          (pass, .ok (factsRecord (pendingClose "c")
            [{ txid := "t", role := .commitment, feeSats := none, confirmedAtHeight := some 699000 }])) := ⟨_, rfl⟩
      obtain ⟨pass, hFacts⟩ := hFacts
      rw [absorbedStore_sums, recordsSums, recordSums, hFacts]
      exact List.mem_append_left _ (List.mem_append_left _ (List.mem_singleton_self _))
    · rw [Fits]
      decide
  · have hFacts : ∃ pass, collectFacts (outspendAnswers (.error "timeout"))
        (.start ((absorbedStore splitId).setLastTipHeight 700000)) (pendingClose splitId) true =
        (pass, .error "timeout") := ⟨_, rfl⟩
    obtain ⟨pass, hFacts⟩ := hFacts
    have hSlice : logSliceOk splitId = false := by decide +kernel
    have hId : (pendingClose splitId).channelId = splitId := rfl
    rw [absorbedStore_pass, processRecords, reconcileOneRecord, hFacts]
    simp only [hId, hSlice, if_true]

end WalletCore.CloseRecords
