import WalletCore.Lib.Transition
import WalletCore.CloseRecords.PassRule
import WalletCore.CloseRecords.Untrusted

/-! # Heights that leave room

The merge mixes fields of different writers, and a pass adds the height of one transaction to the timelock of
the record. What is absorbed, what the chain answers and what the tracker starts with stay within bounds
that fit together; then no run of the tracker overflows, panics or reads an integer as another one.
-/

namespace WalletCore.CloseRecords

open Lib

/-! ## Bounds -/

/-- The greatest height to which the finality count can be added. -/
def claimableLimit : Nat := 4294967289

/-- The bounds of a run. -/
structure Limits where
  height : Nat
  timelock : Nat
  /-- Questions of a pass may fail, so that channel ids are cut for the log. -/
  mayFail : Bool
  fits : height + max timelock 2016 ≤ claimableLimit

def AtMost (limit : Nat) (field : Option UInt32) : Prop := ∀ n, field = some n → n.toNat ≤ limit

def ReadsAtMost (limit : Nat) (raw : Option Json) : Prop :=
  ∀ value, raw.bind Json.asU64 = some value → value.toNat ≤ limit

section

variable (limits : Limits)

def Limits.Sliceable (channelId : String) : Prop := limits.mayFail = true → logSliceOk channelId = true

/-- The integers and the channel id of one object, as far as the decoder comes to read them. -/
structure ObjectBounded (obj : JsonMap) : Prop where
  channelId : ∀ channelId, readStr (obj.lookup "channelId") = some channelId → limits.Sliceable channelId
  timelockBlocks : ReadsAtMost limits.timelock (obj.lookup "timelockBlocks")
  claimableAtHeight : ReadsAtMost claimableLimit (obj.lookup "claimableAtHeight")
  vout : ∀ raw fields txid, obj.lookup "fundingTxo" = some raw → raw.asObject = some fields →
    readStr (fields.lookup "txid") = some txid → Narrow (fields.lookup "vout")
  confirmedAtHeight : ∀ entries entry fields txid, (obj.lookup "txs").bind Json.asArray = some entries →
    entry ∈ entries → entry.asObject = some fields → readStr (fields.lookup "txid") = some txid →
    ReadsAtMost limits.height (fields.lookup "confirmedAtHeight")

def BytesBounded (bytes : Bytes) : Prop :=
  ∀ raw obj key value fields channelId, bytes.fromSlice = some raw → raw.asObject = some obj →
    obj.lookup key = some value → value.asObject = some fields → readStr (fields.lookup "channelId") = some channelId →
    ObjectBounded limits fields

structure CloseRecord.Bounded (record : CloseRecord) : Prop where
  channelId : limits.Sliceable record.channelId
  timelockBlocks : AtMost limits.timelock record.timelockBlocks
  claimableAtHeight : AtMost claimableLimit record.claimableAtHeight
  confirmedAtHeight : ∀ tx ∈ record.txs, AtMost limits.height tx.confirmedAtHeight

structure FundingTxoEntry.Bounded (channelId : String) (entry : FundingTxoEntry) : Prop where
  channelId : limits.Sliceable channelId
  timelockBlocks : AtMost limits.timelock entry.timelockBlocks

def RecordsBounded (records : Records) : Prop :=
  ∀ key record, records.lookup key = some record → record.Bounded limits

structure CloseRecordStore.Bounded (store : CloseRecordStore) : Prop where
  records : RecordsBounded limits store.records
  fundingTxos : ∀ channelId entry, store.fundingTxos.lookup channelId = some entry → entry.Bounded limits channelId

def StoreOp.Bounded : StoreOp → Prop
  | .upsert incoming => incoming.Bounded limits
  | .absorbRemote remoteBytes _ => BytesBounded limits remoteBytes
  | .recordFundingTxo channelId entry => entry.Bounded limits channelId
  | .removeFundingTxo _ => True
  | .channelClosed channelId .. | .commitmentBroadcast channelId .. => limits.Sliceable channelId
  | .sweepTx _ channelIds _ => ∀ channelId ∈ channelIds, limits.Sliceable channelId

/-- What the chain answers in a pass, and what other tasks do meanwhile. -/
structure PassInput.Bounded (input : PassInput) : Prop where
  tip : ∀ tipHeight, input.chain.tipHeight = .ok tipHeight → tipHeight.toNat ≠ 4294967295
  outspend : limits.mayFail = false → ∀ n txid vout e, input.chain.outspend n txid vout ≠ .error e
  txConfirmedHeight : limits.mayFail = false → ∀ n txid e, input.chain.txConfirmedHeight n txid ≠ .error e
  heights : ∀ n txid height, input.chain.txConfirmedHeight n txid = .ok (some height) → height.toNat ≤ limits.height
  meanwhile : ∀ n, ∀ op ∈ input.meanwhile n, op.Bounded limits

def TrackStep.Bounded : TrackStep → Prop
  | .op change => change.Bounded limits
  | .pass input => input.Bounded limits

end

variable {limits : Limits}

/-! ## What is read -/

theorem ReadsAtMost.narrow {limit : Nat} {raw : Option Json} (h : ReadsAtMost limit raw) (hLimit : limit < UInt32.size) :
    Narrow raw :=
  fun value hValue => (h value hValue).trans_lt hLimit

theorem ReadsAtMost.readU32 {limit : Nat} {raw : Option Json} (h : ReadsAtMost limit raw) : AtMost limit (readU32 raw) := by
  intro n hn
  obtain ⟨value, hValue, rfl⟩ := Option.map_eq_some_iff.mp hn
  rw [UInt64.toNat_toUInt32]
  exact (Nat.mod_le _ _).trans (h value hValue)

theorem Limits.height_lt (limits : Limits) : limits.height < UInt32.size := by
  have hFits := limits.fits
  rw [claimableLimit] at hFits
  rw [UInt32.size]
  omega

theorem Limits.timelock_lt (limits : Limits) : limits.timelock < UInt32.size := by
  have hFits := limits.fits
  rw [claimableLimit] at hFits
  rw [UInt32.size]
  omega

theorem ObjectBounded.inRange {obj : JsonMap} (h : ObjectBounded limits obj) : InRange obj where
  timelockBlocks := h.timelockBlocks.narrow limits.timelock_lt
  claimableAtHeight := h.claimableAtHeight.narrow (by decide)
  vout := h.vout
  confirmedAtHeight entries entry fields txid hEntries hEntry hFields hTxid :=
    (h.confirmedAtHeight entries entry fields txid hEntries hEntry hFields hTxid).narrow limits.height_lt

theorem BytesBounded.inRange {bytes : Bytes} (h : BytesBounded limits bytes) : BytesInRange bytes :=
  fun raw obj key value fields channelId hRaw hObj hValue hFields hId =>
    (h raw obj key value fields channelId hRaw hObj hValue hFields hId).inRange

theorem StoreOp.Bounded.inRange {op : StoreOp} (h : op.Bounded limits) : OpInRange op := by
  cases op with
  | absorbRemote remoteBytes nowMs => exact BytesBounded.inRange h
  | _ => trivial

theorem ObjectBounded.record {raw : Json} {obj : JsonMap} {nowMs : UInt64} {record : CloseRecord}
    (h : ObjectBounded limits obj) (hObj : raw.asObject = some obj)
    (hRead : deserializeCloseRecord raw nowMs = some record) : record.Bounded limits := by
  rw [deserializeCloseRecord, hObj, Option.bind_eq_bind, Option.bind_some] at hRead
  obtain ⟨channelId, hId, hRead⟩ := Option.bind_eq_some_iff.mp hRead
  cases hRead
  refine ⟨h.channelId channelId hId, h.timelockBlocks.readU32, h.claimableAtHeight.readU32, ?_⟩
  intro tx hTx
  change tx ∈ deserializeTxs ((obj.lookup "txs").bind Json.asArray) at hTx
  cases hEntries : (obj.lookup "txs").bind Json.asArray with
  | none =>
    rw [hEntries] at hTx
    cases hTx
  | some entries =>
    rw [hEntries] at hTx
    obtain ⟨entry, hEntry, hRead⟩ := List.mem_filterMap.mp hTx
    obtain ⟨fields, hFields, hRead⟩ := Option.bind_eq_some_iff.mp hRead
    obtain ⟨txid, hTxid, hRead⟩ := Option.bind_eq_some_iff.mp hRead
    cases hRead
    exact (h.confirmedAtHeight entries entry fields txid hEntries hEntry hFields hTxid).readU32

theorem BytesBounded.remoteMap {bytes : Bytes} (h : BytesBounded limits bytes) (nowMs : UInt64) :
    RecordsBounded limits (CloseRecordStore.remoteMap bytes nowMs) := by
  intro key record hRecord
  rw [CloseRecordStore.remoteMap] at hRecord
  split at hRecord
  · next raw hRaw =>
    rw [decodeRecordsMap] at hRecord
    split at hRecord
    · next obj hObj =>
      obtain ⟨⟨name, value⟩, hEntry, hPair⟩ := List.mem_filterMap.mp (StringMap.mem_of_lookup_ofPairs hRecord)
      obtain ⟨read, hRead, hPair⟩ := Option.map_eq_some_iff.mp hPair
      cases hPair
      have hFields : ∃ fields channelId, value.asObject = some fields ∧
          readStr (fields.lookup "channelId") = some channelId := by
        obtain ⟨fields, hFields, hRest⟩ := Option.bind_eq_some_iff.mp hRead
        obtain ⟨channelId, hId, -⟩ := Option.bind_eq_some_iff.mp hRest
        exact ⟨fields, channelId, hFields, hId⟩
      obtain ⟨fields, channelId, hFields, hId⟩ := hFields
      have hValue := (StringMap.mem_toPairs _ _ _).mp hEntry
      exact (h raw obj name value fields channelId hRaw hObj hValue hFields hId).record hFields hRead
    · cases hRecord
  · cases hRecord

/-! ## What is stored -/

theorem atMost_none (limit : Nat) : AtMost limit none := by rintro _ ⟨⟩

theorem AtMost.or {limit : Nat} {a b : Option UInt32} (ha : AtMost limit a) (hb : AtMost limit b) :
    AtMost limit (a.or b) := by
  cases a with
  | none => exact hb
  | some n => exact ha

theorem mergeCloseRecords_bounded {base incoming : CloseRecord} (hBase : base.Bounded limits)
    (hIncoming : incoming.Bounded limits) : (mergeCloseRecords base incoming).Bounded limits where
  channelId := hBase.channelId
  timelockBlocks := hBase.timelockBlocks.or hIncoming.timelockBlocks
  claimableAtHeight := hIncoming.claimableAtHeight.or hBase.claimableAtHeight
  confirmedAtHeight := mergeTxs_forall (P := fun tx => AtMost limits.height tx.confirmedAtHeight)
    (fun _ _ _ hExisting hTx => hExisting.or hTx) hBase.confirmedAtHeight hIncoming.confirmedAtHeight

theorem mergeInto_bounded {records : Records} {incoming : CloseRecord} (h : RecordsBounded limits records)
    (hIncoming : incoming.Bounded limits) (channelId : String) :
    RecordsBounded limits (mergeInto records channelId incoming) := by
  intro key record hRecord
  rw [mergeInto, StringMap.lookup_insert_eq] at hRecord
  split at hRecord
  · cases hRecord
    split
    · next existing hExisting => exact mergeCloseRecords_bounded (h _ existing hExisting) hIncoming
    · exact hIncoming
  · exact h key record hRecord

theorem mergeMapInto_bounded {records remote : Records} (h : RecordsBounded limits records)
    (hRemote : RecordsBounded limits remote) : RecordsBounded limits (mergeMapInto records remote) :=
  List.foldlRecOn remote.toPairs _ h fun _ hRecords entry hEntry =>
    mergeInto_bounded hRecords (hRemote entry.1 entry.2 ((StringMap.mem_toPairs _ _ _).mp hEntry)) entry.1

/-- A record of which only the channel is known. -/
theorem bare_bounded {record : CloseRecord} (hId : limits.Sliceable record.channelId)
    (hTimelock : AtMost limits.timelock record.timelockBlocks) (hClaimable : record.claimableAtHeight = none)
    (hTxs : ∀ tx ∈ record.txs, tx.confirmedAtHeight = none) : record.Bounded limits where
  channelId := hId
  timelockBlocks := hTimelock
  claimableAtHeight := hClaimable ▸ atMost_none _
  confirmedAtHeight tx hTx := hTxs tx hTx ▸ atMost_none _

namespace CloseRecordStore.Bounded

variable {store : CloseRecordStore} (h : store.Bounded limits)

include h

theorem upsert {incoming : CloseRecord} (hIncoming : incoming.Bounded limits) : (store.upsert incoming).Bounded limits :=
  ⟨mergeInto_bounded h.records hIncoming incoming.channelId, h.fundingTxos⟩

theorem removeFundingTxo (channelId : String) : (store.removeFundingTxo channelId).Bounded limits := by
  rw [CloseRecordStore.removeFundingTxo]
  split
  · exact h
  · refine ⟨h.records, ?_⟩
    intro key entry hEntry
    change (store.fundingTxos.erase channelId).lookup key = some entry at hEntry
    by_cases hKey : key = channelId
    · rw [hKey, Finmap.lookup_erase] at hEntry
      cases hEntry
    · rw [Finmap.lookup_erase_ne hKey] at hEntry
      exact h.fundingTxos key entry hEntry

theorem recordFundingTxo {channelId : String} {entry : FundingTxoEntry} (hEntry : entry.Bounded limits channelId) :
    (store.recordFundingTxo channelId entry).Bounded limits := by
  rw [CloseRecordStore.recordFundingTxo]
  split
  · exact h
  · refine ⟨h.records, ?_⟩
    intro key found hFound
    change (store.fundingTxos.insert channelId entry).lookup key = some found at hFound
    rw [StringMap.lookup_insert_eq] at hFound
    split at hFound
    · next hKey =>
      cases hFound
      rw [hKey]
      exact hEntry
    · exact h.fundingTxos key found hFound

theorem mapEntry (channelId : String) :
    AtMost limits.timelock ((store.fundingTxos.lookup channelId).bind FundingTxoEntry.timelockBlocks) := by
  cases hEntry : store.fundingTxos.lookup channelId with
  | none => exact atMost_none _
  | some entry => exact (h.fundingTxos channelId entry hEntry).timelockBlocks

theorem apply {op : StoreOp} (hOp : op.Bounded limits) : (op.apply store).Bounded limits := by
  cases op with
  | upsert incoming => exact h.upsert hOp
  | absorbRemote remoteBytes nowMs =>
    exact ⟨mergeMapInto_bounded h.records (BytesBounded.remoteMap hOp nowMs), h.fundingTxos⟩
  | recordFundingTxo channelId entry => exact h.recordFundingTxo hOp
  | removeFundingTxo channelId => exact h.removeFundingTxo channelId
  | channelClosed channelId classification eventFundingTxo lastLocalBalanceSats nowMs =>
    rw [StoreOp.apply, onChannelClosed]
    split
    · exact h.removeFundingTxo channelId
    · have hRecord : (channelClosedRecord (store.fundingTxos.lookup channelId) channelId classification eventFundingTxo
          lastLocalBalanceSats nowMs).Bounded limits := bare_bounded hOp (h.mapEntry channelId) rfl (by rintro _ ⟨⟩)
      exact (h.upsert hRecord).removeFundingTxo channelId
  | commitmentBroadcast channelId txid feeSats nowMs =>
    apply h.upsert
    refine bare_bounded hOp (atMost_none _) rfl ?_
    intro tx hTx
    rw [List.mem_singleton.mp hTx]
  | sweepTx txid channelIds nowMs =>
    refine List.foldlRecOn channelIds _ h fun store hStore channelId hId => hStore.upsert ?_
    refine bare_bounded (hOp channelId hId) (atMost_none _) rfl ?_
    intro tx hTx
    rw [List.mem_singleton.mp hTx]

end CloseRecordStore.Bounded

/-! ## What a round is told -/

section

variable {input : PassInput}

theorem Told.bounded {record : CloseRecord} {tx : CloseRecordTx} (hInput : input.Bounded limits)
    (hTold : Told input record tx) : AtMost limits.height tx.confirmedAtHeight := by
  cases hTold with
  | discovered _ _ _ hStatus =>
    rintro height rfl
    obtain hNone | hHeight := hStatus
    · cases hNone
    · exact hInput.heights _ _ height hHeight
  | filled _ hHeight =>
    rintro _ ⟨⟩
    exact hInput.heights _ _ _ hHeight

/-- The first confirmed close transaction, told or known before. -/
theorem closeHeight_bounded {record : CloseRecord} {factTxs : List CloseRecordTx} {height : UInt32}
    (hRecord : record.Bounded limits) (hFacts : ∀ tx ∈ factTxs, AtMost limits.height tx.confirmedAtHeight)
    (hHeight : ((factTxs ++ record.txs).find? fun tx => tx.role.isClose && tx.confirmedAtHeight.isSome).bind
      CloseRecordTx.confirmedAtHeight = some height) : height.toNat ≤ limits.height := by
  obtain ⟨tx, hTx, hConfirmed⟩ := Option.bind_eq_some_iff.mp hHeight
  rcases List.mem_append.mp (List.mem_of_find?_eq_some hTx) with hFact | hKnown
  · exact hFacts tx hFact height hConfirmed
  · exact hRecord.confirmedAtHeight tx hKnown height hConfirmed

/-- The height and the timelock leave room for each other. -/
theorem claimable_fits {record : CloseRecord} {factTxs : List CloseRecordTx} (hRecord : record.Bounded limits)
    (hFacts : ∀ tx ∈ factTxs, AtMost limits.height tx.confirmedAtHeight) {timelock height : UInt32}
    (hTimelock : record.timelockBlocks = some timelock)
    (hHeight : ((factTxs ++ record.txs).find? fun tx => tx.role.isClose && tx.confirmedAtHeight.isSome).bind
      CloseRecordTx.confirmedAtHeight = some height) : height.toNat + timelock.toNat ≤ claimableLimit := by
  have hLow := closeHeight_bounded hRecord hFacts hHeight
  have hWait := hRecord.timelockBlocks timelock hTimelock
  have hFits := limits.fits
  omega

theorem deriveClaimable_bounded {record : CloseRecord} {factTxs : List CloseRecordTx} (hRecord : record.Bounded limits)
    (hFacts : ∀ tx ∈ factTxs, AtMost limits.height tx.confirmedAtHeight) :
    AtMost claimableLimit (deriveClaimable record factTxs) := by
  intro claimable hClaimable
  rw [deriveClaimable] at hClaimable
  split at hClaimable
  · obtain ⟨timelock, hTimelock, hSum⟩ := Option.bind_eq_some_iff.mp hClaimable
    obtain ⟨height, hHeight, rfl⟩ := Option.map_eq_some_iff.mp hSum
    have hFits := claimable_fits hRecord hFacts hTimelock hHeight
    rw [UInt32.toNat_add]
    exact (Nat.mod_le _ _).trans hFits
  · cases hClaimable

theorem factsRecord_bounded {record : CloseRecord} {factTxs : List CloseRecordTx} (hRecord : record.Bounded limits)
    (hFacts : ∀ tx ∈ factTxs, AtMost limits.height tx.confirmedAtHeight) : (factsRecord record factTxs).Bounded limits where
  channelId := hRecord.channelId
  timelockBlocks := atMost_none _
  claimableAtHeight := deriveClaimable_bounded hRecord hFacts
  confirmedAtHeight := hFacts

theorem completionRecord_bounded {facts : CloseRecord} (hFacts : facts.Bounded limits) (nowMs : UInt64)
    (resolution : Resolution) : (completionRecord facts nowMs resolution).Bounded limits where
  channelId := hFacts.channelId
  timelockBlocks := hFacts.timelockBlocks
  claimableAtHeight := hFacts.claimableAtHeight
  confirmedAtHeight := by rintro _ ⟨⟩

theorem safetyNetRecord_bounded {channelId : String} {txo : FundingTxoEntry} (h : txo.Bounded limits channelId)
    (nowMs : UInt64) : (safetyNetRecord channelId txo nowMs).Bounded limits :=
  bare_bounded h.channelId h.timelockBlocks rfl (by rintro _ ⟨⟩)

/-- Every step of a pass keeps the bounds. -/
theorem passRule_bounded (hInput : input.Bounded limits) : PassRule input (CloseRecordStore.Bounded limits)
    (CloseRecord.Bounded limits) (fun channelId txo => txo.Bounded limits channelId) where
  tip _ _ hStore := ⟨hStore.records, hStore.fundingTxos⟩
  meanwhile n op hOp _ hStore := hStore.apply (hInput.meanwhile n op hOp)
  known _ record hStore hGet := hStore.records record.channelId record hGet
  listed _ channelId txo hStore hEntry := hStore.fundingTxos channelId txo hEntry
  net store channelId txo hStore hEntry := by
    rw [safetyNetStep]
    split
    · exact hStore
    · split
      · exact hStore.removeFundingTxo channelId
      · exact (hStore.upsert (safetyNetRecord_bounded hEntry _)).removeFundingTxo channelId
  facts _ _ _ hStore hKnown _ hTold :=
    hStore.upsert (factsRecord_bounded hKnown fun tx hTx => (hTold tx hTx).bounded hInput)
  complete _ _ _ resolution hStore hKnown _ hTold :=
    hStore.upsert (completionRecord_bounded (factsRecord_bounded hKnown fun tx hTx => (hTold tx hTx).bounded hInput) _ resolution)

/-! ## What a round adds up -/

/-- A question fails only where the chain does. -/
theorem withBudget_error {α : Type} {pass pass' : Pass} {query : Nat → Except String (Option α)} {e : String}
    (h : withBudget input pass query = (pass', .error e)) : ∃ n, query n = .error e := by
  rw [withBudget] at h
  split at h
  · cases h
  · exact ⟨pass.queries, congrArg Prod.snd h⟩

theorem fillHeights_error {pass pass' : Pass} {txs : List CloseRecordTx} {e : String}
    (h : fillHeights input pass txs = (pass', .error e)) : ∃ n txid, input.chain.txConfirmedHeight n txid = .error e := by
  induction txs generalizing pass pass' with
  | nil => cases h
  | cons tx rest ih =>
    rw [fillHeights] at h
    split at h
    · exact ih h
    · split at h
      · next hStatus =>
        cases h
        obtain ⟨n, hError⟩ := withBudget_error hStatus
        exact ⟨n, tx.txid, hError⟩
      · split at h
        · next hRest =>
          cases h
          exact ih hRest
        · split at h <;> cases h

/-- A question of a round that failed. -/
def QuestionFailed (input : PassInput) (e : String) : Prop :=
  (∃ n txid vout, input.chain.outspend n txid vout = .error e) ∨
    ∃ n txid, input.chain.txConfirmedHeight n txid = .error e

theorem discoverCloseTx_error {pass pass' : Pass} {record : CloseRecord} {e : String}
    (h : discoverCloseTx input pass record = (pass', .error e)) : QuestionFailed input e := by
  unfold discoverCloseTx at h
  split at h
  · cases h
  · next txo _ =>
    split at h
    · next hSpender =>
      cases h
      obtain ⟨n, hError⟩ := withBudget_error hSpender
      exact .inl ⟨n, txo.txid, txo.vout, hError⟩
    · cases h
    · split at h
      · next hStatus =>
        cases h
        obtain ⟨n, hError⟩ := withBudget_error hStatus
        exact .inr ⟨n, _, hError⟩
      · cases h

theorem collectFacts_error {pass pass' : Pass} {record : CloseRecord} {tipChanged : Bool} {e : String}
    (h : collectFacts input pass record tipChanged = (pass', .error e)) : QuestionFailed input e := by
  rw [collectFacts] at h
  split at h
  · next hDiscovered =>
    cases h
    exact discoverCloseTx_error hDiscovered
  · split at h
    · next hFilled =>
      cases h
      split at hFilled
      · exact .inr (fillHeights_error hFilled)
      · cases hFilled
    · cases h

theorem sliceable_of_error {record : CloseRecord} {pass pass' : Pass} {tipChanged : Bool} {e : String}
    (hInput : input.Bounded limits) (hRecord : record.Bounded limits)
    (h : collectFacts input pass record tipChanged = (pass', .error e)) : logSliceOk record.channelId = true := by
  cases hFails : limits.mayFail with
  | true => exact hRecord.channelId hFails
  | false =>
    obtain ⟨n, txid, vout, hError⟩ | ⟨n, txid, hError⟩ := collectFacts_error h
    · exact absurd hError (hInput.outspend hFails n txid vout e)
    · exact absurd hError (hInput.txConfirmedHeight hFails n txid e)

theorem completion_bounded (queries : Nat) {tipHeight : UInt32} {current : CloseRecord}
    (hTip : tipHeight.toNat ≠ 4294967295) (hCurrent : current.Bounded limits) :
    CompletionInRange input queries tipHeight current where
  close _ _ _ := hTip
  receipts _ _ _ _ _ _ := hTip
  claimable _ claimable hClaimable := by
    have hLimit := hCurrent.claimableAtHeight claimable hClaimable
    rw [claimableLimit] at hLimit
    omega
  timelock _ _ height hHeight := by
    obtain ⟨tx, hTx, hConfirmed⟩ := Option.bind_eq_some_iff.mp hHeight
    have hLow := hCurrent.confirmedAtHeight tx (List.mem_of_find?_eq_some hTx) height hConfirmed
    have hFits := limits.fits
    rw [claimableLimit] at hFits
    omega

theorem record_bounded {pass : Pass} {record : CloseRecord} (tipChanged : Bool) {tipHeight : UInt32}
    (hInput : input.Bounded limits) (hTip : tipHeight.toNat ≠ 4294967295) (hPass : pass.store.Bounded limits)
    (hRecord : record.Bounded limits) (hHeld : pass.store.get record.channelId ≠ none) :
    RecordInRange input pass record tipChanged tipHeight := by
  have rule := passRule_bounded hInput
  have hAsked := collectFacts_asked input pass record tipChanged
  have hCollected := rule.asked hAsked hPass
  have hStillHeld := hAsked.kept.get_ne_none hHeld
  rw [RecordInRange]
  split
  · next hError => exact sliceable_of_error hInput hRecord hError
  · next pass' facts hFacts =>
    rw [hFacts] at hCollected hStillHeld
    obtain ⟨factTxs, rfl, hTold⟩ := collectFacts_told input record hFacts
    have hHeights : ∀ tx ∈ factTxs, AtMost limits.height tx.confirmedAtHeight := fun tx hTx => (hTold tx hTx).bounded hInput
    have hStored : (storeFacts pass' (factsRecord record factTxs)).store.Bounded limits := by
      rw [storeFacts]
      split
      · exact hCollected
      · exact hCollected.upsert (factsRecord_bounded hRecord hHeights)
    constructor
    · intro _ _ _ timelock height hTimelock hHeight
      have hFits := claimable_fits hRecord hHeights hTimelock hHeight
      rw [claimableLimit] at hFits
      omega
    · intro _ current hCurrent
      rw [completionSubject] at hCurrent
      split at hCurrent
      · cases hCurrent
      · cases hCurrent
        apply completion_bounded _ hTip
        cases hGet : (storeFacts pass' (factsRecord record factTxs)).store.get record.channelId with
        | none => exact hRecord
        | some found => exact hStored.records _ found hGet

theorem records_bounded (tipChanged : Bool) {tipHeight : UInt32} (hInput : input.Bounded limits)
    (hTip : tipHeight.toNat ≠ 4294967295) {pass : Pass} {records : List CloseRecord}
    (hPass : pass.store.Bounded limits) (hRecords : ∀ record ∈ records, record.Bounded limits)
    (hHeld : ∀ record ∈ records, pass.store.get record.channelId ≠ none) :
    RecordsInRange input tipChanged tipHeight pass records := by
  induction records generalizing pass with
  | nil => trivial
  | cons record rest ih =>
    rw [List.forall_mem_cons] at hRecords hHeld
    refine ⟨record_bounded tipChanged hInput hTip hPass hRecords.1 hHeld.1, fun _ => ?_⟩
    have hNext := (passRule_bounded hInput).reconcileOneRecord tipChanged tipHeight hPass hRecords.1 hHeld.1
    have hKept := reconcileOneRecord_kept input pass record tipChanged tipHeight
    exact ih hNext hRecords.2 fun record' hMem => hKept.get_ne_none (hHeld.2 record' hMem)

theorem pass_bounded {store : CloseRecordStore} (hInput : input.Bounded limits) (hStore : store.Bounded limits) :
    PassInRange input store := by
  intro tipHeight hTip _ before tipChanged known _ netted
  have rule := passRule_bounded hInput
  have hBefore : before.Bounded limits := rule.applyOps 0 hStore
  have hKnown : known.Bounded limits := rule.tip before tipHeight hBefore
  have hNetted : netted.Bounded limits := by
    dsimp only [netted]
    split
    · exact rule.safetyNet hKnown hStore.fundingTxos
    · exact hKnown
  have hHeld : ∀ record ∈ pendingSnapshot input.recordOrder netted.records,
      netted.get record.channelId = some record := fun record hRecord => ((mem_pendingSnapshot _ _ _).mp hRecord).1
  apply records_bounded tipChanged hInput (hInput.tip tipHeight hTip) hNetted
  · exact fun record hRecord => hNetted.records _ record (hHeld record hRecord)
  · exact fun record hRecord => Option.ne_none_iff_exists'.mpr ⟨record, hHeld record hRecord⟩

end

/-! ## Runs -/

theorem step_bounded {store store' : CloseRecordStore} {step : TrackStep} (hStore : store.Bounded limits)
    (hStep : step.Bounded limits) (hApply : step.apply store = some store') : store'.Bounded limits := by
  cases step with
  | op op =>
    cases hApply
    exact hStore.apply hStep
  | pass input =>
    cases hApply
    exact (passRule_bounded hStep).reconcileCloseRecords hStore

theorem step_inRange {store : CloseRecordStore} {step : TrackStep} (hStore : store.Bounded limits)
    (hStep : step.Bounded limits) : StepInRange store step := by
  cases step with
  | op op => exact StoreOp.Bounded.inRange hStep
  | pass input => exact ⟨fun n op hOp => (hStep.meanwhile n op hOp).inRange, pass_bounded hStep hStore⟩

/-- A run within bounds reads every integer exactly, overflows nowhere and does not panic. -/
theorem run_clean (limits : Limits) (store : CloseRecordStore) (steps : List TrackStep) (hStore : store.Bounded limits)
    (hSteps : ∀ step ∈ steps, step.Bounded limits) : Along TrackStep.apply StepClean store steps := by
  apply along_of_inv (P := CloseRecordStore.Bounded limits) _ _ hStore (along_of_forall hSteps store)
  · exact fun _ _ _ hHere hStep hApply => step_bounded hHere hStep hApply
  · exact fun store step hHere hStep => (stepClean_iff store step).mpr (step_inRange hHere hStep)

/-- Heights of our days, the timelock of the default, and a chain that may fail to answer. -/
def roomy : Limits where
  height := 800000
  timelock := 144
  mayFail := true
  fits := by decide

def quietFields : List (String × Json) :=
  [("channelId", .string "c"), ("timelockBlocks", .ofU64 144),
    ("fundingTxo", .object [("txid", .string "f"), ("vout", .ofU64 0)]),
    ("txs", .array [.object [("txid", .string "s"), ("role", .string "sweep"), ("confirmedAtHeight", .ofU64 699500)]])]

theorem quietFields_bounded : ObjectBounded roomy (.ofPairs quietFields) where
  channelId := by
    intro channelId hRead _
    have hId : readStr ((StringMap.ofPairs quietFields).lookup "channelId") = some "c" := by decide +kernel
    cases hId.symm.trans hRead
    decide +kernel
  timelockBlocks := by
    intro value hValue
    have hRead : ((StringMap.ofPairs quietFields).lookup "timelockBlocks").bind Json.asU64 = some 144 := by decide +kernel
    cases hRead.symm.trans hValue
    decide
  claimableAtHeight := by
    intro value hValue
    have hNone : (StringMap.ofPairs quietFields).lookup "claimableAtHeight" = none := by decide +kernel
    rw [hNone] at hValue
    cases hValue
  vout := by
    intro raw fields txid hRaw hFields _ value hValue
    have hTxo : (StringMap.ofPairs quietFields).lookup "fundingTxo" =
        some (.object [("txid", .string "f"), ("vout", .ofU64 0)]) := by decide +kernel
    cases hTxo.symm.trans hRaw
    cases hFields
    have hRead : ((StringMap.ofPairs [("txid", Json.string "f"), ("vout", .ofU64 0)]).lookup "vout").bind Json.asU64 =
        some 0 := by decide +kernel
    cases hRead.symm.trans hValue
    decide
  confirmedAtHeight := by
    intro entries entry fields txid hEntries hEntry hFields _ value hValue
    have hTxs : ((StringMap.ofPairs quietFields).lookup "txs").bind Json.asArray = some
        [.object [("txid", .string "s"), ("role", .string "sweep"), ("confirmedAtHeight", .ofU64 699500)]] := by
      decide +kernel
    cases hTxs.symm.trans hEntries
    cases List.mem_singleton.mp hEntry
    cases hFields
    have hRead : ((StringMap.ofPairs [("txid", Json.string "s"), ("role", .string "sweep"),
        ("confirmedAtHeight", .ofU64 699500)]).lookup "confirmedAtHeight").bind Json.asU64 = some 699500 := by
      decide +kernel
    cases hRead.symm.trans hValue
    decide

theorem quiet_bounded : BytesBounded roomy (.ofJson (.object [("c", .object quietFields)])) := by
  intro raw obj key value fields channelId hRaw hObj hValue hFields _
  cases hRaw
  cases hObj
  cases List.mem_singleton.mp (StringMap.mem_of_lookup_ofPairs hValue)
  cases hFields
  exact quietFields_bounded

theorem outspendAnswers_bounded (answer : Except String (Option String)) : (outspendAnswers answer).Bounded roomy where
  tip := by
    rintro _ ⟨⟩
    decide
  outspend := by rintro ⟨⟩
  txConfirmedHeight := by rintro ⟨⟩
  heights := by
    rintro _ _ _ ⟨⟩
    decide
  meanwhile := by rintro _ _ ⟨⟩

/-- The backend fails in one pass and finds the close in the next. -/
theorem run_clean_quiet :
    let store := CloseRecordStore.new ⟨⟨none, none⟩, fun _ => false, 0, []⟩ 0
    let steps : List TrackStep := [.op (.absorbRemote (.ofJson (.object [("c", .object quietFields)])) 0),
      .pass (outspendAnswers (.error "timeout")), .pass (outspendAnswers (.ok (some "t")))]
    Along TrackStep.apply StepClean store steps ∧
      ((exec TrackStep.apply store steps).bind (·.get "c")).bind CloseRecord.claimableAtHeight = some 699144 := by
  refine ⟨?_, by decide +kernel⟩
  apply run_clean roomy
  · exact ⟨by rintro _ _ ⟨⟩, by rintro _ _ ⟨⟩⟩
  · rw [List.forall_mem_cons, List.forall_mem_cons, List.forall_mem_singleton]
    exact ⟨quiet_bounded, outspendAnswers_bounded _, outspendAnswers_bounded _⟩

end WalletCore.CloseRecords
