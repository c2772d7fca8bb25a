import WalletCore.CloseRecords.Record

/-! # The codec of the close-record maps

One codec serves the local mirror and the remote blob. Amounts travel as decimal text,
unknown top-level fields survive in `extras`, and malformed fields degrade to defaults:
only a missing channel id rejects a record.
-/

namespace WalletCore.CloseRecords

open Lib

def CloseType.asStr : CloseType → String
  | .coop => "coop"
  | .force => "force"
  | .unknown => "unknown"

def Initiator.asStr : Initiator → String
  | .local => "local"
  | .remote => "remote"
  | .unknown => "unknown"

def CloseTxRole.asStr : CloseTxRole → String
  | .closing => "closing"
  | .commitment => "commitment"
  | .anchorCpfp => "anchor_cpfp"
  | .htlcClaim => "htlc_claim"
  | .sweep => "sweep"
  | .other role => role

def CloseTxRole.fromStr (role : String) : CloseTxRole :=
  match role with
  | "closing" => .closing
  | "commitment" => .commitment
  | "anchor_cpfp" => .anchorCpfp
  | "htlc_claim" => .htlcClaim
  | "sweep" => .sweep
  | newer => .other newer

def Resolution.asStr : Resolution → String
  | .verified => "verified"
  | .unverified => "unverified"

def knownRecordKeys : List String :=
  ["schemaVersion", "channelId", "fundingTxo", "closeType", "initiator", "closureReason", "txs",
    "expectedAmountSats", "timelockBlocks", "claimableAtHeight", "createdAt", "completedAt",
    "resolution", "extras"]

/-- Absent fields are omitted. -/
def insertOpt (m : JsonMap) (key : String) : Option Json → JsonMap
  | some value => m.insert key value
  | none => m

def serializeTx (tx : CloseRecordTx) : Json :=
  let m : JsonMap := ∅
  let m := m.insert "txid" (.string tx.txid)
  let m := m.insert "role" (.string tx.role.asStr)
  let m := insertOpt m "feeSats" (tx.feeSats.map fun fee => .string (u64ToString fee))
  .ofMap (insertOpt m "confirmedAtHeight" (tx.confirmedAtHeight.map .ofU32))

def serializeOutpoint (txo : CloseOutpoint) : Json :=
  .ofMap (.ofPairs [("txid", .string txo.txid), ("vout", .ofU32 txo.vout)])

/-- The serialized object, extras first and the known fields over them. -/
def closeRecordMap (record : CloseRecord) : JsonMap :=
  let m : JsonMap := .ofPairs record.extras.toPairs
  let m := m.insert "schemaVersion" (.ofU64 record.schemaVersion)
  let m := m.insert "channelId" (.string record.channelId)
  let m := insertOpt m "fundingTxo" (record.fundingTxo.map serializeOutpoint)
  let m := m.insert "closeType" (.string record.closeType.asStr)
  let m := m.insert "initiator" (.string record.initiator.asStr)
  let m := insertOpt m "closureReason" (record.closureReason.map .string)
  let m := m.insert "txs" (.array (record.txs.map serializeTx))
  let m := insertOpt m "expectedAmountSats" (record.expectedAmountSats.map fun sats => .string (u64ToString sats))
  let m := insertOpt m "timelockBlocks" (record.timelockBlocks.map .ofU32)
  let m := insertOpt m "claimableAtHeight" (record.claimableAtHeight.map .ofU32)
  let m := m.insert "createdAt" (.ofU64 record.createdAtMs)
  let m := insertOpt m "completedAt" (record.completedAtMs.map .ofU64)
  insertOpt m "resolution" (record.resolution.map fun resolution => .string resolution.asStr)

def serializeCloseRecord (record : CloseRecord) : Json := .ofMap (closeRecordMap record)

def toU64OrNone : Json → Option UInt64
  | .string raw => if raw = "" then none else parseU64 raw
  | .number (.posInt value) => some value
  | _ => none

/-- A `u64` reader cut with `as u32`, which keeps the low 32 bits. -/
def readU32 (value : Option Json) : Option UInt32 := (value.bind Json.asU64).map UInt64.toUInt32

def readStr (value : Option Json) : Option String := value.bind Json.asStr

def deserializeTx (raw : Json) : Option CloseRecordTx := do
  let tx ← raw.asObject
  let txid ← readStr (tx.lookup "txid")
  some {
    txid := txid
    role := ((readStr (tx.lookup "role")).map CloseTxRole.fromStr).getD .closing
    feeSats := (tx.lookup "feeSats").bind toU64OrNone
    confirmedAtHeight := readU32 (tx.lookup "confirmedAtHeight") }

def deserializeOutpoint (raw : Json) : Option CloseOutpoint := do
  let txo ← raw.asObject
  let txid ← readStr (txo.lookup "txid")
  let vout ← readU32 (txo.lookup "vout")
  some { txid := txid, vout := vout }

def deserializeTxs (raw : Option (List Json)) : List CloseRecordTx :=
  match raw with
  | some values => values.filterMap deserializeTx
  | none => []

def CloseType.fromStr : Option String → CloseType
  | some "coop" => .coop
  | some "force" => .force
  | _ => .unknown

def Initiator.fromStr : Option String → Initiator
  | some "local" => .local
  | some "remote" => .remote
  | _ => .unknown

def Resolution.fromStr : Option String → Option Resolution
  | some "verified" => some .verified
  | some "unverified" => some .unverified
  | _ => none

def deserializeCloseRecord (raw : Json) (nowMs : UInt64) : Option CloseRecord := do
  let obj ← raw.asObject
  let channelId ← readStr (obj.lookup "channelId")
  some {
    schemaVersion := ((obj.lookup "schemaVersion").bind Json.asU64).getD closeRecordSchemaVersion
    channelId := channelId
    fundingTxo := (obj.lookup "fundingTxo").bind deserializeOutpoint
    closeType := .fromStr (readStr (obj.lookup "closeType"))
    initiator := .fromStr (readStr (obj.lookup "initiator"))
    closureReason := readStr (obj.lookup "closureReason")
    txs := deserializeTxs ((obj.lookup "txs").bind Json.asArray)
    expectedAmountSats := (obj.lookup "expectedAmountSats").bind toU64OrNone
    timelockBlocks := readU32 (obj.lookup "timelockBlocks")
    claimableAtHeight := readU32 (obj.lookup "claimableAtHeight")
    createdAtMs := ((obj.lookup "createdAt").bind Json.asU64).getD nowMs
    completedAtMs := (obj.lookup "completedAt").bind Json.asU64
    resolution := Resolution.fromStr (readStr (obj.lookup "resolution"))
    extras := obj.filterKeys fun key => !knownRecordKeys.contains key }

abbrev Records := StringMap CloseRecord

def encodeRecordsMap (records : Records) : Json :=
  .ofMap (.ofPairs (records.toPairs.map fun entry => (entry.1, serializeCloseRecord entry.2)))

def decodeRecordsMap (raw : Json) (nowMs : UInt64) : Records :=
  match raw.asObject with
  | some obj => .ofPairs (obj.toPairs.filterMap fun entry =>
      (deserializeCloseRecord entry.2 nowMs).map fun record => (record.channelId, record))
  | none => ∅

/-! ## Reading a written record -/

/-- What the wire form can tell apart: no extra hides behind a known field, and no
role of a newer schema is spelled like a known one. -/
structure CloseRecord.Encodable (record : CloseRecord) : Prop where
  extras : ∀ key ∈ knownRecordKeys, record.extras.lookup key = none
  roles : ∀ tx ∈ record.txs, CloseTxRole.fromStr tx.role.asStr = tx.role

theorem lookup_insertOpt (m : JsonMap) (key k : String) (value : Option Json) :
    (insertOpt m key value).lookup k = if k = key then value.or (m.lookup k) else m.lookup k := by
  cases value with
  | none => simp [insertOpt]
  | some v => simp [insertOpt, StringMap.lookup_insert_eq]

@[simp] theorem readU32_some (value : UInt32) : readU32 (some (.ofU32 value)) = some value := by
  simp [readU32]

@[simp] theorem readU32_map (value : Option UInt32) : readU32 (value.map .ofU32) = value := by
  cases value <;> simp [readU32]

@[simp] theorem readStr_some (value : String) : readStr (some (.string value)) = some value := rfl

@[simp] theorem readStr_map (value : Option String) : readStr (value.map .string) = value := by
  cases value <;> rfl

@[simp] theorem toU64OrNone_map (value : Option UInt64) :
    ((value.map fun sats => Json.string (u64ToString sats)).bind toU64OrNone) = value := by
  cases value with
  | none => rfl
  | some sats =>
    rw [Option.map_some, Option.bind_some, toU64OrNone, if_neg (u64ToString_ne_empty sats),
      parseU64_u64ToString]

@[simp] theorem asU64_map (value : Option UInt64) : ((value.map Json.ofU64).bind Json.asU64) = value := by
  cases value <;> rfl

@[simp] theorem closeType_fromStr_asStr (t : CloseType) : CloseType.fromStr (some t.asStr) = t := by
  cases t <;> rfl

@[simp] theorem initiator_fromStr_asStr (i : Initiator) : Initiator.fromStr (some i.asStr) = i := by
  cases i <;> rfl

@[simp] theorem resolution_fromStr_asStr (r : Option Resolution) :
    Resolution.fromStr (readStr (r.map fun resolution => .string resolution.asStr)) = r := by
  rcases r with _ | _ | _ <;> rfl

theorem role_fromStr_canonical (role : String) :
    CloseTxRole.fromStr (CloseTxRole.fromStr role).asStr = CloseTxRole.fromStr role := by
  by_cases h : role = "closing" ∨ role = "commitment" ∨ role = "anchor_cpfp" ∨ role = "htlc_claim" ∨
      role = "sweep"
  · rcases h with rfl | rfl | rfl | rfl | rfl <;> rfl
  · simp only [not_or] at h
    have hOther : CloseTxRole.fromStr role = .other role := by
      unfold CloseTxRole.fromStr
      split <;> simp_all
    rw [hOther]
    exact hOther

@[simp] theorem deserializeOutpoint_serialize (txo : CloseOutpoint) :
    deserializeOutpoint (serializeOutpoint txo) = some txo := by
  simp [deserializeOutpoint, serializeOutpoint, StringMap.ofPairs]

@[simp] theorem deserializeOutpoint_map (txo : Option CloseOutpoint) :
    ((txo.map serializeOutpoint).bind deserializeOutpoint) = txo := by
  cases txo <;> simp

theorem deserializeTx_serialize (tx : CloseRecordTx) (h : CloseTxRole.fromStr tx.role.asStr = tx.role) :
    deserializeTx (serializeTx tx) = some tx := by
  simp [deserializeTx, serializeTx, lookup_insertOpt, h]

theorem deserializeTxs_serialize (txs : List CloseRecordTx)
    (h : ∀ tx ∈ txs, CloseTxRole.fromStr tx.role.asStr = tx.role) :
    deserializeTxs (some (txs.map serializeTx)) = txs := by
  rw [deserializeTxs, List.filterMap_map]
  induction txs with
  | nil => rfl
  | cons tx rest ih =>
    rw [List.forall_mem_cons] at h
    rw [List.filterMap_cons, Function.comp_apply, deserializeTx_serialize tx h.1, ih h.2]

theorem lookup_closeRecordMap_of_unknown (record : CloseRecord) (key : String)
    (h : key ∉ knownRecordKeys) : (closeRecordMap record).lookup key = record.extras.lookup key := by
  simp only [knownRecordKeys, List.mem_cons, List.not_mem_nil, or_false, not_or] at h
  simp [closeRecordMap, lookup_insertOpt, h]

theorem filterKeys_closeRecordMap (record : CloseRecord) (h : record.Encodable) :
    ((closeRecordMap record).filterKeys fun key => !knownRecordKeys.contains key) = record.extras := by
  apply Finmap.ext_lookup
  intro key
  rw [StringMap.lookup_filterKeys]
  by_cases hKnown : key ∈ knownRecordKeys
  · rw [if_neg (by simpa using hKnown), h.extras key hKnown]
  · rw [if_pos (by simpa using hKnown), lookup_closeRecordMap_of_unknown record key hKnown]

theorem deserializeCloseRecord_serialize (record : CloseRecord) (h : record.Encodable) (nowMs : UInt64) :
    deserializeCloseRecord (serializeCloseRecord record) nowMs = some record := by
  have hTxs := deserializeTxs_serialize record.txs h.roles
  have hField : ∀ key ∈ knownRecordKeys, record.extras.lookup key = none := h.extras
  simp only [knownRecordKeys, List.forall_mem_cons] at hField
  rw [deserializeCloseRecord, serializeCloseRecord, Json.asObject_ofMap, Option.bind_eq_bind,
    Option.bind_some, filterKeys_closeRecordMap record h]
  simp [closeRecordMap, lookup_insertOpt, hField, hTxs]

/-! ## Reading a written map -/

/-- A record sits under its own channel id. -/
def Keyed (records : Records) : Prop :=
  ∀ key record, records.lookup key = some record → record.channelId = key

def AllEncodable (records : Records) : Prop :=
  ∀ key record, records.lookup key = some record → record.Encodable

theorem deserializeCloseRecord_encodable {raw : Json} {nowMs : UInt64} {record : CloseRecord}
    (h : deserializeCloseRecord raw nowMs = some record) : record.Encodable := by
  rw [deserializeCloseRecord] at h
  obtain ⟨obj, _, h⟩ := Option.bind_eq_some_iff.mp h
  obtain ⟨channelId, _, h⟩ := Option.bind_eq_some_iff.mp h
  cases h
  constructor
  · intro key hKey
    rw [StringMap.lookup_filterKeys, if_neg (by simpa using hKey)]
  · intro tx hTx
    unfold deserializeTxs at hTx
    split at hTx
    · obtain ⟨rawTx, _, hTx⟩ := List.mem_filterMap.mp hTx
      obtain ⟨txObj, _, hTx⟩ := Option.bind_eq_some_iff.mp hTx
      obtain ⟨txid, _, hTx⟩ := Option.bind_eq_some_iff.mp hTx
      cases hTx
      cases readStr (txObj.lookup "role") with
      | none => rfl
      | some role => exact role_fromStr_canonical role
    · cases hTx

theorem mem_of_lookup_decode {raw : Json} {nowMs : UInt64} {key : String} {record : CloseRecord}
    (h : (decodeRecordsMap raw nowMs).lookup key = some record) :
    record.channelId = key ∧ ∃ value, deserializeCloseRecord value nowMs = some record := by
  unfold decodeRecordsMap at h
  split at h
  · obtain ⟨entry, _, hEntry⟩ := List.mem_filterMap.mp (StringMap.mem_of_lookup_ofPairs h)
    obtain ⟨record', hRecord, hPair⟩ := Option.map_eq_some_iff.mp hEntry
    cases hPair
    exact ⟨rfl, entry.2, hRecord⟩
  · cases h

theorem decodeRecordsMap_keyed (raw : Json) (nowMs : UInt64) : Keyed (decodeRecordsMap raw nowMs) :=
  fun _ _ h => (mem_of_lookup_decode h).1

theorem decodeRecordsMap_encodable (raw : Json) (nowMs : UInt64) : AllEncodable (decodeRecordsMap raw nowMs) := by
  intro key record h
  obtain ⟨_, value, hValue⟩ := mem_of_lookup_decode h
  exact deserializeCloseRecord_encodable hValue

theorem lookup_encodeRecordsMap (records : Records) (key : String) (value : Json) :
    (StringMap.ofPairs (records.toPairs.map fun entry => (entry.1, serializeCloseRecord entry.2))).lookup key =
      some value ↔ ∃ record, records.lookup key = some record ∧ value = serializeCloseRecord record := by
  rw [StringMap.lookup_ofPairs]
  · constructor
    · intro h
      obtain ⟨⟨key', record⟩, hMem, hPair⟩ := List.mem_map.mp h
      cases hPair
      exact ⟨record, (StringMap.mem_toPairs _ _ _).mp hMem, rfl⟩
    · rintro ⟨record, hRecord, rfl⟩
      exact List.mem_map.mpr ⟨(key, record), (StringMap.mem_toPairs _ _ _).mpr hRecord, rfl⟩
  · rw [List.map_map]
    exact records.toPairs_keys_nodup

/-- A written map reads back exactly. -/
theorem decodeRecordsMap_encode (records : Records) (hKeyed : Keyed records)
    (hEncodable : AllEncodable records) (nowMs : UInt64) :
    decodeRecordsMap (encodeRecordsMap records) nowMs = records := by
  rw [encodeRecordsMap]
  generalize hObj : StringMap.ofPairs (records.toPairs.map fun entry =>
    (entry.1, serializeCloseRecord entry.2)) = obj
  have hLookup : ∀ key value, obj.lookup key = some value ↔
      ∃ record, records.lookup key = some record ∧ value = serializeCloseRecord record := by
    intro key value
    rw [← hObj]
    exact lookup_encodeRecordsMap records key value
  have hEntry : ∀ entry ∈ obj.toPairs, ∃ record, records.lookup entry.1 = some record ∧
      ((deserializeCloseRecord entry.2 nowMs).map fun record => (record.channelId, record)) =
        some (entry.1, record) := by
    intro entry hMem
    obtain ⟨record, hRecord, hValue⟩ := (hLookup _ _).mp ((StringMap.mem_toPairs _ _ _).mp hMem)
    refine ⟨record, hRecord, ?_⟩
    rw [hValue, deserializeCloseRecord_serialize record (hEncodable _ _ hRecord),
      Option.map_some, hKeyed _ _ hRecord]
  apply Finmap.ext_lookup
  intro key
  apply Option.ext
  intro record
  rw [decodeRecordsMap, Json.asObject_ofMap]
  simp only []
  rw [StringMap.lookup_ofPairs, List.mem_filterMap]
  · constructor
    · rintro ⟨entry, hMem, hDecoded⟩
      obtain ⟨record', hRecord', hDecoded'⟩ := hEntry entry hMem
      rw [hDecoded'] at hDecoded
      cases hDecoded
      exact hRecord'
    · intro hRecord
      have hMem : (key, serializeCloseRecord record) ∈ obj.toPairs :=
        (StringMap.mem_toPairs _ _ _).mpr ((hLookup _ _).mpr ⟨record, hRecord, rfl⟩)
      obtain ⟨record', hRecord', hDecoded⟩ := hEntry _ hMem
      rw [hRecord] at hRecord'
      cases hRecord'
      exact ⟨_, hMem, hDecoded⟩
  · -- Every entry decodes under its own key, so the decoded keys are those of the object.
    rw [StringMap.map_fst_filterMap fun entry hMem => (hEntry entry hMem).imp fun _ => And.right]
    exact obj.toPairs_keys_nodup

theorem mergeCloseRecords_encodable {base incoming : CloseRecord} (hBase : base.Encodable)
    (hIncoming : incoming.Encodable) : (mergeCloseRecords base incoming).Encodable where
  extras key hKey := by
    rw [show (mergeCloseRecords base incoming).extras = base.extras ∪ incoming.extras from rfl,
      Finmap.lookup_union_right (Finmap.lookup_eq_none.mp (hBase.extras key hKey))]
    exact hIncoming.extras key hKey
  roles := mergeTxs_forall (fun _ _ _ hExisting _ => hExisting) hBase.roles hIncoming.roles

theorem skeleton_encodable {record : CloseRecord} (hExtras : record.extras = ∅)
    (hRoles : ∀ tx ∈ record.txs, CloseTxRole.fromStr tx.role.asStr = tx.role) : record.Encodable where
  extras key _ := by
    rw [hExtras]
    exact Finmap.lookup_empty key
  roles := hRoles

/-! ## The funding-txo map -/

/-- Safety-net entry, captured while the channel is open. -/
structure FundingTxoEntry where
  txid : String
  vout : UInt32
  timelockBlocks : Option UInt32
deriving DecidableEq, Repr

abbrev FundingTxos := StringMap FundingTxoEntry

def serializeFundingTxo (entry : FundingTxoEntry) : Json :=
  let m : JsonMap := .ofPairs [("txid", .string entry.txid), ("vout", .ofU32 entry.vout)]
  .ofMap (insertOpt m "timelockBlocks" (entry.timelockBlocks.map .ofU32))

/-- The derived reader of a `u32`: out of range is an error, never a cut. -/
def exactU32 (value : Json) : Option UInt32 :=
  value.asU64.bind fun n => if n.toNat < UInt32.size then some n.toUInt32 else none

def readTimelockBlocks : Option Json → Option (Option UInt32)
  | none | some .null => some none
  | some value => (exactU32 value).map some

def deserializeFundingTxo (raw : Json) : Option FundingTxoEntry := do
  let obj ← raw.asObject
  let txid ← readStr (obj.lookup "txid")
  let vout ← (obj.lookup "vout").bind exactU32
  let timelockBlocks ← readTimelockBlocks (obj.lookup "timelockBlocks")
  some { txid := txid, vout := vout, timelockBlocks := timelockBlocks }

def encodeFundingTxos (fundingTxos : FundingTxos) : Json :=
  .ofMap (.ofPairs (fundingTxos.toPairs.map fun entry => (entry.1, serializeFundingTxo entry.2)))

/-- One malformed entry rejects the whole map. -/
def decodeFundingTxos (raw : Json) : Option FundingTxos := do
  let obj ← raw.asObject
  let entries ← obj.toPairs.mapM fun entry => (deserializeFundingTxo entry.2).map fun txo => (entry.1, txo)
  some (.ofPairs entries)

@[simp] theorem exactU32_ofU32 (value : UInt32) : exactU32 (.ofU32 value) = some value := by
  have hLt : value.toUInt64.toNat < UInt32.size := by
    rw [UInt32.toNat_toUInt64]
    exact value.toNat_lt
  rw [exactU32, Json.asU64_ofU32, Option.bind_some, if_pos hLt, UInt32.toUInt32_toUInt64]

@[simp] theorem readTimelockBlocks_map (value : Option UInt32) :
    readTimelockBlocks (value.map .ofU32) = some value := by
  cases value with
  | none => rfl
  | some value => exact congrArg (Option.map some) (exactU32_ofU32 value)

@[simp] theorem deserializeFundingTxo_serialize (entry : FundingTxoEntry) :
    deserializeFundingTxo (serializeFundingTxo entry) = some entry := by
  simp [deserializeFundingTxo, serializeFundingTxo, lookup_insertOpt, StringMap.ofPairs]

theorem decodeFundingTxos_encode (fundingTxos : FundingTxos) :
    decodeFundingTxos (encodeFundingTxos fundingTxos) = some fundingTxos := by
  have hEntries : ∀ entries : List (String × FundingTxoEntry),
      (entries.map fun entry => (entry.1, serializeFundingTxo entry.2)).mapM
        (fun entry => (deserializeFundingTxo entry.2).map fun txo => (entry.1, txo)) = some entries := by
    intro entries
    induction entries with
    | nil => rfl
    | cons entry rest ih => simp [ih]
  rw [decodeFundingTxos, encodeFundingTxos, Json.asObject_ofMap, Option.bind_eq_bind, Option.bind_some,
    StringMap.toPairs_ofPairs_map, hEntries, Option.bind_eq_bind, Option.bind_some, StringMap.ofPairs_toPairs]

end WalletCore.CloseRecords
