import WalletCore.CloseRecords.MergeAlgebra
import WalletCore.CloseRecords.Codec

/-! # What survives on the shared key

Another version of the app reads and writes the same records. What this version does not know of a
record, a top-level field or the role of a transaction, goes through decoding, a merge and encoding
unchanged, unless the merge finds its transaction already recorded.
-/

namespace WalletCore.CloseRecords

open Lib

/-! ## The wire form of one record -/

def HasField (raw : Json) (key : String) (value : Json) : Prop :=
  ∃ obj, raw.asObject = some obj ∧ obj.lookup key = some value

/-- An entry of the transactions has this txid and this role, as text. -/
def HasRole (raw : Json) (txid role : String) : Prop :=
  ∃ entries entry, HasField raw "txs" (.array entries) ∧ entry ∈ entries ∧ HasField entry "txid" (.string txid) ∧
    HasField entry "role" (.string role)

theorem serialized_field (record : CloseRecord) {key : String} {value : Json} (hUnknown : key ∉ knownRecordKeys)
    (h : record.extras.lookup key = some value) : HasField (serializeCloseRecord record) key value := by
  refine ⟨closeRecordMap record, Json.asObject_ofMap _, ?_⟩
  rw [lookup_closeRecordMap_of_unknown record key hUnknown, h]

theorem serialized_role (record : CloseRecord) {tx : CloseRecordTx} (hTx : tx ∈ record.txs) :
    HasRole (serializeCloseRecord record) tx.txid tx.role.asStr := by
  refine ⟨record.txs.map serializeTx, serializeTx tx, ?_, List.mem_map_of_mem hTx, ?_, ?_⟩
  · exact ⟨closeRecordMap record, Json.asObject_ofMap _, by simp [closeRecordMap, lookup_insertOpt]⟩
  · exact ⟨_, Json.asObject_ofMap _, by simp [lookup_insertOpt]⟩
  · exact ⟨_, Json.asObject_ofMap _, by simp [lookup_insertOpt]⟩

theorem deserialized_field {raw value : Json} {key : String} {nowMs : UInt64} {record : CloseRecord}
    (h : deserializeCloseRecord raw nowMs = some record) (hUnknown : key ∉ knownRecordKeys)
    (hField : HasField raw key value) : record.extras.lookup key = some value := by
  obtain ⟨obj, hObj, hValue⟩ := hField
  rw [deserializeCloseRecord, hObj, Option.bind_eq_bind, Option.bind_some] at h
  obtain ⟨channelId, _, h⟩ := Option.bind_eq_some_iff.mp h
  cases h
  rw [StringMap.lookup_filterKeys, if_pos (by simpa using hUnknown), hValue]

theorem deserialized_role {raw : Json} {txid role : String} {nowMs : UInt64} {record : CloseRecord}
    (h : deserializeCloseRecord raw nowMs = some record) (hRole : HasRole raw txid role) :
    ∃ tx ∈ record.txs, tx.txid = txid ∧ tx.role = CloseTxRole.fromStr role := by
  obtain ⟨entries, entry, ⟨obj, hObj, hTxs⟩, hEntry, ⟨tx, hTx, hTxid⟩, ⟨tx', hTx', hText⟩⟩ := hRole
  cases hTx.symm.trans hTx'
  have hDecoded : ∃ decoded, deserializeTx entry = some decoded ∧ decoded.txid = txid ∧
      decoded.role = CloseTxRole.fromStr role := by
    rw [deserializeTx, hTx, Option.bind_eq_bind, Option.bind_some, hTxid, hText]
    exact ⟨_, rfl, rfl, rfl⟩
  obtain ⟨decoded, hDecoded, hDecodedTxid, hDecodedRole⟩ := hDecoded
  rw [deserializeCloseRecord, hObj, Option.bind_eq_bind, Option.bind_some] at h
  obtain ⟨channelId, _, h⟩ := Option.bind_eq_some_iff.mp h
  cases h
  refine ⟨decoded, ?_, hDecodedTxid, hDecodedRole⟩
  simp only [hTxs, Option.bind_some, Json.asArray_array, deserializeTxs]
  exact List.mem_filterMap.mpr ⟨entry, hEntry, hDecoded⟩

/-! ## Through a merge -/

theorem mergeCloseRecords_field_base {base incoming : CloseRecord} {key : String} {value : Json}
    (h : base.extras.lookup key = some value) : (mergeCloseRecords base incoming).extras.lookup key = some value :=
  lookup_union_keeps base.extras incoming.extras key value h

theorem mergeCloseRecords_field_incoming {base incoming : CloseRecord} {key : String}
    (h : base.extras.lookup key = none) :
    (mergeCloseRecords base incoming).extras.lookup key = incoming.extras.lookup key :=
  Finmap.lookup_union_right (Finmap.lookup_eq_none.mp h)

theorem mergeTxs_role_base {base : List CloseRecordTx} (incoming : List CloseRecordTx) {tx : CloseRecordTx} (hTx : tx ∈ base) :
    ∃ tx' ∈ mergeTxs base incoming, tx'.txid = tx.txid ∧ tx'.role = tx.role := by
  obtain ⟨i, hi⟩ := List.mem_iff_getElem?.mp hTx
  obtain ⟨tx', hTx', hKeeps⟩ := mergeTxs_keeps base incoming i tx hi
  exact ⟨tx', List.mem_iff_getElem?.mpr ⟨i, hTx'⟩, hKeeps.txid, hKeeps.role⟩

theorem mergeTxs_role_incoming {base incoming : List CloseRecordTx} {tx : CloseRecordTx} (hTx : tx ∈ incoming)
    (hNew : tx.txid ∉ base.map CloseRecordTx.txid) (hSame : ∀ other ∈ incoming, other.txid = tx.txid → other.role = tx.role) :
    ∃ tx' ∈ mergeTxs base incoming, tx'.txid = tx.txid ∧ tx'.role = tx.role := by
  have hMem : tx.txid ∈ (mergeTxs base incoming).map CloseRecordTx.txid :=
    (mem_txids_mergeTxs base incoming tx.txid).mpr (.inr (List.mem_map_of_mem hTx))
  have hRoles : ∀ other ∈ mergeTxs base incoming, other.txid = tx.txid → other.role = tx.role := by
    refine mergeTxs_forall ?_ ?_ hSame
    · intro existing other _ hExisting _
      exact hExisting
    · intro other hOther hTxid
      exact absurd (hTxid ▸ List.mem_map_of_mem hOther) hNew
  obtain ⟨tx', hTx', hTxid⟩ := List.mem_map.mp hMem
  exact ⟨tx', hTx', hTxid, hRoles tx' hTx' hTxid⟩

theorem serialized_of_role {record : CloseRecord} {txid role : String}
    (h : ∃ tx ∈ record.txs, tx.txid = txid ∧ tx.role = .other role) : HasRole (serializeCloseRecord record) txid role := by
  obtain ⟨tx, hTx, rfl, hRole⟩ := h
  have hWritten := serialized_role record hTx
  rw [hRole] at hWritten
  exact hWritten

/-- A written map reads back, what was read once is read the same again, and unknown fields and roles go
through decoding, a merge and encoding. As the incoming side of a merge a role needs its transaction to be
new to the base. -/
theorem codec_laws :
    (∀ records nowMs, Keyed records → AllEncodable records →
      decodeRecordsMap (encodeRecordsMap records) nowMs = records) ∧
    (∀ raw nowMs, decodeRecordsMap (encodeRecordsMap (decodeRecordsMap raw nowMs)) nowMs = decodeRecordsMap raw nowMs) ∧
    (∀ raw nowMs record key value, deserializeCloseRecord raw nowMs = some record → key ∉ knownRecordKeys →
      HasField raw key value → ∀ other : CloseRecord, other.extras.lookup key = none →
      HasField (serializeCloseRecord (mergeCloseRecords record other)) key value ∧
      HasField (serializeCloseRecord (mergeCloseRecords other record)) key value) ∧
    (∀ raw nowMs record txid role, deserializeCloseRecord raw nowMs = some record →
      CloseTxRole.fromStr role = .other role → HasRole raw txid role →
      (∃ tx ∈ record.txs, tx.txid = txid ∧ tx.role = .other role) ∧
      (∀ other, HasRole (serializeCloseRecord (mergeCloseRecords record other)) txid role) ∧
      ∀ other : CloseRecord, txid ∉ other.txs.map CloseRecordTx.txid →
        (∀ tx ∈ record.txs, tx.txid = txid → tx.role = .other role) →
        HasRole (serializeCloseRecord (mergeCloseRecords other record)) txid role) := by
  refine ⟨?_, ?_, ?_, ?_⟩
  · intro records nowMs hKeyed hEncodable
    exact decodeRecordsMap_encode records hKeyed hEncodable nowMs
  · intro raw nowMs
    exact decodeRecordsMap_encode _ (decodeRecordsMap_keyed raw nowMs) (decodeRecordsMap_encodable raw nowMs) nowMs
  · intro raw nowMs record key value hDecoded hUnknown hField other hLacks
    have hRead := deserialized_field hDecoded hUnknown hField
    exact ⟨serialized_field _ hUnknown (mergeCloseRecords_field_base hRead),
      serialized_field _ hUnknown ((mergeCloseRecords_field_incoming hLacks).trans hRead)⟩
  · intro raw nowMs record txid role hDecoded hUnknown hRole
    obtain ⟨tx, hTx, rfl, hText⟩ := deserialized_role hDecoded hRole
    rw [hUnknown] at hText
    refine ⟨⟨tx, hTx, rfl, hText⟩, ?_, ?_⟩
    · intro other
      have hBase := mergeTxs_role_base other.txs hTx
      rw [hText] at hBase
      exact serialized_of_role hBase
    · intro other hNew hOnly
      have hSame : ∀ entry ∈ record.txs, entry.txid = tx.txid → entry.role = tx.role := by
        intro entry hEntry hTxid
        rw [hOnly entry hEntry hTxid, hText]
      have hIncoming := mergeTxs_role_incoming hTx hNew hSame
      rw [hText] at hIncoming
      exact serialized_of_role hIncoming

/-! ## A record of a newer version -/

def newerFacts : CloseRecord :=
  { CloseRecord.skeleton "c" 0 with
    txs := [{ txid := "t", role := .other "splice_out", feeSats := none, confirmedAtHeight := none }]
    extras := .singleton "penalty" (.bool true) }

/-- The same transaction under a role that both versions know. -/
def knownTx : CloseRecord :=
  { CloseRecord.skeleton "c" 0 with
    txs := [{ txid := "t", role := .closing, feeSats := none, confirmedAtHeight := none }] }

/-- A role of a newer version, spelled like one that this version knows. -/
def disguisedRole : CloseRecord :=
  { CloseRecord.skeleton "c" 0 with
    txs := [{ txid := "t", role := .other "sweep", feeSats := none, confirmedAtHeight := none }] }

theorem newerFacts_encodable : newerFacts.Encodable where
  extras := by
    intro key hKey
    have hOther : key ≠ "penalty" := by
      rintro rfl
      revert hKey
      decide
    exact Finmap.lookup_eq_none.mpr fun hMem => hOther ((Finmap.mem_singleton _ _ _).mp hMem)
  roles := by
    intro tx hTx
    rw [List.mem_singleton.mp hTx]
    rfl

theorem newerFacts_read : deserializeCloseRecord (serializeCloseRecord newerFacts) 0 = some newerFacts :=
  deserializeCloseRecord_serialize newerFacts newerFacts_encodable 0

theorem newerFacts_field : HasField (serializeCloseRecord newerFacts) "penalty" (.bool true) :=
  serialized_field newerFacts (by decide) Finmap.lookup_singleton_eq

theorem newerFacts_role : HasRole (serializeCloseRecord newerFacts) "t" "splice_out" :=
  serialized_role newerFacts (List.mem_singleton_self _)

theorem newerFacts_only {key : String} {record : CloseRecord}
    (h : (Finmap.singleton "c" newerFacts : Records).lookup key = some record) : key = "c" ∧ record = newerFacts := by
  have hKey : key = "c" := (Finmap.mem_singleton _ _ _).mp (Finmap.mem_of_lookup_eq_some h)
  subst hKey
  rw [Finmap.lookup_singleton_eq] at h
  exact ⟨rfl, (Option.some.inj h).symm⟩

theorem newerFacts_survive :
    decodeRecordsMap (encodeRecordsMap (.singleton "c" newerFacts)) 0 = .singleton "c" newerFacts ∧
    HasField (serializeCloseRecord (mergeCloseRecords (CloseRecord.skeleton "c" 1) newerFacts)) "penalty" (.bool true) ∧
    HasRole (serializeCloseRecord (mergeCloseRecords newerFacts knownTx)) "t" "splice_out" ∧
    HasRole (serializeCloseRecord (mergeCloseRecords (CloseRecord.skeleton "c" 1) newerFacts)) "t" "splice_out" := by
  obtain ⟨hMap, -, hFields, hRoles⟩ := codec_laws
  have hField := hFields _ 0 newerFacts "penalty" (.bool true) newerFacts_read (by decide) newerFacts_field
  obtain ⟨-, hBase, hIncoming⟩ := hRoles _ 0 newerFacts "t" "splice_out" newerFacts_read rfl newerFacts_role
  refine ⟨?_, (hField (CloseRecord.skeleton "c" 1) (Finmap.lookup_empty _)).2, hBase knownTx, ?_⟩
  · apply hMap
    · intro key record hRecord
      obtain ⟨rfl, rfl⟩ := newerFacts_only hRecord
      rfl
    · intro key record hRecord
      obtain ⟨-, rfl⟩ := newerFacts_only hRecord
      exact newerFacts_encodable
  · refine hIncoming (CloseRecord.skeleton "c" 1) List.not_mem_nil ?_
    intro tx hTx _
    rw [List.mem_singleton.mp hTx]

/-- An unknown role that is spelled like a known one is read as that one; and a role gives way to the one
that the base of a merge has for the transaction. -/
theorem role_lost :
    (disguisedRole.channelId = "c" ∧ disguisedRole.extras = ∅ ∧
      decodeRecordsMap (encodeRecordsMap (.singleton "c" disguisedRole)) 0 ≠ .singleton "c" disguisedRole) ∧
    deserializeCloseRecord (serializeCloseRecord newerFacts) 0 = some newerFacts ∧
    HasRole (serializeCloseRecord newerFacts) "t" "splice_out" ∧
    (∀ tx ∈ knownTx.txs, tx.role ≠ .other "splice_out") ∧
    ¬ HasRole (serializeCloseRecord (mergeCloseRecords knownTx newerFacts)) "t" "splice_out" := by
  refine ⟨⟨rfl, rfl, ?_⟩, newerFacts_read, newerFacts_role, ?_, ?_⟩
  · intro hSame
    have hAll := decodeRecordsMap_encodable (encodeRecordsMap (.singleton "c" disguisedRole)) 0
    rw [hSame] at hAll
    have hRole := (hAll "c" disguisedRole Finmap.lookup_singleton_eq).roles _ (List.mem_singleton_self _)
    cases hRole
  · intro tx hTx
    rw [List.mem_singleton.mp hTx]
    intro hSame
    cases hSame
  · intro hRole
    have hKnown : knownTx.Encodable := skeleton_encodable rfl fun tx hTx => by rw [List.mem_singleton.mp hTx]; rfl
    have hMerged := mergeCloseRecords_encodable hKnown newerFacts_encodable
    obtain ⟨tx, hTx, -, hText⟩ := deserialized_role (deserializeCloseRecord_serialize _ hMerged 0) hRole
    rw [List.mem_singleton.mp hTx] at hText
    cases hText

end WalletCore.CloseRecords
