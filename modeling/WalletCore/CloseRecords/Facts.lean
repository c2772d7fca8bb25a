import WalletCore.CloseRecords.LocalMirror

/-! # The facts of a records map

A fact says that something is known of a channel's close: that a transaction belongs to it,
that a fee, a height or another set-once field is set, or that the resolution is verified.
Which value is set is no fact, since a merge prefers the value of its base.
-/

namespace WalletCore.CloseRecords

open Lib

inductive Known where
  | tx (txid : String)
  | feeSats (txid : String)
  | confirmedAtHeight (txid : String)
  | fundingTxo
  | closureReason
  | timelockBlocks
  | completedAtMs
  | verified
deriving DecidableEq

structure Fact where
  channelId : String
  known : Known
deriving DecidableEq

def knownIf (known : Known) (holds : Bool) : List Known := if holds then [known] else []

def CloseRecordTx.facts (tx : CloseRecordTx) : List Known :=
  .tx tx.txid :: (knownIf (.feeSats tx.txid) tx.feeSats.isSome ++
    knownIf (.confirmedAtHeight tx.txid) tx.confirmedAtHeight.isSome)

def txsFacts (txs : List CloseRecordTx) : List Known := txs.flatMap CloseRecordTx.facts

def CloseRecord.facts (record : CloseRecord) : List Known :=
  txsFacts record.txs ++ knownIf .fundingTxo record.fundingTxo.isSome ++
    knownIf .closureReason record.closureReason.isSome ++ knownIf .timelockBlocks record.timelockBlocks.isSome ++
    knownIf .completedAtMs record.completedAtMs.isSome ++ knownIf .verified (record.resolution == some .verified)

def facts (records : Records) : Finset Fact :=
  (records.toPairs.flatMap fun entry => entry.2.facts.map (Fact.mk entry.1)).toFinset

theorem mem_facts (records : Records) (fact : Fact) :
    fact ∈ facts records ↔ ∃ record, records.lookup fact.channelId = some record ∧ fact.known ∈ record.facts := by
  obtain ⟨channelId, known⟩ := fact
  simp only [facts, List.mem_toFinset, List.mem_flatMap, List.mem_map, Fact.mk.injEq]
  constructor
  · rintro ⟨entry, hEntry, known, hKnown, rfl, rfl⟩
    exact ⟨entry.2, (StringMap.mem_toPairs _ _ _).mp hEntry, hKnown⟩
  · rintro ⟨record, hRecord, hKnown⟩
    exact ⟨(channelId, record), (StringMap.mem_toPairs _ _ _).mpr hRecord, known, hKnown, rfl, rfl⟩

/-! ## Facts grow with the map -/

theorem SetOnce.isSome {α : Type} {old new : Option α} (h : SetOnce old new) (hOld : old.isSome) : new.isSome := by
  obtain ⟨v, hv⟩ := Option.isSome_iff_exists.mp hOld
  rw [h v hv]
  rfl

theorem knownIf_subset {known : Known} {old new : Bool} (h : old = true → new = true) :
    knownIf known old ⊆ knownIf known new := by
  cases old with
  | false => exact List.nil_subset _
  | true =>
    rw [h rfl]
    exact List.Subset.refl _

theorem CloseRecordTx.Keeps.facts_subset {old new : CloseRecordTx} (h : old.Keeps new) : old.facts ⊆ new.facts := by
  rw [CloseRecordTx.facts, CloseRecordTx.facts, h.txid]
  refine List.cons_subset_cons _ (List.append_subset.mpr ⟨?_, ?_⟩)
  · exact List.subset_append_of_subset_left _ (knownIf_subset h.feeSats.isSome)
  · exact List.subset_append_of_subset_right _ (knownIf_subset h.confirmedAtHeight.isSome)

theorem TxsKept.facts_subset {old new : List CloseRecordTx} (h : TxsKept old new) : txsFacts old ⊆ txsFacts new := by
  intro known hKnown
  obtain ⟨tx, hMem, hTx⟩ := List.mem_flatMap.mp hKnown
  obtain ⟨i, hi⟩ := List.mem_iff_getElem?.mp hMem
  obtain ⟨tx', hi', hKeeps⟩ := h i tx hi
  exact List.mem_flatMap.mpr ⟨tx', List.mem_of_getElem? hi', hKeeps.facts_subset hTx⟩

/-- Field by field: what two records must share for the facts of one to be facts of the other. -/
theorem CloseRecord.facts_subset {old new : CloseRecord} (hTxs : txsFacts old.txs ⊆ txsFacts new.txs)
    (hFunding : old.fundingTxo.isSome → new.fundingTxo.isSome)
    (hReason : old.closureReason.isSome → new.closureReason.isSome)
    (hTimelock : old.timelockBlocks.isSome → new.timelockBlocks.isSome)
    (hCompleted : old.completedAtMs.isSome → new.completedAtMs.isSome)
    (hVerified : old.resolution = some .verified → new.resolution = some .verified) : old.facts ⊆ new.facts := by
  intro known hKnown
  simp only [CloseRecord.facts, List.mem_append] at hKnown ⊢
  rcases hKnown with ((((h | h) | h) | h) | h) | h
  · exact .inl (.inl (.inl (.inl (.inl (hTxs h)))))
  · exact .inl (.inl (.inl (.inl (.inr (knownIf_subset hFunding h)))))
  · exact .inl (.inl (.inl (.inr (knownIf_subset hReason h))))
  · exact .inl (.inl (.inr (knownIf_subset hTimelock h)))
  · exact .inl (.inr (knownIf_subset hCompleted h))
  · exact .inr (knownIf_subset (by simpa using hVerified) h)

theorem CloseRecord.Keeps.facts_subset {old new : CloseRecord} (h : old.Keeps new) : old.facts ⊆ new.facts :=
  CloseRecord.facts_subset h.txs.facts_subset h.fundingTxo.isSome h.closureReason.isSome h.timelockBlocks.isSome
    h.completedAtMs.isSome h.verified

theorem RecordsKept.facts_le {old new : Records} (h : RecordsKept old new) : facts old ≤ facts new := by
  intro fact hFact
  obtain ⟨record, hRecord, hKnown⟩ := (mem_facts old fact).mp hFact
  obtain ⟨record', hRecord', hKeeps⟩ := h _ record hRecord
  exact (mem_facts new fact).mpr ⟨record', hRecord', hKeeps.facts_subset hKnown⟩

/-! ## A merge gains the facts of both sides -/

theorem fillTx_facts (existing tx : CloseRecordTx) (hId : existing.txid = tx.txid) :
    tx.facts ⊆ (fillTx existing tx).facts := by
  have hOr : ∀ {α : Type} (a b : Option α), b.isSome → (a.or b).isSome := by
    intro α a b hSome
    rw [Option.isSome_or, hSome, Bool.or_true]
  rw [CloseRecordTx.facts, CloseRecordTx.facts, fillTx, hId]
  refine List.cons_subset_cons _ (List.append_subset.mpr ⟨?_, ?_⟩)
  · exact List.subset_append_of_subset_left _ (knownIf_subset (hOr _ _))
  · exact List.subset_append_of_subset_right _ (knownIf_subset (hOr _ _))

theorem mergeTx_facts (txs : List CloseRecordTx) (tx : CloseRecordTx) : tx.facts ⊆ txsFacts (mergeTx txs tx) := by
  induction txs with
  | nil =>
    rw [mergeTx, txsFacts, List.flatMap_singleton]
    exact List.Subset.refl _
  | cons existing rest ih =>
    rw [mergeTx]
    split
    · rename_i hId
      rw [txsFacts, List.flatMap_cons]
      exact List.subset_append_of_subset_left _ (fillTx_facts existing tx hId)
    · rw [txsFacts, List.flatMap_cons]
      exact List.subset_append_of_subset_right _ ih

theorem mergeTxs_facts (base incoming : List CloseRecordTx) : txsFacts incoming ⊆ txsFacts (mergeTxs base incoming) := by
  induction incoming generalizing base with
  | nil => exact List.nil_subset _
  | cons tx rest ih =>
    rw [txsFacts, List.flatMap_cons]
    refine List.append_subset.mpr ⟨?_, ih (mergeTx base tx)⟩
    exact List.Subset.trans (mergeTx_facts base tx) (mergeTxs_keeps _ rest).facts_subset

theorem mergeCloseRecords_facts (base incoming : CloseRecord) :
    incoming.facts ⊆ (mergeCloseRecords base incoming).facts := by
  have hOr : ∀ {α : Type} (a b : Option α), b.isSome → (a.or b).isSome := by
    intro α a b hSome
    rw [Option.isSome_or, hSome, Bool.or_true]
  refine CloseRecord.facts_subset (mergeTxs_facts base.txs incoming.txs) (hOr _ _) (hOr _ _) (hOr _ _) (hOr _ _) ?_
  intro hVerified
  rw [mergeCloseRecords, mergeResolution, if_pos (Or.inr hVerified)]

theorem mergeInto_facts (records : Records) (channelId : String) (incoming : CloseRecord) {known : Known}
    (hKnown : known ∈ incoming.facts) : ⟨channelId, known⟩ ∈ facts (mergeInto records channelId incoming) := by
  rw [mem_facts, mergeInto, StringMap.lookup_insert_eq, if_pos rfl]
  refine ⟨_, rfl, ?_⟩
  split
  · exact mergeCloseRecords_facts _ incoming hKnown
  · exact hKnown

theorem foldl_mergeInto_facts (entries : List (String × CloseRecord)) (records : Records)
    {entry : String × CloseRecord} (hEntry : entry ∈ entries) {known : Known} (hKnown : known ∈ entry.2.facts) :
    ⟨entry.1, known⟩ ∈ facts (entries.foldl (fun acc entry => mergeInto acc entry.1 entry.2) records) := by
  induction entries generalizing records with
  | nil => cases hEntry
  | cons first rest ih =>
    rcases List.mem_cons.mp hEntry with rfl | hRest
    · have hKept := recordsKept_foldl (fun acc => acc)
        (fun acc (entry : String × CloseRecord) => mergeInto acc entry.1 entry.2)
        (fun acc entry => mergeInto_kept acc entry.1 entry.2) rest (mergeInto records entry.1 entry.2)
      exact hKept.facts_le (mergeInto_facts records entry.1 entry.2 hKnown)
    · exact ih _ hRest

theorem facts_mergeMapInto (records remote : Records) : facts records ⊔ facts remote ≤ facts (mergeMapInto records remote) := by
  refine sup_le (mergeMapInto_kept records remote).facts_le ?_
  intro fact hFact
  obtain ⟨record, hRecord, hKnown⟩ := (mem_facts remote fact).mp hFact
  exact foldl_mergeInto_facts _ records ((StringMap.mem_toPairs _ _ _).mpr hRecord) hKnown

/-! ## Facts on the wire -/

def wireFacts (bytes : Bytes) : Finset Fact := facts (CloseRecordStore.remoteMap bytes 0)

theorem deserializeCloseRecord_facts (raw : Json) (nowMs nowMs' : UInt64) :
    ((deserializeCloseRecord raw nowMs).map fun record => (record.channelId, record.facts)) =
      (deserializeCloseRecord raw nowMs').map fun record => (record.channelId, record.facts) := by
  rw [deserializeCloseRecord, deserializeCloseRecord]
  cases raw.asObject with
  | none => rfl
  | some obj => cases h : readStr (obj.lookup "channelId") <;> simp [h, CloseRecord.facts]

theorem lookup_decodeRecordsMap_facts (raw : Json) (nowMs nowMs' : UInt64) (channelId : String) :
    ((decodeRecordsMap raw nowMs).lookup channelId).map CloseRecord.facts =
      ((decodeRecordsMap raw nowMs').lookup channelId).map CloseRecord.facts := by
  rw [decodeRecordsMap, decodeRecordsMap]
  cases raw.asObject with
  | none => rfl
  | some obj =>
    simp only [← StringMap.lookup_ofPairs_map, List.map_filterMap, Option.map_map, Function.comp_def]
    congr 3
    funext entry
    exact deserializeCloseRecord_facts entry.2 nowMs nowMs'

/-- The clock dates records; it adds no fact. -/
theorem facts_remoteMap (bytes : Bytes) (nowMs : UInt64) :
    facts (CloseRecordStore.remoteMap bytes nowMs) = wireFacts bytes := by
  have hLookup : ∀ channelId, ((CloseRecordStore.remoteMap bytes nowMs).lookup channelId).map CloseRecord.facts =
      ((CloseRecordStore.remoteMap bytes 0).lookup channelId).map CloseRecord.facts := by
    intro channelId
    rw [CloseRecordStore.remoteMap, CloseRecordStore.remoteMap]
    cases bytes.fromSlice with
    | none => rfl
    | some raw => exact lookup_decodeRecordsMap_facts raw nowMs 0 channelId
  have hFacts : ∀ (records : Records) (fact : Fact), fact ∈ facts records ↔
      ∃ known, (records.lookup fact.channelId).map CloseRecord.facts = some known ∧ fact.known ∈ known := by
    intro records fact
    simp [mem_facts]
  ext fact
  rw [wireFacts, hFacts, hFacts, hLookup]

theorem wireFacts_encode (map : WireRecords) : wireFacts (encodeRecords map.records) = facts map.records := by
  rw [wireFacts, CloseRecordStore.remoteMap, encodeRecords, Bytes.fromSlice_ofJson]
  exact congrArg facts (decodeRecordsMap_encode map.records map.keyed map.encodable 0)

end WalletCore.CloseRecords
