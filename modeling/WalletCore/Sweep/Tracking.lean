import WalletCore.Lib.Transition
import WalletCore.Sweep.Deletion

/-! # Tracked outputs

A tracking call reads all entries, keeps what none of them holds and writes it as an entry of its own.
Between the reading and the writing another call may write, and passes may prune.
-/

namespace WalletCore.Sweep

open Lib CloseRecords
open Restore (hexStr)
open Wallet hiding Psbt

/-! ## Entries that share nothing -/

def StoredEntry.outpointKeys (entry : StoredEntry) : List String := entry.outpoints.map storedOutpointKey

structure StoredEntry.Distinct (entry : StoredEntry) : Prop where
  descriptors : entry.descriptors.Nodup
  outpoints : entry.outpointKeys.Nodup

structure StoredEntry.Apart (entry other : StoredEntry) : Prop where
  descriptors : ∀ hex ∈ entry.descriptors, hex ∉ other.descriptors
  outpoints : ∀ key ∈ entry.outpointKeys, key ∉ other.outpointKeys

/-- An entry that lost some of its members. -/
structure StoredEntry.Within (entry other : StoredEntry) : Prop where
  descriptors : entry.descriptors.Sublist other.descriptors
  outpoints : entry.outpoints.Sublist other.outpoints

/-- No text and no outpoint is stored twice. -/
structure SweepStore.Unique (store : SweepStore) : Prop where
  distinct : ∀ key entry, store.entryAt key = some entry → entry.Distinct
  apart : ∀ key entry other found, store.entryAt key = some entry → store.entryAt other = some found → key ≠ other →
    entry.Apart found

namespace StoredEntry

variable {a b c : StoredEntry}

theorem Within.refl (entry : StoredEntry) : entry.Within entry := ⟨List.Sublist.refl _, List.Sublist.refl _⟩

theorem Within.trans (h : a.Within b) (h' : b.Within c) : a.Within c :=
  ⟨h.descriptors.trans h'.descriptors, h.outpoints.trans h'.outpoints⟩

theorem Within.outpointKeys (h : a.Within b) : a.outpointKeys.Sublist b.outpointKeys := h.outpoints.map _

theorem Within.distinct (h : a.Within b) (hDistinct : b.Distinct) : a.Distinct :=
  ⟨h.descriptors.nodup hDistinct.descriptors, h.outpointKeys.nodup hDistinct.outpoints⟩

theorem Apart.symm (h : a.Apart b) : b.Apart a :=
  ⟨fun hex hb ha => h.descriptors hex ha hb, fun key hb ha => h.outpoints key ha hb⟩

theorem Apart.within (h : a.Apart b) (hWithin : c.Within b) : a.Apart c :=
  ⟨fun hex ha hc => h.descriptors hex ha (hWithin.descriptors.subset hc),
    fun key ha hc => h.outpoints key ha (hWithin.outpointKeys.subset hc)⟩

end StoredEntry

/-! ## What passes leave -/

/-- Every entry is what is left of an earlier one. -/
def SweepStore.Shrinks (old new : SweepStore) : Prop :=
  ∀ key entry, new.entryAt key = some entry → ∃ before, old.entryAt key = some before ∧ entry.Within before

namespace SweepStore

variable {store next last : SweepStore}

theorem Shrinks.of_files (h : next.files = store.files) : store.Shrinks next := by
  intro key entry hEntry
  refine ⟨entry, ?_, .refl entry⟩
  rw [entryAt, ← h]
  exact hEntry

theorem Shrinks.trans (h : store.Shrinks next) (h' : next.Shrinks last) : store.Shrinks last := by
  intro key entry hEntry
  obtain ⟨middle, hMiddle, hWithin⟩ := h' key entry hEntry
  obtain ⟨before, hBefore, hWithin'⟩ := h key middle hMiddle
  exact ⟨before, hBefore, hWithin.trans hWithin'⟩

theorem Shrinks.removeEntries (store : SweepStore) (keys : List String) (fails : String → Bool) :
    store.Shrinks (store.removeEntries keys fails) := by
  intro key entry hEntry
  rw [entryAt_removeEntries] at hEntry
  split at hEntry
  · cases hEntry
  · exact ⟨entry, hEntry, .refl entry⟩

theorem Shrinks.writeEntry {key : String} {entry before : StoredEntry} (hBefore : store.entryAt key = some before)
    (hWithin : entry.Within before) (fails : Bool) : store.Shrinks (store.writeEntry key entry fails) := by
  intro other found hFound
  rw [entryAt_writeEntry] at hFound
  split at hFound
  · rename_i hSame
    cases hFound
    rw [hSame.1]
    exact ⟨before, hBefore, hWithin⟩
  · exact ⟨found, hFound, .refl found⟩

theorem Unique.shrinks (h : store.Unique) (hShrinks : store.Shrinks next) : next.Unique := by
  constructor
  · intro key entry hEntry
    obtain ⟨before, hBefore, hWithin⟩ := hShrinks key entry hEntry
    exact hWithin.distinct (h.distinct key before hBefore)
  · intro key entry other found hEntry hFound hOther
    obtain ⟨before, hBefore, hWithin⟩ := hShrinks key entry hEntry
    obtain ⟨before', hBefore', hWithin'⟩ := hShrinks other found hFound
    have hApart := h.apart key before other before' hBefore hBefore' hOther
    exact ((hApart.within hWithin').symm.within hWithin).symm

end SweepStore

section

variable {signer : Signer} {keys : Descriptors} {env : PassEnv}

theorem GatherStep.shrinks {pruneFails : String → Bool} {g : Gathered} {key : String} {entry : StoredEntry}
    {taken : List BatchMember} {result : ScanEnd × Gathered}
    (h : GatherStep signer keys pruneFails g key entry taken result) (hCurrent : g.store.entryAt key = some entry) :
    g.store.Shrinks result.2.store := by
  obtain ⟨hStore, -⟩ | ⟨-, outpoints, hOutpoints, hStore⟩ := h.stored
  · exact .of_files (by rw [hStore])
  · rw [hStore]
    exact .writeEntry hCurrent ⟨h.sublist, hOutpoints⟩ _

theorem gatherEntries_shrinks {revealError : String → Option String} {pruneFails : String → Bool} {store : SweepStore}
    {wallet : OnchainWallet} {listing : List String} {panicked : Bool} {g : Gathered}
    (hRun : gatherEntries signer keys revealError pruneFails (store.entries listing.dedup) (.start store wallet) =
      (panicked, g)) : store.Shrinks g.store := by
  obtain ⟨-, ⟨-, hShrinks⟩, -⟩ := gatherEntries_induct (P := fun rest g => Ahead rest g ∧ store.Shrinks g.store)
    (fun key entry rest g taken result h hStep _ =>
      ⟨h.1.step hStep, h.2.trans (hStep.shrinks (h.1.current _ List.mem_cons_self))⟩)
    ⟨.start store wallet listing, .of_files rfl⟩ (by simp [Gathered.start]) hRun
  exact hShrinks

theorem removedEntry_within (poisoned : List BatchMember) (entry : StoredEntry) :
    (removedEntry poisoned entry).Within entry := ⟨List.filter_sublist, List.filter_sublist⟩

theorem removeMembers_shrinks (store : SweepStore) (env : PassEnv) (poisoned : List BatchMember) :
    store.Shrinks (removeMembers store env poisoned) := by
  intro key entry hEntry
  obtain ⟨hSame, -⟩ | ⟨before, hBefore, -, hRewritten | ⟨hGone, -⟩⟩ := removeMembers_entryAt env store poisoned key
  · exact ⟨entry, hSame.symm.trans hEntry, .refl entry⟩
  · cases hRewritten.symm.trans hEntry
    exact ⟨before, hBefore, removedEntry_within poisoned before⟩
  · cases hGone.symm.trans hEntry

theorem Reached.shrinks {destination : Script} {stored store : SweepStore} {gathered batch : List BatchMember}
    (h : Reached signer env destination stored gathered store batch) : stored.Shrinks store := by
  obtain ⟨rfl, -⟩ | ⟨poisoned, -, -, -, rfl, -⟩ := h
  · exact .of_files rfl
  · exact removeMembers_shrinks stored env poisoned

theorem sweepOnce_shrinks (e : SweepEngine) : e.store.Shrinks (sweepOnce signer keys env e).engine.store := by
  obtain ⟨hStore, -⟩ | ⟨panicked, g, hRun, ⟨-, hStore, -⟩ | ⟨-, e', r', hSwept, -, -, -, rfl, hStore, -⟩⟩ :=
    sweepOnce_cases signer keys env e
  · exact .of_files (by rw [hStore])
  · rw [hStore]
    exact gatherEntries_shrinks hRun
  · have hBefore : e.store.Shrinks e'.store := by
      rw [hSwept]
      exact (gatherEntries_shrinks hRun).trans (.removeEntries g.store _ _)
    have hSpent := (spendSignable_cases signer env (keys.spk .external (e'.wallet.live.revealed .external)) e'.store
      (g.swept env).batch).1.shrinks
    rw [hStore]
    obtain ⟨-, hKept | hKept | ⟨tx, -, -, hCommitted⟩⟩ := sweepGathered_cases signer keys env e' (g.swept env)
    · exact hBefore.trans (.of_files hKept.files)
    · exact hBefore.trans (hSpent.trans (.of_files hKept.files))
    · exact hBefore.trans (hSpent.trans ((SweepStore.Shrinks.removeEntries _ _ _).trans (.of_files hCommitted.files)))

end

/-! ## What a call adds -/

/-- By its text or by its outpoint. -/
def StoredEntry.Tracks (signer : Signer) (entry : StoredEntry) (descriptor : SpendableOutputDescriptor) : Prop :=
  hexStr (signer.encode descriptor) ∈ entry.descriptors ∨ outpointKey descriptor.spendableOutpoint ∈ entry.outpointKeys

def Tracking.entry (t : Tracking) (channelIdHex : Option String) : StoredEntry :=
  ⟨t.descriptors, channelIdHex, t.outpoints⟩

/-- What a call has found in some entries and some outputs. -/
structure Tracking.Sound (signer : Signer) (keys : Descriptors) (entries : List (String × StoredEntry))
    (outputs : List SpendableOutputDescriptor) (t : Tracking) : Prop where
  knownHexes : ∀ hex, hex ∈ t.knownHexes ↔
    (∃ listed ∈ entries, hex ∈ listed.2.descriptors) ∨ hex ∈ t.descriptors
  knownOutpoints : ∀ key, key ∈ t.knownOutpoints ↔
    (∃ listed ∈ entries, key ∈ listed.2.outpointKeys) ∨ key ∈ t.outpoints.map storedOutpointKey
  length : t.outpoints.length = t.descriptors.length
  distinct : (t.entry none).Distinct
  apart : ∀ listed ∈ entries, (t.entry none).Apart listed.2
  hexes : ∀ hex ∈ t.descriptors, ∃ descriptor ∈ outputs, hex = hexStr (signer.encode descriptor)
  outpoints : ∀ o ∈ t.outpoints, ∃ descriptor ∈ outputs, o.txid = descriptor.spendableOutpoint.txid ∧
    o.vout = descriptor.spendableOutpoint.index.toUInt32
  covered : ∀ descriptor ∈ outputs, WalletOwned keys t.wallet descriptor ∨
    hexStr (signer.encode descriptor) ∈ t.knownHexes ∨ outpointKey descriptor.spendableOutpoint ∈ t.knownOutpoints

section

variable {signer : Signer} {keys : Descriptors}

theorem storedOutpointKey_spendable (outpoint : LdkOutPoint) (valueSats : String) :
    storedOutpointKey ⟨outpoint.txid, outpoint.index.toUInt32, valueSats⟩ = outpointKey outpoint := by
  simp [storedOutpointKey, outpointKey]

variable (signer keys) in
theorem Tracking.output_cases (t : Tracking) (descriptor : SpendableOutputDescriptor) (writeError : Option String) :
    let hex := hexStr (signer.encode descriptor)
    let key := outpointKey descriptor.spendableOutpoint
    let next := t.output signer keys descriptor writeError
    t.wallet.live ≤ next.wallet.live ∧
    ((WalletOwned keys t.wallet descriptor ∨ hex ∈ t.knownHexes ∨ key ∈ t.knownOutpoints) ∧
        next = { t with wallet := next.wallet } ∨
      hex ∉ t.knownHexes ∧ key ∉ t.knownOutpoints ∧ ¬ WalletOwned keys t.wallet descriptor ∧
        ∃ o, storedOutpointKey o = key ∧ o.txid = descriptor.spendableOutpoint.txid ∧
          o.vout = descriptor.spendableOutpoint.index.toUInt32 ∧
          next = ⟨next.wallet, insert hex t.knownHexes, insert key t.knownOutpoints, t.descriptors ++ [hex],
            t.outpoints ++ [o]⟩) := by
  intro hex key next
  have hOwned : (isWalletOwnedStaticOutput keys t.wallet descriptor writeError).1 = true ↔
    WalletOwned keys t.wallet descriptor := isWalletOwned_iff
  have hLive : t.wallet.live ≤ (isWalletOwnedStaticOutput keys t.wallet descriptor writeError).2.live :=
    live_le_isWalletOwned writeError
  dsimp only [next, Tracking.output]
  split_ifs with hOwns hKnown
  · exact ⟨hLive, .inl ⟨.inl (hOwned.mp hOwns), rfl⟩⟩
  · exact ⟨hLive, .inl ⟨.inr hKnown, rfl⟩⟩
  · obtain ⟨hHex, hKey⟩ := not_or.mp hKnown
    refine ⟨hLive, .inr ⟨hHex, hKey, fun h => hOwns (hOwned.mpr h), _, ?_, rfl, rfl, rfl⟩⟩
    exact storedOutpointKey_spendable _ _

theorem Tracking.Sound.start (entries : List (String × StoredEntry)) (wallet : OnchainWallet) :
    Sound signer keys entries [] (.start entries wallet) where
  knownHexes hex := by simp [Tracking.start]
  knownOutpoints key := by
    simp only [Tracking.start, List.mem_toFinset, List.map_flatMap, List.mem_flatMap, List.map_nil, List.not_mem_nil,
      or_false]
    rfl
  length := rfl
  distinct := ⟨List.nodup_nil, List.nodup_nil⟩
  apart _ _ := ⟨nofun, nofun⟩
  hexes := nofun
  outpoints := nofun
  covered := nofun

theorem Tracking.Sound.output {entries : List (String × StoredEntry)} {outputs : List SpendableOutputDescriptor}
    {t : Tracking} (h : t.Sound signer keys entries outputs) (descriptor : SpendableOutputDescriptor)
    (writeError : Option String) :
    (t.output signer keys descriptor writeError).Sound signer keys entries (outputs ++ [descriptor]) := by
  have hGrown : ∀ earlier ∈ outputs, earlier ∈ outputs ++ [descriptor] := fun _ => List.mem_append_left _
  have hLast : descriptor ∈ outputs ++ [descriptor] := List.mem_append_right _ List.mem_cons_self
  obtain ⟨hLive, ⟨hCovered, hNext⟩ | ⟨hHex, hKey, -, o, hStored, hTxid, hVout, hNext⟩⟩ :=
    t.output_cases signer keys descriptor writeError
  · rw [hNext]
    refine ⟨h.knownHexes, h.knownOutpoints, h.length, h.distinct, h.apart, ?_, ?_, ?_⟩
    · intro hex hMem
      obtain ⟨earlier, hEarlier, hText⟩ := h.hexes hex hMem
      exact ⟨earlier, hGrown earlier hEarlier, hText⟩
    · intro o hMem
      obtain ⟨earlier, hEarlier, hSame⟩ := h.outpoints o hMem
      exact ⟨earlier, hGrown earlier hEarlier, hSame⟩
    · intro other hMem
      obtain hEarlier | hSame := List.mem_append.mp hMem
      · exact (h.covered other hEarlier).imp_left (WalletOwned.mono hLive)
      · rw [List.mem_singleton.mp hSame]
        exact hCovered.imp_left (WalletOwned.mono hLive)
  · obtain ⟨hNewHex, hNoHex⟩ := not_or.mp (mt (h.knownHexes _).mpr hHex)
    obtain ⟨hNewKey, hNoKey⟩ := not_or.mp (mt (h.knownOutpoints _).mpr hKey)
    rw [hNext]
    constructor
    case knownHexes =>
      intro hex
      simp only [Finset.mem_insert, h.knownHexes, List.mem_append, List.mem_singleton]
      exact or_comm.trans or_assoc
    case knownOutpoints =>
      intro key
      simp only [Finset.mem_insert, h.knownOutpoints, List.map_append, List.map_singleton, hStored, List.mem_append,
        List.mem_singleton]
      exact or_comm.trans or_assoc
    case length =>
      rw [List.length_append, List.length_append, h.length]
      rfl
    case distinct =>
      constructor
      · exact h.distinct.descriptors.append (List.nodup_singleton _) (List.disjoint_singleton.mpr hNoHex)
      · rw [StoredEntry.outpointKeys, Tracking.entry, List.map_append, List.map_singleton, hStored]
        exact h.distinct.outpoints.append (List.nodup_singleton _) (List.disjoint_singleton.mpr hNoKey)
    case apart =>
      intro listed hListed
      have hApart := h.apart listed hListed
      constructor
      · intro hex hMem
        obtain hOld | hNew := List.mem_append.mp hMem
        · exact hApart.descriptors hex hOld
        · rw [List.mem_singleton.mp hNew]
          exact fun hHas => hNewHex ⟨listed, hListed, hHas⟩
      · intro key hMem
        rw [StoredEntry.outpointKeys, Tracking.entry, List.map_append, List.map_singleton, hStored] at hMem
        obtain hOld | hNew := List.mem_append.mp hMem
        · exact hApart.outpoints key hOld
        · rw [List.mem_singleton.mp hNew]
          exact fun hHas => hNewKey ⟨listed, hListed, hHas⟩
    case hexes =>
      intro hex hMem
      obtain hOld | hNew := List.mem_append.mp hMem
      · obtain ⟨earlier, hEarlier, hText⟩ := h.hexes hex hOld
        exact ⟨earlier, hGrown earlier hEarlier, hText⟩
      · exact ⟨descriptor, hLast, List.mem_singleton.mp hNew⟩
    case outpoints =>
      intro found hMem
      obtain hOld | hNew := List.mem_append.mp hMem
      · obtain ⟨earlier, hEarlier, hSame⟩ := h.outpoints found hOld
        exact ⟨earlier, hGrown earlier hEarlier, hSame⟩
      · rw [List.mem_singleton.mp hNew]
        exact ⟨descriptor, hLast, hTxid, hVout⟩
    case covered =>
      intro other hMem
      obtain hEarlier | hSame := List.mem_append.mp hMem
      · obtain hOwned | hText | hOutpoint := h.covered other hEarlier
        · exact .inl (hOwned.mono hLive)
        · exact .inr (.inl (Finset.mem_insert_of_mem hText))
        · exact .inr (.inr (Finset.mem_insert_of_mem hOutpoint))
      · rw [List.mem_singleton.mp hSame]
        exact .inr (.inl (Finset.mem_insert_self _ _))

theorem collectOutputs_eq (entries : List (String × StoredEntry)) (wallet : OnchainWallet)
    (outputs : List (SpendableOutputDescriptor × Option String)) :
    collectOutputs signer keys entries wallet outputs =
      outputs.foldl (fun t output => t.output signer keys output.1 output.2) (.start entries wallet) := rfl

variable (signer keys) in
theorem collectOutputs_sound (entries : List (String × StoredEntry)) (wallet : OnchainWallet)
    (outputs : List (SpendableOutputDescriptor × Option String)) :
    (collectOutputs signer keys entries wallet outputs).Sound signer keys entries (outputs.map Prod.fst) := by
  have hFold : ∀ (rest : List (SpendableOutputDescriptor × Option String)) (earlier : List SpendableOutputDescriptor)
      (t : Tracking), t.Sound signer keys entries earlier →
      (rest.foldl (fun t output => t.output signer keys output.1 output.2) t).Sound signer keys
        entries (earlier ++ rest.map Prod.fst) := by
    intro rest
    induction rest with
    | nil =>
      intro earlier t h
      simpa using h
    | cons output rest ih =>
      intro earlier t h
      have hNext := ih _ _ (h.output output.1 output.2)
      simpa using hNext
  rw [collectOutputs_eq]
  exact hFold outputs [] _ (.start entries wallet)

theorem collectOutputs_nothing {entries : List (String × StoredEntry)} {wallet : OnchainWallet}
    {outputs : List (SpendableOutputDescriptor × Option String)}
    (h : ∀ output ∈ outputs, WalletOwned keys wallet output.1 ∨ ∃ listed ∈ entries, listed.2.Tracks signer output.1) :
    (collectOutputs signer keys entries wallet outputs).descriptors = [] := by
  have hFold : ∀ (rest : List (SpendableOutputDescriptor × Option String)) (t : Tracking),
      (∀ output ∈ rest, WalletOwned keys t.wallet output.1 ∨ hexStr (signer.encode output.1) ∈ t.knownHexes ∨
        outpointKey output.1.spendableOutpoint ∈ t.knownOutpoints) →
      (rest.foldl (fun t output => t.output signer keys output.1 output.2) t).descriptors =
        t.descriptors := by
    intro rest
    induction rest with
    | nil => exact fun _ _ => rfl
    | cons output rest ih =>
      intro t hKnown
      obtain ⟨hHere, hLater⟩ := List.forall_mem_cons.mp hKnown
      obtain ⟨hLive, ⟨-, hNext⟩ | ⟨hHex, hKey, hOwned, -⟩⟩ := t.output_cases signer keys output.1 output.2
      · refine (ih (t.output signer keys output.1 output.2) ?_).trans (by rw [hNext])
        rw [hNext]
        exact fun other hOther => (hLater other hOther).imp_left (WalletOwned.mono hLive)
      · obtain hOwns | hText | hOutpoint := hHere
        · exact absurd hOwns hOwned
        · exact absurd hText hHex
        · exact absurd hOutpoint hKey
  rw [collectOutputs_eq]
  refine hFold outputs (.start entries wallet) fun output hOutput => (h output hOutput).imp_right ?_
  have hStart : (Tracking.start entries wallet).Sound signer keys entries [] := .start entries wallet
  rintro ⟨listed, hListed, hText | hOutpoint⟩
  · exact .inl ((hStart.knownHexes _).mpr (.inl ⟨listed, hListed, hText⟩))
  · exact .inr ((hStart.knownOutpoints _).mpr (.inl ⟨listed, hListed, hOutpoint⟩))

end

/-! ## Calls -/

/-- A call with what it meets: the listing, an error at each output's reveal, and the new file. -/
structure TrackCall where
  listing : List String
  outputs : List (SpendableOutputDescriptor × Option String)
  channelIdHex : Option String
  key : String
  fails : Bool

def TrackCall.run (signer : Signer) (keys : Descriptors) (call : TrackCall) (e : SweepEngine) :
    Except Unit Nat × SweepEngine :=
  trackSpendableOutputs signer keys e call.listing call.outputs call.channelIdHex call.key call.fails

/-- The listing names every file. -/
def TrackCall.Reads (call : TrackCall) (e : SweepEngine) : Prop :=
  ∀ key, (e.store.files.lookup key).isSome = true → key ∈ call.listing

/-- The new file is one, and it is written. -/
def TrackCall.Writes (call : TrackCall) (e : SweepEngine) : Prop :=
  e.store.files.lookup call.key = none ∧ call.fails = false

/-- Some entry has the output, or the wallet owns it. -/
def SweepEngine.Has (signer : Signer) (keys : Descriptors) (e : SweepEngine) (descriptor : SpendableOutputDescriptor) :
    Prop :=
  WalletOwned keys e.wallet descriptor ∨ ∃ key entry, e.store.entryAt key = some entry ∧ entry.Tracks signer descriptor

section

variable {signer : Signer} {keys : Descriptors} {e : SweepEngine} {call : TrackCall}

theorem storeOutputs_unique {store : SweepStore} {t : Tracking} (hUnique : store.Unique)
    (hDistinct : (t.entry none).Distinct)
    (hApart : ∀ key entry, store.entryAt key = some entry → (t.entry none).Apart entry) (channelIdHex : Option String)
    (key : String) (fails : Bool) : (storeOutputs store t channelIdHex key fails).2.Unique := by
  rw [storeOutputs_snd]
  split_ifs with hEmpty
  · exact hUnique
  · have hNew : ∀ other entry, (store.writeEntry key ⟨t.descriptors, channelIdHex, t.outpoints⟩ fails).entryAt other =
        some entry → other = key ∧ entry = t.entry channelIdHex ∨ store.entryAt other = some entry := by
      intro other entry hEntry
      rw [SweepStore.entryAt_writeEntry] at hEntry
      split_ifs at hEntry with hSame
      · cases hEntry
        exact .inl ⟨hSame.1, rfl⟩
      · exact .inr hEntry
    constructor
    · intro other entry hEntry
      obtain ⟨-, rfl⟩ | hOld := hNew other entry hEntry
      · exact ⟨hDistinct.descriptors, hDistinct.outpoints⟩
      · exact hUnique.distinct other entry hOld
    · intro first entry second found hEntry hFound hOther
      obtain ⟨rfl, rfl⟩ | hOld := hNew first entry hEntry
      · obtain ⟨rfl, -⟩ | hOld' := hNew second found hFound
        · exact absurd rfl hOther
        · have h := hApart second found hOld'
          exact ⟨h.descriptors, h.outpoints⟩
      · obtain ⟨rfl, rfl⟩ | hOld' := hNew second found hFound
        · have h := (hApart first entry hOld).symm
          exact ⟨h.descriptors, h.outpoints⟩
        · exact hUnique.apart first entry second found hOld hOld' hOther

theorem TrackCall.Reads.mem_entries (h : call.Reads e) {key : String} {entry : StoredEntry}
    (hEntry : e.store.entryAt key = some entry) : (key, entry) ∈ e.store.entries call.listing.dedup := by
  rw [SweepStore.mem_entries, List.mem_dedup]
  refine ⟨h key ?_, hEntry⟩
  obtain ⟨bytes, hBytes, -⟩ := Option.bind_eq_some_iff.mp hEntry
  rw [hBytes]
  rfl

/-- A call that has read every file stores no text and no outpoint twice. -/
theorem TrackCall.run_unique (hReads : call.Reads e) (hUnique : e.store.Unique) :
    (call.run signer keys e).2.store.Unique := by
  have hSound := collectOutputs_sound signer keys (e.store.entries call.listing.dedup) e.wallet call.outputs
  exact storeOutputs_unique hUnique hSound.distinct
    (fun key entry hEntry => hSound.apart (key, entry) (hReads.mem_entries hEntry)) _ _ _

theorem TrackCall.run_error (h : (call.run signer keys e).1 = .error ()) :
    (call.run signer keys e).2.store = e.store := by
  rw [run, trackSpendableOutputs] at h ⊢
  dsimp only [storeOutputs] at h ⊢
  split_ifs at h ⊢ with hEmpty hFails
  exact if_pos hFails

/-- What is stored after a call was stored before, or it is the new file with outputs of the call. -/
theorem TrackCall.run_entryAt {key : String} {entry : StoredEntry}
    (h : (call.run signer keys e).2.store.entryAt key = some entry) :
    e.store.entryAt key = some entry ∨ key = call.key ∧
      ∀ o ∈ entry.outpoints, ∃ output ∈ call.outputs, o.txid = output.1.spendableOutpoint.txid ∧
        o.vout = output.1.spendableOutpoint.index.toUInt32 := by
  have hSound := collectOutputs_sound signer keys (e.store.entries call.listing.dedup) e.wallet call.outputs
  dsimp only [run, trackSpendableOutputs] at h
  rw [storeOutputs_snd] at h
  split_ifs at h with hEmpty
  · exact .inl h
  · rw [SweepStore.entryAt_writeEntry] at h
    split_ifs at h with hSame
    · cases h
      refine .inr ⟨hSame.1, fun o ho => ?_⟩
      obtain ⟨descriptor, hMem, hOutpoint⟩ := hSound.outpoints o ho
      obtain ⟨output, hOutput, rfl⟩ := List.mem_map.mp hMem
      exact ⟨output, hOutput, hOutpoint⟩
    · exact .inl h

theorem TrackCall.Writes.entryAt (hWrites : call.Writes e) {key : String} {entry : StoredEntry}
    (hEntry : e.store.entryAt key = some entry) : (call.run signer keys e).2.store.entryAt key = some entry :=
  storeOutputs_entryAt hWrites.1 hEntry

theorem TrackCall.Writes.has_mono (hWrites : call.Writes e) {descriptor : SpendableOutputDescriptor}
    (h : e.Has signer keys descriptor) : (call.run signer keys e).2.Has signer keys descriptor := by
  obtain hOwned | ⟨key, entry, hEntry, hTracks⟩ := h
  · exact .inl (hOwned.mono (live_le_collectOutputs _ _ _))
  · exact .inr ⟨key, entry, hWrites.entryAt hEntry, hTracks⟩

/-- After a call that writes, each of its outputs is accounted for. -/
theorem TrackCall.Writes.has (hWrites : call.Writes e) {output : SpendableOutputDescriptor × Option String}
    (hOutput : output ∈ call.outputs) : (call.run signer keys e).2.Has signer keys output.1 := by
  have hSound := collectOutputs_sound signer keys (e.store.entries call.listing.dedup) e.wallet call.outputs
  have hStored : ∀ listed ∈ e.store.entries call.listing.dedup, listed.2.Tracks signer output.1 →
      (call.run signer keys e).2.Has signer keys output.1 := fun listed hListed hTracks =>
    .inr ⟨listed.1, listed.2, hWrites.entryAt (SweepStore.mem_entries.mp hListed).2, hTracks⟩
  have hNew : (collectOutputs signer keys (e.store.entries call.listing.dedup) e.wallet call.outputs).descriptors ≠ [] →
      (call.run signer keys e).2.store.entryAt call.key =
        some ((collectOutputs signer keys (e.store.entries call.listing.dedup) e.wallet call.outputs).entry
          call.channelIdHex) := by
    intro hSome
    dsimp only [run, trackSpendableOutputs]
    rw [storeOutputs_snd, if_neg hSome, SweepStore.entryAt_writeEntry, if_pos ⟨rfl, hWrites.2⟩]
    rfl
  obtain hOwned | hHex | hKey := hSound.covered output.1 (List.mem_map_of_mem hOutput)
  · exact .inl hOwned
  · obtain ⟨listed, hListed, hText⟩ | hText := (hSound.knownHexes _).mp hHex
    · exact hStored listed hListed (.inl hText)
    · exact .inr ⟨_, _, hNew (List.ne_nil_of_mem hText), .inl hText⟩
  · obtain ⟨listed, hListed, hOutpoint⟩ | hOutpoint := (hSound.knownOutpoints _).mp hKey
    · exact hStored listed hListed (.inr hOutpoint)
    · have hSome : (collectOutputs signer keys (e.store.entries call.listing.dedup) e.wallet call.outputs).descriptors ≠
          [] := by
        rintro hNone
        have hLength := hSound.length
        rw [hNone, List.length_nil, List.length_eq_zero_iff] at hLength
        rw [hLength] at hOutpoint
        cases hOutpoint
      exact .inr ⟨_, _, hNew hSome, .inr hOutpoint⟩

/-- A call whose outputs are all accounted for stores nothing. -/
theorem TrackCall.run_nothing (hReads : call.Reads e) (h : ∀ output ∈ call.outputs, e.Has signer keys output.1) :
    (call.run signer keys e).2.store = e.store := by
  have hNone : (collectOutputs signer keys (e.store.entries call.listing.dedup) e.wallet call.outputs).descriptors =
      [] := by
    apply collectOutputs_nothing
    intro output hOutput
    refine (h output hOutput).imp_right ?_
    rintro ⟨key, entry, hEntry, hTracks⟩
    exact ⟨(key, entry), hReads.mem_entries hEntry, hTracks⟩
  dsimp only [run, trackSpendableOutputs]
  rw [storeOutputs_snd, if_pos hNone]

end

end WalletCore.Sweep
