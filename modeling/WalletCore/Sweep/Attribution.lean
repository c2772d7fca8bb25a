import WalletCore.Sweep.Deletion
import WalletCore.Sweep.Frozen

/-! # Which channels a sweep is attributed to

The channels and the keys of a batch are collected while the store is pruned. Members that can never be
signed are taken out of the batch later, so a channel may be left without any output that is spent, and a member
whose text is not the hex of its bytes stays in its file and is deleted with it. An entry that has no member in the
batch is told nothing, though the output of one of its texts may be spent for another entry or as a coin of the wallet.
-/

namespace WalletCore.Sweep

open CloseRecords Lib
open Restore (hexStr)
open Wallet hiding Psbt

/-! ## Exact attribution -/

/-- The transaction spends the output the text stands for. -/
def SpentText (signer : Signer) (tx : Transaction) (hex : String) : Prop :=
  ∃ descriptor, signer.descriptorOf hex = some descriptor ∧ descriptor.previousOutput ∈ tx.inputs

/-- The sweep is recorded for exactly the channels with an output it spends, and an entry that is there
when it is committed goes exactly if it spends all that the entry holds. -/
structure Exact (signer : Signer) (before atCommit after : SweepStore) (tx : Transaction) (channels : List String) :
    Prop where
  attributed : ∀ channel, channel ∈ channels ↔ ∃ key entry hex, before.entryAt key = some entry ∧
    entry.channelIdHex = some channel ∧ hex ∈ entry.descriptors ∧ SpentText signer tx hex
  deleted : ∀ key entry, atCommit.entryAt key = some entry →
    (after.entryAt key = none ↔ ∀ hex ∈ entry.descriptors, SpentText signer tx hex)

/-- Listings are complete and writes go through. -/
structure Orderly (env : PassEnv) (store : SweepStore) : Prop where
  listed : ∀ key entry, store.entryAt key = some entry → key ∈ env.listing
  relisted : ∀ key entry, store.entryAt key = some entry → key ∈ env.relisting
  writes : ∀ write key, env.storeFails write key = false

def channelOf (store : SweepStore) (m : BatchMember) : Option String := (store.entryAt m.entryKey).bind (·.channelIdHex)

/-- The members that a transaction is made of: all of them if they can be spent at once, else those that can be
signed. -/
def sentMembers (signer : Signer) (env : PassEnv) (batch : List BatchMember) (destination : Script) : List BatchMember :=
  if (spendBatch signer env batch destination).isSome then batch
  else batch.filter fun m => !signer.descriptorIsUnsignable m.descriptor destination

/-- Some stored text of the channel stands for an output of these members or for one of the coins. -/
def Touched (signer : Signer) (store : SweepStore) (sent : List BatchMember) (coins : List OutPoint) (channel : String) :
    Prop :=
  ∃ key entry hex descriptor, store.entryAt key = some entry ∧ entry.channelIdHex = some channel ∧
    hex ∈ entry.descriptors ∧ signer.descriptorOf hex = some descriptor ∧ Covered sent coins descriptor.previousOutput

/-- The three kinds of texts and members for which the lists of the first stage may be wrong. -/
structure Attributable (signer : Signer) (store : SweepStore) (batch sent : List BatchMember) (coins : List OutPoint) :
    Prop where
  /-- What an entry without a member has in common with the spent outputs is of a channel with a member. -/
  told : ∀ key entry hex descriptor channel, store.entryAt key = some entry → (∀ m ∈ batch, m.entryKey ≠ key) →
    hex ∈ entry.descriptors → signer.descriptorOf hex = some descriptor → Covered sent coins descriptor.previousOutput →
    entry.channelIdHex = some channel → ∃ m ∈ batch, channelOf store m = some channel
  served : ∀ m ∈ batch, m ∉ sent → ∀ channel, channelOf store m = some channel → Touched signer store sent coins channel
  found : ∀ m ∈ batch, m ∉ sent → m.hex = hexStr m.bytes ∨ Covered sent coins m.descriptor.previousOutput

/-! ## What the walk leaves behind -/

/-- Keys, channels and files of a batch, all told by its members. -/
structure Walked (signer : Signer) (before : SweepStore) (entries rest : List (String × StoredEntry)) (g : Gathered) :
    Prop extends Ahead rest g where
  behind : ∀ e ∈ entries, e ∈ rest ∨ e.1 ∈ g.batchKeys ∨ e.1 ∈ g.emptiedKeys ∨ ¬ signer.Decodes e.2
  channels : ∀ channel, channel ∈ g.channels ↔ ∃ m ∈ g.batch, channelOf before m = some channel
  batchKeys : ∀ key, key ∈ g.batchKeys ↔ ∃ m ∈ g.batch, m.entryKey = key
  origin : ∀ m ∈ g.batch, ∃ entry, before.entryAt m.entryKey = some entry ∧ m.hex ∈ entry.descriptors
  stored : ∀ key ∈ g.batchKeys, key ∉ g.emptiedKeys ∧ ∃ entry, g.store.entryAt key = some entry ∧
    ∀ hex, hex ∈ entry.descriptors ↔ ∃ m ∈ g.batch, m.entryKey = key ∧ m.hex = hex
  others : ∀ key, key ∉ g.batchKeys → g.store.entryAt key = before.entryAt key

section

variable {signer : Signer} {keys : Descriptors} {env : PassEnv} {pruneFails : String → Bool}

theorem GatherStep.entryAt_own {g : Gathered} {key : String} {entry : StoredEntry} {taken : List BatchMember}
    {result : ScanEnd × Gathered} (h : GatherStep signer keys pruneFails g key entry taken result)
    (hCurrent : g.store.entryAt key = some entry) (hSome : taken ≠ []) (hWrites : pruneFails key = false) :
    ∃ entry', result.2.store.entryAt key = some entry' ∧ entry'.descriptors = taken.map (·.hex) := by
  obtain ⟨hStore, hAll⟩ | ⟨-, outpoints, -, hStore⟩ := h.stored
  · rw [hStore]
    exact ⟨entry, hCurrent, (hAll hSome).symm⟩
  · rw [hStore, SweepStore.entryAt_writeEntry, if_pos ⟨rfl, hWrites⟩]
    exact ⟨_, rfl, rfl⟩

theorem GatherStep.mem_batchKeys {g : Gathered} {key : String} {entry : StoredEntry} {taken : List BatchMember}
    {result : ScanEnd × Gathered} (h : GatherStep signer keys pruneFails g key entry taken result) {other : String} :
    other ∈ result.2.batchKeys ↔ other ∈ g.batchKeys ∨ taken ≠ [] ∧ other = key := by
  rw [h.batchKeys, List.mem_append]
  split_ifs with hNone
  · simp [hNone]
  · simp [hNone]

namespace Walked

variable {before : SweepStore} {entries rest : List (String × StoredEntry)} {g : Gathered} {key : String}
  {entry : StoredEntry} {taken : List BatchMember} {result : ScanEnd × Gathered}

theorem entryAt_next (hWalked : Walked signer before entries ((key, entry) :: rest) g) :
    key ∉ g.batchKeys ∧ before.entryAt key = some entry := by
  have hCurrent := (List.forall_mem_cons.mp hWalked.current).1
  have hUnbatched := (List.forall_mem_cons.mp hWalked.untouched).1.1
  exact ⟨hUnbatched, (hWalked.others key hUnbatched).symm.trans hCurrent⟩

theorem behind_step (hWalked : Walked signer before entries ((key, entry) :: rest) g)
    (h : GatherStep signer keys pruneFails g key entry taken result) {e : String × StoredEntry} (he : e ∈ entries) :
    e ∈ rest ∨ e.1 ∈ result.2.batchKeys ∨ e.1 ∈ result.2.emptiedKeys ∨ ¬ signer.Decodes e.2 := by
  rw [h.mem_batchKeys, h.emptiedKeys, List.mem_append]
  obtain hRest | hBatched | hEmptied | hBroken := hWalked.behind e he
  · obtain rfl | hRest := List.mem_cons.mp hRest
    · by_cases hDecodes : signer.Decodes entry
      · by_cases hNone : taken = []
        · simp [hNone, h.done_iff.mpr hDecodes]
        · simp [hNone]
      · exact .inr (.inr (.inr hDecodes))
    · exact .inl hRest
  · exact .inr (.inl (.inl hBatched))
  · exact .inr (.inr (.inl (.inl hEmptied)))
  · exact .inr (.inr (.inr hBroken))

theorem channels_step (hWalked : Walked signer before entries ((key, entry) :: rest) g)
    (h : GatherStep signer keys pruneFails g key entry taken result) (channel : String) :
    channel ∈ result.2.channels ↔ ∃ m ∈ result.2.batch, channelOf before m = some channel := by
  have hTaken : ∀ m ∈ taken, channelOf before m = entry.channelIdHex := by
    intro m hm
    rw [channelOf, (h.reads m hm).2.2, hWalked.entryAt_next.2]
    rfl
  rw [h.channels, List.mem_append, hWalked.channels, h.batch]
  constructor
  · rintro (⟨m, hm, hChannel⟩ | hNew)
    · exact ⟨m, List.mem_append_left _ hm, hChannel⟩
    · split_ifs at hNew with hNone
      · cases hNew
      · obtain ⟨m, hm⟩ := List.exists_mem_of_ne_nil _ hNone
        exact ⟨m, List.mem_append_right _ hm, (hTaken m hm).trans (Option.mem_toList.mp hNew)⟩
  · rintro ⟨m, hm, hChannel⟩
    obtain hm | hm := List.mem_append.mp hm
    · exact .inl ⟨m, hm, hChannel⟩
    · rw [if_neg (List.ne_nil_of_mem hm)]
      exact .inr (Option.mem_toList.mpr ((hTaken m hm).symm.trans hChannel))

theorem batchKeys_step (hWalked : Walked signer before entries ((key, entry) :: rest) g)
    (h : GatherStep signer keys pruneFails g key entry taken result) (other : String) :
    other ∈ result.2.batchKeys ↔ ∃ m ∈ result.2.batch, m.entryKey = other := by
  rw [h.mem_batchKeys, hWalked.batchKeys, h.batch]
  constructor
  · rintro (⟨m, hm, hOther⟩ | ⟨hSome, rfl⟩)
    · exact ⟨m, List.mem_append_left _ hm, hOther⟩
    · obtain ⟨m, hm⟩ := List.exists_mem_of_ne_nil _ hSome
      exact ⟨m, List.mem_append_right _ hm, (h.reads m hm).2.2⟩
  · rintro ⟨m, hm, rfl⟩
    obtain hm | hm := List.mem_append.mp hm
    · exact .inl ⟨m, hm, rfl⟩
    · exact .inr ⟨List.ne_nil_of_mem hm, (h.reads m hm).2.2⟩

theorem stored_step_other (hWalked : Walked signer before entries ((key, entry) :: rest) g)
    (h : GatherStep signer keys pruneFails g key entry taken result) {other : String} (hOther : other ∈ g.batchKeys) :
    other ∉ result.2.emptiedKeys ∧ ∃ entry, result.2.store.entryAt other = some entry ∧
      ∀ hex, hex ∈ entry.descriptors ↔ ∃ m ∈ result.2.batch, m.entryKey = other ∧ m.hex = hex := by
  have hNe : other ≠ key := by
    rintro rfl
    exact hWalked.entryAt_next.1 hOther
  obtain ⟨hKept, entry', hEntry, hTexts⟩ := hWalked.stored other hOther
  refine ⟨?_, entry', (h.entryAt_other hNe).trans hEntry, ?_⟩
  · rw [h.emptiedKeys]
    split_ifs <;> simp [hKept, hNe]
  · intro hex
    rw [hTexts, h.batch]
    constructor
    · rintro ⟨m, hm, hText⟩
      exact ⟨m, List.mem_append_left _ hm, hText⟩
    · rintro ⟨m, hm, hIs, hText⟩
      obtain hm | hm := List.mem_append.mp hm
      · exact ⟨m, hm, hIs, hText⟩
      · exact absurd (hIs.symm.trans (h.reads m hm).2.2) hNe

theorem stored_step_own (hWalked : Walked signer before entries ((key, entry) :: rest) g)
    (h : GatherStep signer keys pruneFails g key entry taken result) (hSome : taken ≠ [])
    (hWrites : pruneFails key = false) :
    key ∉ result.2.emptiedKeys ∧ ∃ entry, result.2.store.entryAt key = some entry ∧
      ∀ hex, hex ∈ entry.descriptors ↔ ∃ m ∈ result.2.batch, m.entryKey = key ∧ m.hex = hex := by
  have hCurrent := (List.forall_mem_cons.mp hWalked.current).1
  have hUnemptied := (List.forall_mem_cons.mp hWalked.untouched).1.2
  obtain ⟨entry', hEntry, hTexts⟩ := h.entryAt_own hCurrent hSome hWrites
  refine ⟨?_, entry', hEntry, ?_⟩
  · rw [h.emptiedKeys, if_neg (fun hEmptied => hSome hEmptied.2), List.append_nil]
    exact hUnemptied
  · intro hex
    rw [hTexts, h.batch, List.mem_map]
    constructor
    · rintro ⟨m, hm, hText⟩
      exact ⟨m, List.mem_append_right _ hm, (h.reads m hm).2.2, hText⟩
    · rintro ⟨m, hm, hIs, hText⟩
      obtain hm | hm := List.mem_append.mp hm
      · exact absurd ((hWalked.batchKeys key).mpr ⟨m, hm, hIs⟩) hWalked.entryAt_next.1
      · exact ⟨m, hm, hText⟩

theorem others_step (hWalked : Walked signer before entries ((key, entry) :: rest) g)
    (h : GatherStep signer keys pruneFails g key entry taken result) {other : String}
    (hOther : other ∉ result.2.batchKeys) : result.2.store.entryAt other = before.entryAt other := by
  rw [h.mem_batchKeys, not_or, not_and] at hOther
  by_cases hNe : other = key
  · subst hNe
    have hNone : taken = [] := by
      by_contra hSome
      exact hOther.2 hSome rfl
    obtain ⟨hStore, -⟩ | ⟨hSome, -⟩ := h.stored
    · rw [hStore]
      exact hWalked.others other hOther.1
    · exact absurd hNone hSome
  · rw [h.entryAt_other hNe]
    exact hWalked.others other hOther.1

theorem step (hWalked : Walked signer before entries ((key, entry) :: rest) g)
    (h : GatherStep signer keys pruneFails g key entry taken result) (hWrites : pruneFails key = false) :
    Walked signer before entries rest result.2 := by
  refine ⟨hWalked.toAhead.step h, fun e he => hWalked.behind_step h he, hWalked.channels_step h, hWalked.batchKeys_step h,
    ?_, ?_, fun other hOther => hWalked.others_step h hOther⟩
  · intro m hm
    rw [h.batch] at hm
    obtain hm | hm := List.mem_append.mp hm
    · exact hWalked.origin m hm
    · refine ⟨entry, ?_, h.sublist.subset (List.mem_map_of_mem hm)⟩
      rw [(h.reads m hm).2.2, hWalked.entryAt_next.2]
  · intro other hOther
    obtain hOld | ⟨hSome, rfl⟩ := h.mem_batchKeys.mp hOther
    · exact hWalked.stored_step_other h hOld
    · exact hWalked.stored_step_own h hSome hWrites

end Walked

theorem walked_gathered {store : SweepStore} {wallet : OnchainWallet} {listing : List String}
    {revealError : String → Option String} {final : Gathered} (hWrites : ∀ key, pruneFails key = false)
    (hRun : gatherEntries signer keys revealError pruneFails (store.entries listing.dedup) (.start store wallet) =
      (false, final)) : Walked signer store (store.entries listing.dedup) [] final := by
  have hStart : Walked signer store (store.entries listing.dedup) (store.entries listing.dedup) (.start store wallet) :=
    ⟨.start store wallet listing, fun e he => .inl he, by simp [Gathered.start], by simp [Gathered.start],
      by simp [Gathered.start], by simp [Gathered.start], fun key _ => rfl⟩
  obtain ⟨rest, hWalked, -, hNone⟩ := gatherEntries_induct
    (P := Walked signer store (store.entries listing.dedup))
    (fun key entry rest g taken result hWalked hStep _ => hWalked.step hStep (hWrites key)) hStart
    (by simp [Gathered.start]) hRun
  rw [hNone rfl] at hWalked
  exact hWalked

/-! ## What a commit finds -/

/-- With nothing failing, an entry with a poisoned member is rewritten or goes. -/
theorem removeMembers_affected {store : SweepStore} {poisoned : List BatchMember} {key : String} {entry : StoredEntry}
    (hWrites : ∀ write key, env.storeFails write key = false) (hEntry : store.entryAt key = some entry)
    (hListed : key ∈ env.relisting) (hPoisoned : ∃ m ∈ poisoned, m.entryKey = key) :
    (removeMembers store env poisoned).entryAt key = some (removedEntry poisoned entry) ∨
      (removeMembers store env poisoned).entryAt key = none ∧ (removedEntry poisoned entry).descriptors = [] := by
  obtain ⟨-, hFailed⟩ | ⟨entry', hEntry', -, hCases⟩ := removeMembers_entryAt env store poisoned key
  · have hFails := hFailed hListed hPoisoned entry hEntry
    simp [hWrites] at hFails
  · cases hEntry.symm.trans hEntry'
    exact hCases

theorem removeMembers_unaffected {store : SweepStore} {poisoned : List BatchMember} {key : String}
    (hClean : ∀ m ∈ poisoned, m.entryKey ≠ key) :
    (removeMembers store env poisoned).entryAt key = store.entryAt key := by
  obtain ⟨hSame, -⟩ | ⟨-, -, ⟨m, hm, hKey⟩, -⟩ := removeMembers_entryAt env store poisoned key
  · exact hSame
  · exact absurd hKey (hClean m hm)

theorem entryAt_committed {after atCommit : SweepStore} {batchKeys : List String}
    (hWrites : ∀ write key, env.storeFails write key = false)
    (hAfter : after.files = (atCommit.removeEntries batchKeys (env.storeFails .commit)).files) (key : String) :
    after.entryAt key = if key ∈ batchKeys then none else atCommit.entryAt key := by
  have hSame : after.entryAt key = (atCommit.removeEntries batchKeys (env.storeFails .commit)).entryAt key := by
    rw [SweepStore.entryAt, hAfter]
    rfl
  rw [hSame, SweepStore.entryAt_removeEntries]
  simp [hWrites]

/-- An entry outside the batch that is there after the prune has a text that does not decode. -/
theorem Walked.broken {before : SweepStore} {g : Gathered} {key : String} {entry : StoredEntry}
    (hWalked : Walked signer before (before.entries env.listing.dedup) [] g) (hOrderly : Orderly env before)
    (hKey : key ∉ g.batchKeys) (hEntry : (g.swept env).store.entryAt key = some entry) : ¬ signer.Decodes entry := by
  rw [Gathered.swept, SweepStore.entryAt_removeEntries] at hEntry
  split_ifs at hEntry with hEmptied
  rw [hOrderly.writes, and_iff_left rfl] at hEmptied
  rw [hWalked.others key hKey] at hEntry
  have hListed : (key, entry) ∈ before.entries env.listing.dedup :=
    SweepStore.mem_entries.mpr ⟨List.mem_dedup.mpr (hOrderly.listed key entry hEntry), hEntry⟩
  obtain hRest | hBatched | hGone | hBroken := hWalked.behind _ hListed
  · cases hRest
  · exact absurd hBatched hKey
  · exact absurd hGone hEmptied
  · exact hBroken

theorem not_decodes_iff {entry : StoredEntry} : ¬ signer.Decodes entry ↔
    ∃ hex ∈ entry.descriptors, signer.descriptorOf hex = none := by
  simp [Signer.Decodes, Signer.readable]

/-- What the files hold at the commit: an entry of the batch the texts of members that are sent, and of others that
were looked for under another text. -/
structure LeftOver (g : Gathered) (sent : List BatchMember) (swept atCommit : SweepStore) : Prop where
  others : ∀ key, key ∉ g.batchKeys → atCommit.entryAt key = swept.entryAt key
  texts : ∀ key ∈ g.batchKeys, ∀ entry, atCommit.entryAt key = some entry → ∀ hex ∈ entry.descriptors,
    ∃ m ∈ g.batch, m.hex = hex ∧ (m ∉ sent → m.hex ≠ hexStr m.bytes)
  kept : ∀ m ∈ g.batch, m ∉ sent → m.hex ≠ hexStr m.bytes →
    ∃ entry, atCommit.entryAt m.entryKey = some entry ∧ m.hex ∈ entry.descriptors

section Commit

variable {before atCommit after : SweepStore} {g : Gathered} {sent : List BatchMember} {coins : List OutPoint}
  {tx : Transaction} (hOrderly : Orderly env before)
  (hWalked : Walked signer before (before.entries env.listing.dedup) [] g) (hReads : ∀ m ∈ g.batch, m.Reads signer)
  (hInputs : ∀ outpoint, outpoint ∈ tx.inputs ↔ Covered sent coins outpoint) (hSub : ∀ m ∈ sent, m ∈ g.batch)
  (hLeft : LeftOver g sent (g.swept env).store atCommit)
  (hAfter : after.files = (atCommit.removeEntries g.batchKeys (env.storeFails .commit)).files)

include hInputs in
theorem touched_iff (channel : String) : Touched signer before sent coins channel ↔
    ∃ key entry hex, before.entryAt key = some entry ∧ entry.channelIdHex = some channel ∧ hex ∈ entry.descriptors ∧
      SpentText signer tx hex := by
  constructor
  · rintro ⟨key, entry, hex, descriptor, hEntry, hChannel, hHex, hDescriptor, hCovered⟩
    exact ⟨key, entry, hex, hEntry, hChannel, hHex, descriptor, hDescriptor, (hInputs _).mpr hCovered⟩
  · rintro ⟨key, entry, hex, hEntry, hChannel, hHex, descriptor, hDescriptor, hInput⟩
    exact ⟨key, entry, hex, descriptor, hEntry, hChannel, hHex, hDescriptor, (hInputs _).mp hInput⟩

include hReads hInputs in
theorem spentText_iff {m : BatchMember} (hm : m ∈ g.batch) :
    SpentText signer tx m.hex ↔ Covered sent coins m.descriptor.previousOutput := by
  rw [← hInputs]
  constructor
  · rintro ⟨descriptor, hDescriptor, hInput⟩
    cases (hReads m hm).descriptorOf.symm.trans hDescriptor
    exact hInput
  · exact fun hInput => ⟨m.descriptor, (hReads m hm).descriptorOf, hInput⟩

include hWalked hReads in
/-- The channel of a member that is sent is one with an output that is spent. -/
theorem touched_of_sent {m : BatchMember} (hm : m ∈ g.batch) (hSent : m ∈ sent) {channel : String}
    (hChannel : channelOf before m = some channel) : Touched signer before sent coins channel := by
  obtain ⟨entry, hEntry, hHex⟩ := hWalked.origin m hm
  rw [channelOf, hEntry] at hChannel
  exact ⟨_, entry, _, _, hEntry, hChannel, hHex, (hReads m hm).descriptorOf, .inl ⟨m, hSent, rfl⟩⟩

include hOrderly hWalked hReads hInputs hLeft hAfter

theorem Attributable.exact (h : Attributable signer before g.batch sent coins) :
    Exact signer before atCommit after tx g.channels.dedup where
  attributed channel := by
    rw [List.mem_dedup, hWalked.channels, ← touched_iff hInputs]
    constructor
    · rintro ⟨m, hm, hChannel⟩
      by_cases hSent : m ∈ sent
      · exact touched_of_sent hWalked hReads hm hSent hChannel
      · exact h.served m hm hSent channel hChannel
    · rintro ⟨key, entry, hex, descriptor, hEntry, hChannel, hHex, hDescriptor, hCovered⟩
      by_cases hKey : ∃ m ∈ g.batch, m.entryKey = key
      · obtain ⟨m, hm, rfl⟩ := hKey
        refine ⟨m, hm, ?_⟩
        rw [channelOf, hEntry]
        exact hChannel
      · exact h.told key entry hex descriptor channel hEntry (fun m hm hIs => hKey ⟨m, hm, hIs⟩) hHex hDescriptor
          hCovered hChannel
  deleted key entry hEntry := by
    rw [entryAt_committed hOrderly.writes hAfter]
    split_ifs with hKey
    · simp only [true_iff]
      intro hex hHex
      obtain ⟨m, hm, rfl, hTexts⟩ := hLeft.texts key hKey entry hEntry hex hHex
      rw [spentText_iff hReads hInputs hm]
      by_cases hSent : m ∈ sent
      · exact .inl ⟨m, hSent, rfl⟩
      · exact (h.found m hm hSent).resolve_left (hTexts hSent)
    · constructor
      · intro hGone
        rw [hEntry] at hGone
        cases hGone
      · intro hAll
        rw [hLeft.others key hKey] at hEntry
        obtain ⟨hex, hHex, hNone⟩ := not_decodes_iff.mp (hWalked.broken hOrderly hKey hEntry)
        obtain ⟨descriptor, hDescriptor, -⟩ := hAll hex hHex
        rw [hNone] at hDescriptor
        cases hDescriptor

theorem Exact.attributable (h : Exact signer before atCommit after tx g.channels.dedup) :
    Attributable signer before g.batch sent coins where
  told key entry hex descriptor channel hEntry _ hHex hDescriptor hCovered hChannel := by
    have hTouched : Touched signer before sent coins channel :=
      ⟨key, entry, hex, descriptor, hEntry, hChannel, hHex, hDescriptor, hCovered⟩
    rw [← hWalked.channels, ← List.mem_dedup, h.attributed, ← touched_iff hInputs]
    exact hTouched
  served m hm _ channel hChannel := by
    rw [touched_iff hInputs, ← h.attributed, List.mem_dedup, hWalked.channels]
    exact ⟨m, hm, hChannel⟩
  found m hm hUnsent := by
    by_cases hText : m.hex = hexStr m.bytes
    · exact .inl hText
    · obtain ⟨entry, hEntry, hHex⟩ := hLeft.kept m hm hUnsent hText
      have hGone : after.entryAt m.entryKey = none := by
        rw [entryAt_committed hOrderly.writes hAfter, if_pos ((hWalked.batchKeys _).mpr ⟨m, hm, rfl⟩)]
      exact .inr ((spentText_iff hReads hInputs hm).mp ((h.deleted _ entry hEntry).mp hGone _ hHex))

end Commit

variable (env) in
/-- A file of the batch after the prune holds the texts of its members. -/
theorem Walked.swept_stored {before : SweepStore} {g : Gathered} {key : String}
    (hWalked : Walked signer before (before.entries env.listing.dedup) [] g) (hKey : key ∈ g.batchKeys) :
    ∃ entry, (g.swept env).store.entryAt key = some entry ∧
      ∀ hex, hex ∈ entry.descriptors ↔ ∃ m ∈ g.batch, m.entryKey = key ∧ m.hex = hex := by
  obtain ⟨hKept, entry, hEntry, hTexts⟩ := hWalked.stored key hKey
  refine ⟨entry, ?_, hTexts⟩
  rw [Gathered.swept, SweepStore.entryAt_removeEntries, if_neg (fun h => hKept h.1)]
  exact hEntry

theorem mem_removedEntry {poisoned : List BatchMember} {entry : StoredEntry} {hex : String} :
    hex ∈ (removedEntry poisoned entry).descriptors ↔ hex ∈ entry.descriptors ∧ ∀ m ∈ poisoned, hexStr m.bytes ≠ hex := by
  simp [removedEntry]

theorem Walked.relisted {before : SweepStore} {g : Gathered} (hOrderly : Orderly env before)
    (hWalked : Walked signer before (before.entries env.listing.dedup) [] g) {m : BatchMember} (hm : m ∈ g.batch) :
    m.entryKey ∈ env.relisting := by
  obtain ⟨entry, hEntry, -⟩ := hWalked.origin m hm
  exact hOrderly.relisted _ entry hEntry

theorem Walked.leftOver_whole {before : SweepStore} {g : Gathered}
    (hWalked : Walked signer before (before.entries env.listing.dedup) [] g) :
    LeftOver g g.batch (g.swept env).store (g.swept env).store where
  others _ _ := rfl
  texts key hKey entry hEntry hex hHex := by
    obtain ⟨stored, hStored, hMembers⟩ := hWalked.swept_stored env hKey
    cases hStored.symm.trans hEntry
    obtain ⟨m, hm, -, hText⟩ := (hMembers hex).mp hHex
    exact ⟨m, hm, hText, fun hUnsent => absurd hm hUnsent⟩
  kept m hm hUnsent := absurd hm hUnsent

theorem mem_unsent {batch : List BatchMember} {unsignable : BatchMember → Bool} {m : BatchMember} (hm : m ∈ batch)
    (hUnsent : m ∉ batch.filter fun m => !unsignable m) : m ∈ batch.filter unsignable := by
  rw [List.mem_filter]
  simpa [hm] using hUnsent

/-- Members are taken out by the hex of their bytes. -/
theorem Walked.leftOver_poisoned {before : SweepStore} {g : Gathered} (hOrderly : Orderly env before)
    (hWalked : Walked signer before (before.entries env.listing.dedup) [] g) (hReads : ∀ m ∈ g.batch, m.Reads signer)
    (unsignable : BatchMember → Bool) :
    LeftOver g (g.batch.filter fun m => !unsignable m) (g.swept env).store
      (removeMembers (g.swept env).store env (g.batch.filter unsignable)) where
  others key hKey := by
    refine removeMembers_unaffected ?_
    rintro m hm rfl
    exact hKey ((hWalked.batchKeys _).mpr ⟨m, (List.mem_filter.mp hm).1, rfl⟩)
  texts key hKey entry hEntry hex hHex := by
    obtain ⟨stored, hStored, hMembers⟩ := hWalked.swept_stored env hKey
    by_cases hAffected : ∃ m ∈ g.batch.filter unsignable, m.entryKey = key
    · obtain ⟨poisoned, hPoisoned, rfl⟩ := hAffected
      have hListed := hWalked.relisted hOrderly (List.mem_filter.mp hPoisoned).1
      obtain hRewritten | ⟨hGone, -⟩ :=
        removeMembers_affected hOrderly.writes hStored hListed ⟨poisoned, hPoisoned, rfl⟩
      · cases hRewritten.symm.trans hEntry
        obtain ⟨hMem, hClean⟩ := mem_removedEntry.mp hHex
        obtain ⟨m, hm, -, rfl⟩ := (hMembers hex).mp hMem
        exact ⟨m, hm, rfl, fun hOut hText => hClean m (mem_unsent hm hOut) hText.symm⟩
      · rw [hGone] at hEntry
        cases hEntry
    · rw [removeMembers_unaffected fun m hm hIs => hAffected ⟨m, hm, hIs⟩, hStored] at hEntry
      cases hEntry
      obtain ⟨m, hm, hIs, rfl⟩ := (hMembers hex).mp hHex
      exact ⟨m, hm, rfl, fun hOut _ => hAffected ⟨m, mem_unsent hm hOut, hIs⟩⟩
  kept m hm hUnsent hText := by
    have hPoisoned : m ∈ g.batch.filter unsignable := mem_unsent hm hUnsent
    obtain ⟨entry, hEntry, hStored⟩ := hWalked.swept_stored env ((hWalked.batchKeys _).mpr ⟨m, hm, rfl⟩)
    -- two texts of the same bytes, of which only the one in small letters is looked for
    have hMem : m.hex ∈ (removedEntry (g.batch.filter unsignable) entry).descriptors := by
      refine mem_removedEntry.mpr ⟨(hStored _).mpr ⟨m, hm, rfl, rfl⟩, ?_⟩
      intro m' _ hSame
      have hBytes := (hReads m hm).decodes
      rw [← hSame, decodeHex_hexStr, DecodedHex.bytes.injEq] at hBytes
      exact hText (by rw [← hSame, hBytes])
    obtain hRewritten | ⟨-, hNone⟩ := removeMembers_affected hOrderly.writes hEntry (hWalked.relisted hOrderly hm)
      ⟨m, hPoisoned, rfl⟩
    · exact ⟨_, hRewritten, hMem⟩
    · rw [hNone] at hMem
      cases hMem

theorem Walked.leftOver {before : SweepStore} {g : Gathered} (hOrderly : Orderly env before)
    (hWalked : Walked signer before (before.entries env.listing.dedup) [] g) (hReads : ∀ m ∈ g.batch, m.Reads signer)
    (destination : Script) :
    let spent := spendSignable signer env (g.swept env).store g.batch destination
    spent.2.1 = sentMembers signer env g.batch destination ∧ LeftOver g spent.2.1 (g.swept env).store spent.1 := by
  intro spent
  obtain ⟨hStore, hBatch, hWhole⟩ | ⟨poisoned, rfl, -, hSpend, hStore, hBatch⟩ :=
    (spendSignable_cases signer env destination (g.swept env).store g.batch).1
  · rw [show spent.1 = _ from hStore, show spent.2.1 = _ from hBatch]
    refine ⟨?_, hWalked.leftOver_whole⟩
    rw [sentMembers]
    split_ifs with hSome
    · rfl
    · refine (List.filter_eq_self.mpr fun m hm => ?_).symm
      rw [hWhole.resolve_left hSome m hm, Bool.not_false]
  · rw [show spent.1 = _ from hStore, show spent.2.1 = _ from hBatch]
    refine ⟨?_, hWalked.leftOver_poisoned hOrderly hReads _⟩
    rw [sentMembers, hSpend]
    rfl

end

/-! ## One pass -/

/-- Where listings are complete and writes go through, a committed sweep is attributed exactly if nothing is spent
of an entry that is told nothing, and every member that was taken out has its channel served and its text found. -/
theorem attribution_exact_iff (signer : Signer) (keys : Descriptors) (env : PassEnv) (e : SweepEngine) (txid : String)
    (hLawful : signer.Lawful) (hOrderly : Orderly env e.store)
    (hCommitted : ∃ summary ∈ (sweepOnce signer keys env e).summary, summary.txid = some txid) :
    let r := sweepOnce signer keys env e
    let g := (prune signer keys env.revealError (env.storeFails .pruneEntry) (env.storeFails .removeEmptied) e.store
      e.wallet env.listing).2
    let destination := keys.spk .external (g.wallet.live.revealed .external)
    let wallet := (g.wallet.revealNextExternalScript env.destinationError).2
    let sent := sentMembers signer env g.batch destination
    r.engine.closeRecords = recordSweepTx e.closeRecords txid g.channels.dedup env.nowMs ∧
    ∃ tx, r.submitted = some tx ∧ tx.txid = txid ∧
      (Exact signer e.store (spendSignable signer env g.store g.batch destination).1 r.engine.store tx g.channels.dedup ↔
        Attributable signer e.store g.batch sent
          (addedCoins signer keys env destination wallet e.spentSubsidyOutpoints sent)) := by
  obtain ⟨summary, hSummary, hTxid⟩ := hCommitted
  obtain ⟨-, -, -, hNone⟩ | ⟨panicked, g, hRun, hCases⟩ := sweepOnce_cases signer keys env e
  · rw [hNone summary hSummary] at hTxid
    cases hTxid
  · obtain ⟨-, -, -, -, hPanicked⟩ | ⟨rfl, e', r', hStore', hWallet', hRecords', hReserved', rfl, hStore, -, hRecords,
      hSame, hSubmitted⟩ := hCases
    · rw [hPanicked] at hSummary
      cases hSummary
    · rw [hSame] at hSummary
      have hPrune : prune signer keys env.revealError (env.storeFails .pruneEntry) (env.storeFails .removeEmptied)
          e.store e.wallet env.listing = (false, g.swept env) := by
        rw [prune, hRun]
        rfl
      rw [hPrune]
      have hWalked := walked_gathered (hOrderly.writes .pruneEntry) hRun
      have hReads : ∀ m ∈ g.batch, m.Reads signer := batch_reads rfl rfl hRun
      obtain ⟨-, hKept | hKept | ⟨tx, -, hSent, hCommit⟩⟩ := sweepGathered_cases signer keys env e' (g.swept env)
      · rw [hKept.txid summary hSummary] at hTxid
        cases hTxid
      · rw [hKept.txid summary hSummary] at hTxid
        cases hTxid
      · obtain ⟨summary', hSummary', hTxid'⟩ := hCommit.txid
        cases Option.some.inj (hSummary'.symm.trans hSummary)
        cases Option.some.inj (hTxid'.symm.trans hTxid)
        refine ⟨?_, tx, hSubmitted.trans hCommit.submitted, rfl, ?_⟩
        · rw [hRecords, hCommit.records, hRecords']
        · have hAfter := hCommit.files
          rw [hStore', hWallet'] at hAfter
          rw [hStore', hWallet', hReserved'] at hSent
          rw [← hStore] at hAfter
          obtain ⟨hBatch, hLeft⟩ := hWalked.leftOver hOrderly hReads
            (keys.spk .external (g.wallet.live.revealed .external))
          have hInputs := hSent.mem_inputs hLawful
          rw [show (spendSignable signer env (g.swept env).store (g.swept env).batch _).2.1 = _ from hBatch] at hInputs
          rw [hBatch] at hLeft
          change Exact signer e.store (spendSignable signer env (g.swept env).store g.batch _).1 _ tx g.channels.dedup ↔
            Attributable signer e.store g.batch _ _
          constructor
          · exact fun h => h.attributable hOrderly hWalked hReads hInputs hLeft hAfter
          · exact fun h => h.exact hOrderly hWalked hReads hInputs hLeft hAfter

theorem demoEngine_entryAt {entries : List (String × StoredEntry)} {key : String} {entry : StoredEntry}
    (h : (demoEngine entries).store.entryAt key = some entry) : (key, entry) ∈ entries := by
  have hFiles : (demoEngine entries).store.files = .ofPairs (entries.map fun e => (e.1, encodeEntry e.2)) := by
    rw [StringMap.ofPairs, StringMap.insertAll, List.foldl_map]
    rfl
  rw [SweepStore.entryAt, hFiles] at h
  obtain ⟨bytes, hBytes, hRead⟩ := Option.bind_eq_some_iff.mp h
  obtain ⟨stored, hStored, hSame⟩ := List.mem_map.mp (StringMap.mem_of_lookup_ofPairs hBytes)
  cases hSame
  rw [decodeEntry_encodeEntry] at hRead
  cases hRead
  exact hStored

/-- Three bytes stand for an output that pays the wallet's first script. -/
def mixedSigner : Signer :=
  { demoSigner with
    read := fun
      | [n, _, _] => some (.staticOutput ⟨Nat.repr n.toNat, 2⟩ ⟨100000, demoKeys.spk .external 0⟩ none)
      | bytes => demoSigner.read bytes }

theorem mixedSigner_lawful : mixedSigner.Lawful where
  spends h := @Signer.Lawful.spends demoSigner demoSigner_lawful _ _ 0 _ h
  creates h := @Signer.Lawful.creates demoSigner demoSigner_lawful _ _ 0 _ _ h
  signs h := demoSigner_lawful.signs h
  signsTrusted h := demoSigner_lawful.signsTrusted h
  extracts h := demoSigner_lawful.extracts h

/-- An output of the wallet beside one of the channel, a copy of that, a member that cannot be signed beside one that
can, an output beside a text that is no hex, and an output of the wallet alone. -/
def mixedEntries : List (String × StoredEntry) :=
  [("a", ⟨["00", "050505"], some "c", []⟩), ("b", ⟨["00"], some "c", []⟩), ("d", ⟨["0001", "01"], some "d", []⟩),
    ("e", ⟨["02", "zz"], some "e", []⟩), ("f", ⟨["060606"], some "f", []⟩)]

def mixedEnv : PassEnv := { demoEnv (mixedEntries.map Prod.fst) .ok with urgentSatPerKw := 500000 }

def mixedMember (hex : String) (bytes : List UInt8) (key : String) : BatchMember :=
  ⟨hex, bytes, (demoSigner.read bytes).getD demoOutput, key⟩

theorem mixedEntries_attributable : Attributable mixedSigner (demoEngine mixedEntries).store
    [mixedMember "00" [0] "a", mixedMember "0001" [0, 1] "d", mixedMember "01" [1] "d"]
    [mixedMember "00" [0] "a", mixedMember "01" [1] "d"] [] where
  told key entry hex descriptor channel hEntry := by
    have hCases : ∀ e ∈ mixedEntries, (∀ m ∈ [mixedMember "00" [0] "a", mixedMember "0001" [0, 1] "d",
        mixedMember "01" [1] "d"], m.entryKey ≠ e.1) → ∀ hex ∈ e.2.descriptors, ∀ descriptor ∈ mixedSigner.descriptorOf hex,
        Covered [mixedMember "00" [0] "a", mixedMember "01" [1] "d"] [] descriptor.previousOutput →
        ∀ channel ∈ e.2.channelIdHex, ∃ m ∈ [mixedMember "00" [0] "a", mixedMember "0001" [0, 1] "d",
          mixedMember "01" [1] "d"], channelOf (demoEngine mixedEntries).store m = some channel := by decide +kernel
    exact fun hKey hHex hDescriptor hCovered hChannel =>
      hCases (key, entry) (demoEngine_entryAt hEntry) hKey hex hHex descriptor hDescriptor hCovered channel hChannel
  served := by
    have hTouched : Touched mixedSigner (demoEngine mixedEntries).store
        [mixedMember "00" [0] "a", mixedMember "01" [1] "d"] [] "d" :=
      ⟨"d", ⟨["0001", "01"], some "d", []⟩, "01", mixedMember "01" [1] "d" |>.descriptor, by decide +kernel, rfl,
        by decide, by decide +kernel, by decide +kernel⟩
    intro m hm hUnsent channel hChannel
    have hCases : ∀ m ∈ [mixedMember "00" [0] "a", mixedMember "0001" [0, 1] "d", mixedMember "01" [1] "d"],
        m ∉ [mixedMember "00" [0] "a", mixedMember "01" [1] "d"] →
        ∀ channel ∈ channelOf (demoEngine mixedEntries).store m, channel = "d" := by decide +kernel
    rw [hCases m hm hUnsent channel hChannel]
    exact hTouched
  found := by decide +kernel

theorem mixed_entries_attributed :
    let e := demoEngine mixedEntries
    let r := sweepOnce mixedSigner demoKeys mixedEnv e
    let g := (prune mixedSigner demoKeys (fun _ => none) (fun _ => false) (fun _ => false) e.store e.wallet
      mixedEnv.listing).2
    r.engine.closeRecords = recordSweepTx e.closeRecords "sweep" ["c", "d"] 0 ∧
    ∃ tx, r.submitted = some tx ∧ tx.txid = "sweep" ∧
      Exact mixedSigner e.store (spendSignable mixedSigner mixedEnv g.store g.batch (demoKeys.spk .external 0)).1
        r.engine.store tx ["c", "d"] := by
  have hOrderly : Orderly mixedEnv (demoEngine mixedEntries).store := by
    have hListed : ∀ key entry, (demoEngine mixedEntries).store.entryAt key = some entry →
        key ∈ mixedEntries.map Prod.fst := fun key entry hEntry => List.mem_map_of_mem (demoEngine_entryAt hEntry)
    exact ⟨hListed, hListed, fun _ _ => rfl⟩
  obtain ⟨hRecords, tx, hSubmitted, hTxid, hExact⟩ := attribution_exact_iff mixedSigner demoKeys mixedEnv
    (demoEngine mixedEntries) "sweep" mixedSigner_lawful hOrderly (by decide +kernel)
  refine ⟨hRecords, tx, hSubmitted, hTxid, hExact.mpr ?_⟩
  exact mixedEntries_attributable

theorem unsignable_channel_attributed :
    let e := demoEngine [("a", ⟨["00"], some "c", []⟩), ("b", ⟨["0001"], some "d", []⟩)]
    let r := sweepOnce demoSigner demoKeys (demoEnv ["a", "b"] .ok) e
    e.store.entryAt "a" = some ⟨["00"], some "c", []⟩ ∧ e.store.entryAt "b" = some ⟨["0001"], some "d", []⟩ ∧
    (demoSigner.descriptorOf "0001").map (·.previousOutput) = some ⟨"0", 1⟩ ∧
    r.submitted.map (·.inputs) = some [⟨"0", 0⟩] ∧
    (r.engine.closeRecords.get "d").map (·.txs.map (·.txid)) = some ["sweep"] := by
  decide

end WalletCore.Sweep
