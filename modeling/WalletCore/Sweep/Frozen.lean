import WalletCore.Sweep.Prune

/-! # What the prune leaves out of the batch

A text counts as seen once an entry has read it, and an entry that does not decode as a whole is left
out of the batch. So a text is swept only if the first entry that reads it decodes, and only if no text
ends the walk.
-/

namespace WalletCore.Sweep

open Lib
open Wallet hiding Psbt

/-! ## What a walk reads -/

section

variable (signer : Signer)

/-- The texts before the first that does not decode. -/
def Signer.reads (entry : StoredEntry) : List String := entry.descriptors.takeWhile signer.readable

def Signer.Decodes (entry : StoredEntry) : Prop := ∀ hex ∈ entry.descriptors, signer.readable hex = true

instance (entry : StoredEntry) : Decidable (signer.Decodes entry) :=
  inferInstanceAs (Decidable (∀ hex ∈ entry.descriptors, signer.readable hex = true))

/-- The first text that does not decode cannot even be cut into bytes. -/
def Signer.Panics (entry : StoredEntry) : Prop :=
  ∃ hex ∈ entry.descriptors.find? (!signer.readable ·), decodeHex hex = .panics

instance (entry : StoredEntry) : Decidable (signer.Panics entry) :=
  inferInstanceAs (Decidable (∃ hex ∈ entry.descriptors.find? (!signer.readable ·), decodeHex hex = .panics))

def Signer.firstReader (entries : List (String × StoredEntry)) (hex : String) : Option (String × StoredEntry) :=
  entries.find? fun e => hex ∈ signer.reads e.2

end

section

variable {signer : Signer} {keys : Descriptors} {revealError : String → Option String} {pruneFails : String → Bool}

theorem Signer.Decodes.reads {entry : StoredEntry} (h : signer.Decodes entry) : signer.reads entry = entry.descriptors :=
  List.takeWhile_eq_self_iff.mpr h

theorem gatherEntries_panics_iff {entries : List (String × StoredEntry)} {g : Gathered}
    (hSeen : ∀ hex ∈ g.seen, signer.readable hex = true) :
    (gatherEntries signer keys revealError pruneFails entries g).1 = true ↔ ∃ e ∈ entries, signer.Panics e.2 := by
  induction entries generalizing g with
  | nil => simp [gatherEntries]
  | cons first rest ih =>
    obtain ⟨key, entry⟩ := first
    obtain ⟨taken, hStep⟩ : ∃ taken, GatherStep signer keys pruneFails g key entry taken
      (g.entry signer keys revealError pruneFails key entry) := g.entry_step hSeen key entry
    have hPanics : (g.entry signer keys revealError pruneFails key entry).1 = .panicked ↔ signer.Panics entry :=
      hStep.panicked_iff
    rw [gatherEntries_cons]
    simp only [List.mem_cons, exists_eq_or_imp]
    split
    · next hPanicked => simp [hPanics.mp hPanicked]
    · next hGoesOn =>
      rw [ih (hStep.readable_seen hSeen)]
      simp [mt hPanics.mpr hGoesOn]

/-- How often a text is in the batch, from whether it was seen and which entry was the first to read it. -/
def Counted (signer : Signer) (entries : List (String × StoredEntry)) (hex : String) (rest : List (String × StoredEntry))
    (g : Gathered) : Prop :=
  hex ∉ g.seen ∧ signer.firstReader entries hex = signer.firstReader rest hex ∧ (g.batch.map (·.hex)).count hex = 0 ∨
  hex ∈ g.seen ∧ ∃ e, signer.firstReader entries hex = some e ∧
    (g.batch.map (·.hex)).count hex = if signer.Decodes e.2 then 1 else 0

theorem GatherStep.count_taken_old {g : Gathered} {key : String} {entry : StoredEntry} {taken : List BatchMember}
    {result : ScanEnd × Gathered} (h : GatherStep signer keys pruneFails g key entry taken result) {hex : String}
    (hOld : hex ∈ g.seen) : (taken.map (·.hex)).count hex = 0 := by
  rw [List.count_eq_zero]
  intro hMem
  obtain ⟨m, hm, rfl⟩ := List.mem_map.mp hMem
  exact (h.reads m hm).2.1 hOld

theorem GatherStep.taken_reads {g : Gathered} {key : String} {entry : StoredEntry} {taken : List BatchMember}
    {result : ScanEnd × Gathered} (h : GatherStep signer keys pruneFails g key entry taken result) {hex : String}
    (hMem : hex ∈ taken.map (·.hex)) : hex ∈ signer.reads entry := by
  have hSome : taken ≠ [] := by
    rintro rfl
    cases hMem
  have hDecodes : signer.Decodes entry := h.done_iff.mp (h.taken_done hSome)
  rw [hDecodes.reads]
  exact h.sublist.subset hMem

theorem Counted.step {entries rest : List (String × StoredEntry)} {hex key : String} {g : Gathered} {entry : StoredEntry}
    {taken : List BatchMember} {result : ScanEnd × Gathered} {descriptor : SpendableOutputDescriptor}
    (hCounted : Counted signer entries hex ((key, entry) :: rest) g)
    (h : GatherStep signer keys pruneFails g key entry taken result)
    (hReads : signer.descriptorOf hex = some descriptor) (hOwned : ¬ WalletOwned keys result.2.wallet descriptor) :
    Counted signer entries hex rest result.2 := by
  have hCount : (result.2.batch.map (·.hex)).count hex =
      (g.batch.map (·.hex)).count hex + (taken.map (·.hex)).count hex := by
    rw [h.batch, List.map_append, List.count_append]
  have hSeen : hex ∈ result.2.seen ↔ hex ∈ g.seen ∨ hex ∈ signer.reads entry := by
    rw [h.seen, Finset.mem_union, List.mem_toFinset]
    rfl
  obtain ⟨hNew, hFirst, hNone⟩ | ⟨hOld, e, hFirst, hBefore⟩ := hCounted
  · by_cases hHere : hex ∈ signer.reads entry
    · refine .inr ⟨hSeen.mpr (.inr hHere), (key, entry), ?_, ?_⟩
      · rw [hFirst, Signer.firstReader, List.find?_cons_of_pos (by simpa using hHere)]
      · rw [hCount, hNone, Nat.zero_add]
        split
        · next hDecodes =>
          have hHex : hex ∈ entry.descriptors := hDecodes.reads ▸ hHere
          exact List.count_eq_one_of_mem h.nodup
            (h.kept (h.done_iff.mpr hDecodes) hex hHex hNew descriptor hReads hOwned)
        · next hBroken =>
          have hNoneTaken : taken = [] := by
            by_contra hSome
            exact hBroken (h.done_iff.mp (h.taken_done hSome))
          rw [hNoneTaken]
          rfl
    · refine .inl ⟨by simp [hSeen, hNew, hHere], ?_, ?_⟩
      · rw [hFirst, Signer.firstReader, List.find?_cons_of_neg (by simpa using hHere)]
        rfl
      · rw [hCount, hNone, List.count_eq_zero.mpr (mt h.taken_reads hHere)]
  · refine .inr ⟨hSeen.mpr (.inl hOld), e, hFirst, ?_⟩
    rw [hCount, h.count_taken_old hOld, hBefore, Nat.add_zero]

/-- A walk that ends has a text in the batch as often as its first reader decodes. -/
theorem count_batch_eq_one_iff {entries : List (String × StoredEntry)} {g final : Gathered} {hex : String}
    {descriptor : SpendableOutputDescriptor}
    (hRun : gatherEntries signer keys revealError pruneFails entries g = (false, final)) (hSeen : g.seen = ∅)
    (hBatch : g.batch = []) (hReads : signer.descriptorOf hex = some descriptor)
    (hOwned : ¬ WalletOwned keys final.wallet descriptor) :
    (final.batch.map (·.hex)).count hex = 1 ↔ ∃ e ∈ signer.firstReader entries hex, signer.Decodes e.2 := by
  have hStart : Counted signer entries hex entries g := .inl ⟨by simp [hSeen], rfl, by simp [hBatch]⟩
  obtain ⟨rest, hCounted, -, hNone⟩ := gatherEntries_induct (P := Counted signer entries hex)
    (fun _ _ _ _ _ _ hCounted hStep hLive =>
      hCounted.step hStep hReads fun hNow => hOwned (hNow.mono hLive)) hStart (by simp [hSeen]) hRun
  rw [hNone rfl] at hCounted
  obtain ⟨-, hFirst, hCount⟩ | ⟨-, e, hFirst, hCount⟩ := hCounted
  · have hNobody : signer.firstReader entries hex = none := hFirst
    simp [hNobody, hCount]
  · simp [hFirst, hCount]

end

/-! ## Which descriptors are swept -/

/-- A descriptor that decodes and is not the wallet's is in the batch, once, exactly if the walk comes to
its end and the first entry that reads it decodes. Otherwise some file keeps it. -/
theorem batched_once_iff (signer : Signer) (keys : Descriptors) (revealError : String → Option String)
    (pruneFails emptyFails : String → Bool) (store : SweepStore) (wallet : OnchainWallet) (listing : List String)
    (hex : String) (descriptor : SpendableOutputDescriptor) (hReads : signer.descriptorOf hex = some descriptor)
    (hOwned : ¬ WalletOwned keys (prune signer keys revealError pruneFails emptyFails store wallet listing).2.wallet
      descriptor)
    (hStored : ∃ e ∈ store.entries listing.dedup, hex ∈ e.2.descriptors ∧ signer.Decodes e.2) :
    let result := prune signer keys revealError pruneFails emptyFails store wallet listing
    (result.1 = false ∧ (result.2.batch.map (·.hex)).count hex = 1 ↔
      (∀ e ∈ store.entries listing.dedup, ¬ signer.Panics e.2) ∧
      ∃ e ∈ signer.firstReader (store.entries listing.dedup) hex, signer.Decodes e.2) ∧
    (hex ∉ result.2.batch.map (·.hex) → ∃ key, result.2.store.Holds key hex) := by
  obtain ⟨panicked, final, hRun⟩ : ∃ panicked final,
      gatherEntries signer keys revealError pruneFails (store.entries listing.dedup) (.start store wallet) =
        (panicked, final) := ⟨_, _, rfl⟩
  have hPanics : panicked = true ↔ ∃ e ∈ store.entries listing.dedup, signer.Panics e.2 := by
    have hIff : (gatherEntries signer keys revealError pruneFails (store.entries listing.dedup)
      (.start store wallet)).1 = true ↔ _ := gatherEntries_panics_iff (by simp [Gathered.start])
    rwa [hRun] at hIff
  obtain ⟨e, he, hHex, -⟩ := hStored
  have hHolds : store.Holds e.1 hex := ⟨e.2, (SweepStore.mem_entries.mp he).2, hHex⟩
  intro result
  cases panicked with
  | true =>
    have hResult : result = (true, final) := by
      dsimp only [result, prune]
      rw [hRun]
      rfl
    change ¬ WalletOwned keys result.2.wallet descriptor at hOwned
    rw [hResult] at hOwned ⊢
    constructor
    · constructor
      · rintro ⟨⟨⟩, -⟩
      · rintro ⟨hWalks, -⟩
        obtain ⟨e, he, hPanic⟩ := hPanics.mp rfl
        exact absurd hPanic (hWalks e he)
    · intro _
      obtain ⟨key, hKeeps⟩ := gatherEntries_keeps hRun hHolds hReads hOwned
      exact ⟨key, hKeeps.1⟩
  | false =>
    have hResult : result = (false, { final with store := final.store.removeEntries final.emptiedKeys emptyFails }) := by
      dsimp only [result, prune]
      rw [hRun]
      rfl
    change ¬ WalletOwned keys result.2.wallet descriptor at hOwned
    rw [hResult] at hOwned ⊢
    have hWalks : ∀ e ∈ store.entries listing.dedup, ¬ signer.Panics e.2 := by simpa using hPanics
    constructor
    · rw [count_batch_eq_one_iff hRun rfl rfl hReads hOwned]
      constructor
      · rintro ⟨-, hFirst⟩
        exact ⟨hWalks, hFirst⟩
      · rintro ⟨-, hFirst⟩
        exact ⟨rfl, hFirst⟩
    · intro _
      obtain ⟨key, ⟨entry, hEntry, hMem⟩, hEmptied, -⟩ := gatherEntries_keeps hRun hHolds hReads hOwned
      refine ⟨key, entry, ?_, hMem⟩
      rw [SweepStore.entryAt_removeEntries, if_neg (fun h => hEmptied h.1)]
      exact hEntry

/-- One output under two keys. The first entry has a text behind it that does not decode. -/
def demoReplayed (second : String) : SweepStore :=
  .new ((∅ : StringMap Bytes).insert "a" (encodeEntry ⟨["00", second], some "c", []⟩) |>.insert "b"
    (encodeEntry ⟨["00"], some "c", []⟩))

theorem replayed_output_batched_once :
    let result := prune demoSigner demoKeys (fun _ => none) (fun _ => false) (fun _ => false) (demoReplayed "01")
      demoWallet ["a", "b"]
    demoSigner.Decodes ⟨["00", "01"], some "c", []⟩ ∧ result.1 = false ∧ (result.2.batch.map (·.hex)).count "00" = 1 :=
  ⟨by decide, (batched_once_iff demoSigner demoKeys (fun _ => none) (fun _ => false) (fun _ => false)
    (demoReplayed "01") demoWallet ["a", "b"] "00" (.delayedPaymentOutput ⟨"0", 0⟩ ⟨100000, [0]⟩ 144 []) rfl
    (by decide) (by decide)).1.mpr ⟨by decide, by decide⟩⟩

theorem replayed_output_frozen :
    let result := prune demoSigner demoKeys (fun _ => none) (fun _ => false) (fun _ => false) (demoReplayed "zz")
      demoWallet ["a", "b"]
    let descriptor := .delayedPaymentOutput ⟨"0", 0⟩ ⟨100000, [0]⟩ 144 []
    demoSigner.descriptorOf "00" = some descriptor ∧ ¬ WalletOwned demoKeys result.2.wallet descriptor ∧
    (demoReplayed "zz").entryAt "b" = some ⟨["00"], some "c", []⟩ ∧
    result.1 = false ∧ result.2.batch = [] ∧ result.2.store.entryAt "b" = none := by
  decide

end WalletCore.Sweep
