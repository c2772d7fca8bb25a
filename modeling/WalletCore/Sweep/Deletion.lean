import WalletCore.Lib.Transition
import WalletCore.Sweep.Pass

/-! # When a descriptor leaves the store

A descriptor that can be signed and is not the wallet's leaves the store only with a committed batch, and
the batch's transaction spends its output. What is left to the backend is whether its answer is true: a
plain spend is committed on any error text that is taken for benign.
-/

namespace WalletCore.Sweep

open Lib
open Restore (hexStr)
open Wallet hiding Psbt

/-! ## Runs -/

inductive SweepEvent where
  | pass (env : PassEnv)
  | track (listing : List String) (outputs : List (SpendableOutputDescriptor × Option String))
      (channelIdHex : Option String) (key : String) (fails : Bool)

/-- The key of a new entry is random, so it names no file yet. -/
def SweepEvent.step (signer : Signer) (keys : Descriptors) (e : SweepEngine) : SweepEvent → Option SweepEngine
  | pass env => some (sweepOnce signer keys env e).engine
  | track listing outputs channelIdHex key fails =>
    if (e.store.files.lookup key).isSome then none
    else some (trackSpendableOutputs signer keys e listing outputs channelIdHex key fails).2

/-- Some file holds a text of the descriptor. -/
def Stored (signer : Signer) (store : SweepStore) (descriptor : SpendableOutputDescriptor) : Prop :=
  ∃ key hex, store.Holds key hex ∧ signer.descriptorOf hex = some descriptor

/-- A pass broadcast a spend of the descriptor's output, and the backend took it or the chain knows it. -/
def Backed (signer : Signer) (keys : Descriptors) (env : PassEnv) (e : SweepEngine)
    (descriptor : SpendableOutputDescriptor) : Prop :=
  ∃ tx, (sweepOnce signer keys env e).submitted = some tx ∧ descriptor.previousOutput ∈ tx.inputs ∧ env.Truth tx

/-- A spend of descriptors only that is answered with a benign error is one that the chain knows. -/
def PassEnv.Truthful (signer : Signer) (env : PassEnv) : Prop :=
  ∀ descriptors destination rate tx, signer.spendSpendableOutputs descriptors destination rate = some tx →
    (env.broadcast tx).benign = true → env.chainKnows tx.txid = true

def SweepEvent.Truthful (signer : Signer) : SweepEvent → Prop
  | pass env => env.Truthful signer
  | track .. => True

/-! ## One pass -/

section

variable {signer : Signer} {keys : Descriptors} {env : PassEnv} {e : SweepEngine} {descriptor : SpendableOutputDescriptor}

theorem SweepStore.Holds.congr {store store' : SweepStore} (h : store'.files = store.files) {key hex : String}
    (hHolds : store.Holds key hex) : store'.Holds key hex := by
  obtain ⟨entry, hEntry, hHex⟩ := hHolds
  refine ⟨entry, ?_, hHex⟩
  rw [SweepStore.entryAt, h]
  exact hEntry

theorem SweepStore.Holds.removeEntries {store : SweepStore} {key hex : String} (hHolds : store.Holds key hex)
    {removed : List String} {fails : String → Bool} (hKey : key ∈ removed → fails key = true) :
    (store.removeEntries removed fails).Holds key hex := by
  obtain ⟨entry, hEntry, hHex⟩ := hHolds
  refine ⟨entry, ?_, hHex⟩
  rw [SweepStore.entryAt_removeEntries, if_neg]
  · exact hEntry
  · rintro ⟨hMem, hFails⟩
    rw [hKey hMem] at hFails
    cases hFails

theorem Sent.truth {destination : Script} {wallet : OnchainWallet} {reserved : Finset OutPoint}
    {batch : List BatchMember} {tx : Transaction} (hTruthful : env.Truthful signer)
    (h : Sent signer keys env destination wallet reserved batch tx) : env.Truth tx := by
  cases h with
  | plain hSpend _ hOutcome =>
    obtain hOk | hBenign := hOutcome
    · exact .inl hOk
    · exact .inr (hTruthful _ _ _ _ hSpend hBenign)
  | subsidized plan change _ h => exact h.truth

/-- A member that can be signed stays, in the batch and in its file. -/
theorem Reached.keeps {destination : Script} {stored store : SweepStore} {gathered batch : List BatchMember} {key hex : String}
    (h : Reached signer env destination stored gathered store batch) (hReads : ∀ m ∈ gathered, m.Reads signer)
    (hHex : signer.descriptorOf hex = some descriptor) (hSignable : signer.Signable descriptor)
    (hHolds : stored.Holds key hex) :
    store.Holds key hex ∧ ∀ m ∈ gathered, m.hex = hex → m ∈ batch ∧ m.descriptor = descriptor := by
  have hSame : ∀ m ∈ gathered, m.hex = hex → m.descriptor = descriptor := by
    rintro m hm rfl
    exact Option.some.inj ((hReads m hm).descriptorOf.symm.trans hHex)
  obtain ⟨rfl, rfl, -⟩ | ⟨poisoned, rfl, -, -, rfl, rfl⟩ := h
  · exact ⟨hHolds, fun m hm hText => ⟨hm, hSame m hm hText⟩⟩
  · refine ⟨removeMembers_holds hHolds ?_, ?_⟩
    · rintro m hm rfl
      obtain ⟨hMem, hUnsignable⟩ := List.mem_filter.mp hm
      have hRead : signer.descriptorOf (hexStr m.bytes) = some m.descriptor := by
        rw [Signer.descriptorOf, decodeHex_hexStr]
        exact (hReads m hMem).reads
      cases hRead.symm.trans hHex
      rw [hSignable] at hUnsignable
      cases hUnsignable
    · intro m hm hText
      refine ⟨List.mem_filter.mpr ⟨hm, ?_⟩, hSame m hm hText⟩
      rw [hSame m hm hText, hSignable]
      rfl

/-- After one pass the descriptor is still stored, or its output is spent for good. -/
theorem sweepOnce_stored (hLawful : signer.Lawful) (hTruthful : env.Truthful signer)
    (hStored : Stored signer e.store descriptor) (hSignable : signer.Signable descriptor)
    (hOwned : ¬ WalletOwned keys (sweepOnce signer keys env e).engine.wallet descriptor) :
    Stored signer (sweepOnce signer keys env e).engine.store descriptor ∨ Backed signer keys env e descriptor := by
  obtain ⟨key, hex, hHolds, hHex⟩ := hStored
  obtain ⟨hStore, -⟩ | ⟨panicked, g, hRun, hCases⟩ := sweepOnce_cases signer keys env e
  · rw [hStore]
    exact .inl ⟨key, hex, hHolds, hHex⟩
  · obtain ⟨-, hStore, hWallet, -⟩ | ⟨-, e', r', hStore', hWallet', -, -, rfl, hStore, hWallet, -, -, hSubmitted⟩ := hCases
    · rw [hWallet] at hOwned
      obtain ⟨key', hKeeps⟩ := gatherEntries_keeps hRun hHolds hHex hOwned
      rw [hStore]
      exact .inl ⟨key', hex, hKeeps.1, hHex⟩
    · obtain ⟨hLive, hEnd⟩ := sweepGathered_cases signer keys env e' (g.swept env)
      have hOwnedBefore : ¬ WalletOwned keys g.wallet descriptor := by
        intro hBefore
        rw [hWallet] at hOwned
        exact hOwned (hBefore.mono (hWallet' ▸ hLive))
      obtain ⟨key', hHolds', hEmptied, hBatched⟩ := gatherEntries_keeps hRun hHolds hHex hOwnedBefore
      have hSwept : e'.store.Holds key' hex := by
        rw [hStore']
        exact hHolds'.removeEntries fun hMem => absurd hMem hEmptied
      have hReads : ∀ m ∈ g.batch, m.Reads signer := batch_reads rfl rfl hRun
      obtain ⟨hLeft, hMember⟩ := (spendSignable_cases signer env (keys.spk .external (e'.wallet.live.revealed .external))
        e'.store (g.swept env).batch).1.keeps hReads hHex hSignable hSwept
      rw [Backed, hStore, hSubmitted]
      obtain hKept | hKept | ⟨tx, -, hSent, hCommitted⟩ := hEnd
      · exact .inl ⟨key', hex, hSwept.congr hKept.files, hHex⟩
      · exact .inl ⟨key', hex, hLeft.congr hKept.files, hHex⟩
      · by_cases hGone : key' ∈ g.batchKeys ∧ env.storeFails .commit key' = false
        · obtain ⟨m, hm, hText, -⟩ := hBatched hGone.1
          obtain ⟨hInBatch, rfl⟩ := hMember m hm hText
          exact .inr ⟨tx, hCommitted.submitted, hSent.spends hLawful hInBatch, hSent.truth hTruthful⟩
        · refine .inl ⟨key', hex, (hLeft.removeEntries ?_).congr hCommitted.files, hHex⟩
          intro hMem
          cases hFails : env.storeFails .commit key' with
          | true => rfl
          | false => exact absurd ⟨hMem, hFails⟩ hGone

/-! ## Whole runs -/

theorem live_le_sweepOnce : e.wallet.live ≤ (sweepOnce signer keys env e).engine.wallet.live := by
  obtain ⟨-, hWallet, -⟩ | ⟨panicked, g, hRun, hCases⟩ := sweepOnce_cases signer keys env e
  · rw [hWallet]
  · have hGathered : e.wallet.live ≤ g.wallet.live := by
      have hLive : (Gathered.start e.store e.wallet).wallet.live ≤ (gatherEntries signer keys env.revealError
          (env.storeFails .pruneEntry) (e.store.entries env.listing.dedup) (.start e.store e.wallet)).2.wallet.live :=
        live_le_gatherEntries (by simp [Gathered.start])
      rwa [hRun] at hLive
    obtain ⟨-, -, hWallet, -⟩ | ⟨-, e', r', -, hWallet', -, -, rfl, -, hWallet, -⟩ := hCases
    · rw [hWallet]
      exact hGathered
    · rw [hWallet]
      exact hGathered.trans (hWallet' ▸ (sweepGathered_cases signer keys env e' (g.swept env)).1)

theorem live_le_collectOutputs (entries : List (String × StoredEntry)) (wallet : OnchainWallet)
    (outputs : List (SpendableOutputDescriptor × Option String)) :
    wallet.live ≤ (collectOutputs signer keys entries wallet outputs).wallet.live := by
  unfold collectOutputs
  change (Tracking.start entries wallet).wallet.live ≤ _
  generalize Tracking.start entries wallet = t
  induction outputs generalizing t with
  | nil => exact le_rfl
  | cons output rest ih =>
    rw [List.foldl_cons]
    refine le_trans ?_ (ih _)
    have hLive : t.wallet.live ≤ (isWalletOwnedStaticOutput keys t.wallet output.1 output.2).2.live :=
      live_le_isWalletOwned _
    dsimp only [Tracking.output]
    split_ifs <;> exact hLive

theorem live_le_step {e' : SweepEngine} {event : SweepEvent} (h : event.step signer keys e = some e') :
    e.wallet.live ≤ e'.wallet.live := by
  cases event with
  | pass env =>
    cases h
    exact live_le_sweepOnce
  | track listing outputs channelIdHex key fails =>
    rw [SweepEvent.step] at h
    split_ifs at h
    cases h
    exact live_le_collectOutputs _ _ _

theorem live_le_exec {e' : SweepEngine} {events : List SweepEvent}
    (hRun : exec (SweepEvent.step signer keys) e events = some e') : e.wallet.live ≤ e'.wallet.live := by
  have hStep : ∀ s event t, e.wallet.live ≤ s.wallet.live → SweepEvent.step signer keys s event = some t →
      e.wallet.live ≤ t.wallet.live := by
    intro s event t hLive hNext
    exact hLive.trans (live_le_step hNext)
  exact exec_inv_all (P := fun t => e.wallet.live ≤ t.wallet.live) hStep le_rfl hRun

theorem trackSpendableOutputs_stored {listing : List String} {outputs : List (SpendableOutputDescriptor × Option String)}
    {channelIdHex : Option String} {key : String} {fails : Bool} (hNew : e.store.files.lookup key = none)
    (hStored : Stored signer e.store descriptor) :
    Stored signer (trackSpendableOutputs signer keys e listing outputs channelIdHex key fails).2.store descriptor := by
  obtain ⟨old, hex, ⟨entry, hEntry, hHex⟩, hReads⟩ := hStored
  exact ⟨old, hex, ⟨entry, storeOutputs_entryAt hNew hEntry, hHex⟩, hReads⟩

/-- In a run whose benign answers are true, a descriptor that can be signed and that the wallet does not
own is still stored, or some pass had a spend of its output accepted or known, and took it out. -/
theorem deleted_only_on_chain_truth (hLawful : signer.Lawful) {events : List SweepEvent} {e' : SweepEngine}
    (hRun : exec (SweepEvent.step signer keys) e events = some e') (hTruthful : ∀ event ∈ events, event.Truthful signer)
    (hStored : Stored signer e.store descriptor) (hSignable : signer.Signable descriptor)
    (hOwned : ¬ WalletOwned keys e'.wallet descriptor) :
    Stored signer e'.store descriptor ∨
    ∃ before env after mid, events = before ++ .pass env :: after ∧
      exec (SweepEvent.step signer keys) e before = some mid ∧ Stored signer mid.store descriptor ∧
      ¬ Stored signer (sweepOnce signer keys env mid).engine.store descriptor ∧ Backed signer keys env mid descriptor := by
  induction events generalizing e with
  | nil =>
    cases hRun
    exact .inl hStored
  | cons event rest ih =>
    obtain ⟨next, hNext, hRest⟩ := Option.bind_eq_some_iff.mp hRun
    obtain ⟨hHere, hLater⟩ := List.forall_mem_cons.mp hTruthful
    by_cases hKept : Stored signer next.store descriptor
    · obtain hEnd | ⟨before, env, after, mid, rfl, hBefore, hFound⟩ := ih hRest hLater hKept
      · exact .inl hEnd
      · refine .inr ⟨event :: before, env, after, mid, rfl, ?_, hFound⟩
        rw [exec, hNext]
        exact hBefore
    · right
      cases event with
      | pass env =>
        cases hNext
        have hOwnedNext : ¬ WalletOwned keys (sweepOnce signer keys env e).engine.wallet descriptor := by
          intro hNow
          exact hOwned (hNow.mono (live_le_exec hRest))
        refine ⟨[], env, rest, e, rfl, rfl, hStored, hKept, ?_⟩
        exact (sweepOnce_stored hLawful hHere hStored hSignable hOwnedNext).resolve_left hKept
      | track listing outputs channelIdHex key fails =>
        rw [SweepEvent.step] at hNext
        split_ifs at hNext with hUsed
        cases hNext
        exact absurd (trackSpendableOutputs_stored (Option.not_isSome_iff_eq_none.mp hUsed) hStored) hKept

end

def demoOutput : SpendableOutputDescriptor := .delayedPaymentOutput ⟨"0", 0⟩ ⟨100000, [0]⟩ 144 []

theorem demoOutput_stored : Stored demoSigner (demoEngine [("a", ⟨["00"], some "c", []⟩)]).store demoOutput :=
  ⟨"a", "00", ⟨⟨["00"], some "c", []⟩, by decide, by decide⟩, rfl⟩

theorem accepted_spend_deletes :
    Stored demoSigner (sweepOnce demoSigner demoKeys (demoEnv ["a"] .ok) (demoEngine [("a", ⟨["00"], some "c", []⟩)])).engine.store
      demoOutput ∨
    ∃ before env after mid, [SweepEvent.pass (demoEnv ["a"] .ok)] = before ++ .pass env :: after ∧
      exec (SweepEvent.step demoSigner demoKeys) (demoEngine [("a", ⟨["00"], some "c", []⟩)]) before = some mid ∧
      Stored demoSigner mid.store demoOutput ∧
      ¬ Stored demoSigner (sweepOnce demoSigner demoKeys env mid).engine.store demoOutput ∧
      Backed demoSigner demoKeys env mid demoOutput := by
  have hRun : exec (SweepEvent.step demoSigner demoKeys) (demoEngine [("a", ⟨["00"], some "c", []⟩)])
      [.pass (demoEnv ["a"] .ok)] = some _ := rfl
  exact deleted_only_on_chain_truth demoSigner_lawful hRun
    (by simp [SweepEvent.Truthful, PassEnv.Truthful, demoEnv, BroadcastAnswer.benign]) demoOutput_stored (fun _ => rfl)
    (by decide)

theorem missing_input_deletes :
    let env := demoEnv ["a"] (.httpResponse "bad-txns-inputs-missingorspent" "400")
    let e := demoEngine [("a", ⟨["00"], some "c", []⟩)]
    let after := (sweepOnce demoSigner demoKeys env e).engine
    Stored demoSigner e.store demoOutput ∧ demoSigner.Signable demoOutput ∧
    ¬ WalletOwned demoKeys after.wallet demoOutput ∧ ¬ Stored demoSigner after.store demoOutput ∧
    ∀ tx, ¬ env.Truth tx := by
  intro env e after
  have hFiles : after.store.files.keys = ∅ := by decide
  refine ⟨demoOutput_stored, fun _ => rfl, by decide, ?_, ?_⟩
  · rintro ⟨key, hex, ⟨entry, hEntry, -⟩, -⟩
    obtain ⟨bytes, hBytes, -⟩ := Option.bind_eq_some_iff.mp hEntry
    have hKey : key ∈ after.store.files.keys := Finmap.mem_keys.mpr (Finmap.mem_of_lookup_eq_some hBytes)
    rw [hFiles] at hKey
    exact Finset.notMem_empty key hKey
  · intro tx hTruth
    obtain hOk | hKnown := hTruth
    · cases hOk
    · cases hKnown

end WalletCore.Sweep
