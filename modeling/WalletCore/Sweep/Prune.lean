import Mathlib.Data.List.TakeWhile
import WalletCore.Sweep.Descriptor
import WalletCore.Sweep.Store

/-! # The prune

A pass walks the entries once. It decodes every descriptor, leaves out what the wallet owns and what it
has seen before, writes the smaller entries back, and gathers the rest into one batch. An entry with a
descriptor that does not decode is left as it is.
-/

namespace WalletCore.Sweep

open Lib
open Wallet hiding Psbt

/-! ## Ownership -/

section

variable (keys : Descriptors)

/-- A close destination that is not revealed yet is recognised by its channel's keys, and revealed. -/
def isWalletOwnedStaticOutput (w : OnchainWallet) (descriptor : SpendableOutputDescriptor)
    (writeError : Option String) : Bool × OnchainWallet :=
  match descriptor with
  | .staticOutput _ output channelKeysId =>
    if w.isMineScript keys output.scriptPubkey then (true, w)
    else
      match channelKeysId with
      | none => (false, w)
      | some keysId =>
        let index := destinationIndex keysId
        if keysId.toList.any (· ≠ 0) && keys.spk .external index = output.scriptPubkey then
          (true, (w.destinationScriptForIndex index writeError).2)
        else (false, w)
  | .delayedPaymentOutput .. | .staticPaymentOutput .. => (false, w)

/-- The wallet as it stands can spend it. -/
def WalletOwned (w : OnchainWallet) (descriptor : SpendableOutputDescriptor) : Prop :=
  (isWalletOwnedStaticOutput keys w descriptor none).1 = true

instance (w : OnchainWallet) (descriptor : SpendableOutputDescriptor) : Decidable (WalletOwned keys w descriptor) :=
  inferInstanceAs (Decidable (_ = true))

end

/-! ## One entry -/

/-- A batch member; `hex` is the text it was read from. -/
structure BatchMember where
  hex : String
  bytes : List UInt8
  descriptor : SpendableOutputDescriptor
  entryKey : String
deriving DecidableEq

structure EntryScan where
  wallet : OnchainWallet
  seen : Finset String
  members : List BatchMember
  prunedOutpointKeys : Finset String
  pruned : Nat

def EntryScan.keptHexes (scan : EntryScan) : List String := scan.members.map (·.hex)

inductive ScanEnd where
  | done
  | invalid
  | panicked
deriving DecidableEq

section

variable (signer : Signer) (keys : Descriptors) (revealError : String → Option String) (key : String)

/-- What becomes of a descriptor that decodes and was not seen before. -/
def EntryScan.take (scan : EntryScan) (hex : String) (bytes : List UInt8) (descriptor : SpendableOutputDescriptor) :
    EntryScan :=
  let (owned, wallet) := isWalletOwnedStaticOutput keys scan.wallet descriptor (revealError hex)
  let seen := insert hex scan.seen
  if owned then
    { scan with
      wallet, seen
      prunedOutpointKeys := insert (outpointKey descriptor.spendableOutpoint) scan.prunedOutpointKeys
      pruned := scan.pruned + 1 }
  else { scan with wallet, seen, members := scan.members ++ [⟨hex, bytes, descriptor, key⟩] }

def scanEntry : List String → EntryScan → ScanEnd × EntryScan
  | [], scan => (.done, scan)
  | hex :: rest, scan =>
    if hex ∈ scan.seen then scanEntry rest { scan with pruned := scan.pruned + 1 }
    else
      match decodeHex hex with
      | .panics => (.panicked, scan)
      | .invalid => (.invalid, scan)
      | .bytes bytes =>
        match signer.read bytes with
        | none => (.invalid, scan)
        | some descriptor => scanEntry rest (scan.take keys revealError key hex bytes descriptor)

end

/-! ## All entries -/

structure Gathered where
  store : SweepStore
  wallet : OnchainWallet
  seen : Finset String
  batch : List BatchMember
  channels : List String
  batchKeys : List String
  emptiedKeys : List String
  skipped : Nat

namespace Gathered

def start (store : SweepStore) (wallet : OnchainWallet) : Gathered := ⟨store, wallet, ∅, [], [], [], [], 0⟩

def scan (g : Gathered) : EntryScan := ⟨g.wallet, g.seen, [], ∅, 0⟩

def prunedEntry (entry : StoredEntry) (scan : EntryScan) : StoredEntry where
  descriptors := scan.keptHexes
  channelIdHex := entry.channelIdHex
  outpoints := entry.outpoints.filter fun o => o.txid ++ ":" ++ Nat.repr o.vout.toNat ∉ scan.prunedOutpointKeys

/-- An entry that was read to its end. A rewrite that fails does not stop the pass. -/
def absorb (g : Gathered) (pruneFails : String → Bool) (key : String) (entry : StoredEntry) (scan : EntryScan) :
    Gathered :=
  let g := { g with wallet := scan.wallet, seen := scan.seen }
  if scan.members = [] then { g with emptiedKeys := g.emptiedKeys ++ [key] }
  else
    { g with
      store :=
        if 0 < scan.pruned then g.store.writeEntry key (prunedEntry entry scan) (pruneFails key) else g.store
      channels := g.channels ++ entry.channelIdHex.toList
      batchKeys := g.batchKeys ++ [key]
      batch := g.batch ++ scan.members }

end Gathered

section

variable (signer : Signer) (keys : Descriptors) (revealError : String → Option String) (pruneFails : String → Bool)

def Gathered.entry (g : Gathered) (key : String) (entry : StoredEntry) : ScanEnd × Gathered :=
  match scanEntry signer keys revealError key entry.descriptors g.scan with
  | (.done, scan) => (.done, g.absorb pruneFails key entry scan)
  | (.invalid, scan) =>
    (.invalid, { g with wallet := scan.wallet, seen := scan.seen, skipped := g.skipped + entry.descriptors.length })
  | (.panicked, scan) => (.panicked, { g with wallet := scan.wallet, seen := scan.seen })

/-- The first component says whether a text cut inside a character ended the pass. -/
def gatherEntries : List (String × StoredEntry) → Gathered → Bool × Gathered
  | [], g => (false, g)
  | (key, entry) :: rest, g =>
    match g.entry signer keys revealError pruneFails key entry with
    | (.panicked, g) => (true, g)
    | (_, g) => gatherEntries rest g

end

/-- Stage one of a pass. A directory names a file once, in an order of its own; a file that cannot be
read is left out. -/
def prune (signer : Signer) (keys : Descriptors) (revealError : String → Option String)
    (pruneFails emptyFails : String → Bool) (store : SweepStore) (wallet : OnchainWallet) (listing : List String) :
    Bool × Gathered :=
  let (panicked, g) :=
    gatherEntries signer keys revealError pruneFails (store.entries listing.dedup) (.start store wallet)
  if panicked then (true, g) else (false, { g with store := g.store.removeEntries g.emptiedKeys emptyFails })

def demoWallet : OnchainWallet := .new ⊥ false false

/-! ## What the wallet owns -/

section

variable {keys : Descriptors} {w w' : OnchainWallet} {descriptor : SpendableOutputDescriptor}

theorem isWalletOwned_iff {writeError : Option String} :
    (isWalletOwnedStaticOutput keys w descriptor writeError).1 = true ↔ WalletOwned keys w descriptor := by
  rw [WalletOwned]
  unfold isWalletOwnedStaticOutput
  split
  · split
    · rfl
    · split
      · rfl
      · dsimp only
        split <;> rfl
  · rfl
  · rfl

theorem live_le_isWalletOwned (writeError : Option String) :
    w.live ≤ (isWalletOwnedStaticOutput keys w descriptor writeError).2.live := by
  unfold isWalletOwnedStaticOutput
  split
  · split
    · exact le_rfl
    · split
      · exact le_rfl
      · dsimp only
        split
        · rw [OnchainWallet.destinationScriptForIndex, OnchainWallet.live_vend, BdkWallet.revealAddressesTo,
            BdkWallet.live_apply]
          exact le_sup_left
        · exact le_rfl
  · exact le_rfl
  · exact le_rfl

theorem WalletOwned.mono (h : w.live ≤ w'.live) (hOwned : WalletOwned keys w descriptor) :
    WalletOwned keys w' descriptor := by
  rw [WalletOwned] at hOwned ⊢
  unfold isWalletOwnedStaticOutput at hOwned ⊢
  cases descriptor with
  | staticOutput outpoint output channelKeysId =>
    dsimp only at hOwned ⊢
    by_cases hMine : w.isMineScript keys output.scriptPubkey = true
    · have hMine' : w'.isMineScript keys output.scriptPubkey = true := BdkWallet.isMine_mono h hMine
      rw [if_pos hMine']
    · rw [if_neg hMine] at hOwned
      by_cases hMine' : w'.isMineScript keys output.scriptPubkey = true
      · rw [if_pos hMine']
      · rw [if_neg hMine']
        cases channelKeysId with
        | none => exact hOwned
        | some keysId =>
          dsimp only at hOwned ⊢
          split at hOwned
          · next hDerived => rw [if_pos hDerived]
          · cases hOwned
  | delayedPaymentOutput => exact hOwned
  | staticPaymentOutput => exact hOwned

end

/-! ## What a scan does -/

def Signer.readable (signer : Signer) (hex : String) : Bool := (signer.descriptorOf hex).isSome

/-- A member is what its text decodes to. -/
structure BatchMember.Reads (signer : Signer) (m : BatchMember) : Prop where
  decodes : decodeHex m.hex = .bytes m.bytes
  reads : signer.read m.bytes = some m.descriptor

theorem BatchMember.Reads.descriptorOf {signer : Signer} {m : BatchMember} (h : m.Reads signer) :
    signer.descriptorOf m.hex = some m.descriptor := by
  rw [Signer.descriptorOf, h.decodes]
  exact h.reads

section

variable {signer : Signer} {keys : Descriptors} {revealError : String → Option String} {key : String}

variable (keys revealError key) in
theorem EntryScan.take_cases (scan : EntryScan) (hex : String) (bytes : List UInt8)
    (descriptor : SpendableOutputDescriptor) :
    let next := scan.take keys revealError key hex bytes descriptor
    scan.wallet.live ≤ next.wallet.live ∧ next.seen = insert hex scan.seen ∧
      (next.members = scan.members ++ [⟨hex, bytes, descriptor, key⟩] ∧ next.pruned = scan.pruned ∨
        next.members = scan.members ∧ next.pruned = scan.pruned + 1 ∧ WalletOwned keys next.wallet descriptor) := by
  have hLive : scan.wallet.live ≤ (isWalletOwnedStaticOutput keys scan.wallet descriptor (revealError hex)).2.live :=
    live_le_isWalletOwned _
  intro next
  dsimp only [next, EntryScan.take]
  split
  · next hOwned => exact ⟨hLive, rfl, .inr ⟨rfl, rfl, (isWalletOwned_iff.mp hOwned).mono hLive⟩⟩
  · exact ⟨hLive, rfl, .inl ⟨rfl, rfl⟩⟩

variable (signer keys key) in
/-- What a scan of some texts makes of what it had before. -/
structure ScanSpec (hexes : List String) (scan : EntryScan) (result : ScanEnd × EntryScan) : Prop where
  live_le : scan.wallet.live ≤ result.2.wallet.live
  seen : result.2.seen = scan.seen ∪ (hexes.takeWhile signer.readable).toFinset
  done_iff : result.1 = .done ↔ ∀ hex ∈ hexes, signer.readable hex = true
  panicked_iff : result.1 = .panicked ↔ ∃ hex ∈ hexes.find? (!signer.readable ·), decodeHex hex = .panics
  members : ∃ taken, result.2.members = scan.members ++ taken ∧ (taken.map (·.hex)).Sublist hexes ∧
    (taken.map (·.hex)).Nodup ∧ ∀ m ∈ taken, m.Reads signer ∧ m.hex ∉ scan.seen ∧ m.entryKey = key
  kept : ∀ hex ∈ hexes.takeWhile signer.readable, hex ∉ scan.seen → ∀ descriptor,
    signer.descriptorOf hex = some descriptor → ¬ WalletOwned keys result.2.wallet descriptor →
      hex ∈ result.2.members.map (·.hex)
  length : result.1 = .done →
    result.2.pruned + result.2.members.length = scan.pruned + scan.members.length + hexes.length

theorem ScanSpec.stuck {hex : String} {rest : List String} {scan : EntryScan} {status : ScanEnd}
    (hUnreadable : signer.readable hex = false) (hStatus : status ≠ .done)
    (hPanic : status = .panicked ↔ decodeHex hex = .panics) :
    ScanSpec signer keys key (hex :: rest) scan (status, scan) where
  live_le := le_rfl
  seen := by simp [hUnreadable]
  done_iff := by simp [hStatus, hUnreadable]
  panicked_iff := by simp [hUnreadable, hPanic]
  members := ⟨[], by simp⟩
  kept := by simp [hUnreadable]
  length h := absurd h hStatus

theorem scanEntry_spec (hexes : List String) (scan : EntryScan) (hSeen : ∀ hex ∈ scan.seen, signer.readable hex = true) :
    ScanSpec signer keys key hexes scan (scanEntry signer keys revealError key hexes scan) := by
  fun_induction scanEntry signer keys revealError key hexes scan with
  | case1 scan => exact ⟨le_rfl, by simp, by simp, by simp, ⟨[], by simp⟩, by simp, by simp⟩
  | case2 hex rest scan hOld ih =>
    have hReadable := hSeen hex hOld
    have h := ih hSeen
    refine ⟨h.live_le, ?_, ?_, ?_, ?_, ?_, ?_⟩
    · rw [h.seen, List.takeWhile_cons, if_pos hReadable, List.toFinset_cons, Finset.union_insert,
        Finset.insert_eq_of_mem (Finset.mem_union_left _ hOld)]
    · rw [h.done_iff, List.forall_mem_cons]
      simp [hReadable]
    · rw [h.panicked_iff, List.find?_cons_of_neg (by simp [hReadable])]
    · obtain ⟨taken, hMembers, hSub, hRest⟩ := h.members
      exact ⟨taken, hMembers, hSub.cons _, hRest⟩
    · intro other hOther hNew
      rw [List.takeWhile_cons, if_pos hReadable] at hOther
      obtain rfl | hOther := List.mem_cons.mp hOther
      · exact absurd hOld hNew
      · exact h.kept other hOther hNew
    · intro hDone
      rw [h.length hDone, List.length_cons]
      dsimp only
      omega
  | case3 hex rest scan hNew hPanics =>
    exact .stuck (by simp [Signer.readable, Signer.descriptorOf, hPanics]) (by decide) (by simp [hPanics])
  | case4 hex rest scan hNew hInvalid =>
    exact .stuck (by simp [Signer.readable, Signer.descriptorOf, hInvalid]) (by decide) (by simp [hInvalid])
  | case5 hex rest scan hNew bytes hBytes hRead =>
    exact .stuck (by simp [Signer.readable, Signer.descriptorOf, hBytes, hRead]) (by decide) (by simp [hBytes])
  | case6 hex rest scan hNew bytes hBytes descriptor hRead ih =>
    have hDescriptor : signer.descriptorOf hex = some descriptor := by
      rw [Signer.descriptorOf, hBytes]
      exact hRead
    have hReadable : signer.readable hex = true := by rw [Signer.readable, hDescriptor, Option.isSome_some]
    obtain ⟨hLive, hSeenNext, hCases⟩ := scan.take_cases keys revealError key hex bytes descriptor
    have hSeenAll : ∀ other ∈ (scan.take keys revealError key hex bytes descriptor).seen,
        signer.readable other = true := by
      rw [hSeenNext]
      simpa [hReadable] using hSeen
    have h := ih hSeenAll
    have hWhile : (hex :: rest).takeWhile signer.readable = hex :: rest.takeWhile signer.readable := by
      rw [List.takeWhile_cons, if_pos hReadable]
    obtain ⟨taken, hMembers, hSub, hNodup, hTaken⟩ := h.members
    have hTakenNew : ∀ m ∈ taken, m.Reads signer ∧ m.hex ∉ scan.seen ∧ m.entryKey = key := by
      intro m hm
      obtain ⟨hReads, hFresh, hKey⟩ := hTaken m hm
      rw [hSeenNext, Finset.mem_insert, not_or] at hFresh
      exact ⟨hReads, hFresh.2, hKey⟩
    have hHead : hex ∉ taken.map (·.hex) := by
      intro hMem
      obtain ⟨m, hm, rfl⟩ := List.mem_map.mp hMem
      apply (hTaken m hm).2.1
      rw [hSeenNext]
      exact Finset.mem_insert_self _ _
    refine ⟨hLive.trans h.live_le, ?_, ?_, ?_, ?_, ?_, ?_⟩
    · rw [h.seen, hSeenNext, hWhile, List.toFinset_cons, Finset.union_insert, Finset.insert_union]
    · rw [h.done_iff, List.forall_mem_cons]
      simp [hReadable]
    · rw [h.panicked_iff, List.find?_cons_of_neg (by simp [hReadable])]
    · obtain ⟨hKept, -⟩ | ⟨hKept, -, -⟩ := hCases
      · refine ⟨⟨hex, bytes, descriptor, key⟩ :: taken, ?_, hSub.cons_cons _, List.nodup_cons.mpr ⟨hHead, hNodup⟩, ?_⟩
        · rw [hMembers, hKept, List.append_assoc]
          rfl
        · rw [List.forall_mem_cons]
          exact ⟨⟨⟨hBytes, hRead⟩, hNew, rfl⟩, hTakenNew⟩
      · exact ⟨taken, by rw [hMembers, hKept], hSub.cons _, hNodup, hTakenNew⟩
    · intro other hOther hFresh found hFound hOwned
      rw [hWhile] at hOther
      by_cases hSame : other = hex
      · subst hSame
        obtain rfl : descriptor = found := Option.some.inj (hDescriptor.symm.trans hFound)
        obtain ⟨hKept, -⟩ | ⟨-, -, hOwnedNow⟩ := hCases
        · rw [hMembers, hKept]
          simp
        · exact absurd (hOwnedNow.mono h.live_le) hOwned
      · have hRest := (List.mem_cons.mp hOther).resolve_left hSame
        refine h.kept other hRest ?_ found hFound hOwned
        rw [hSeenNext]
        simp [hSame, hFresh]
    · intro hDone
      rw [h.length hDone, List.length_cons]
      obtain ⟨hKept, hPruned⟩ | ⟨hKept, hPruned, -⟩ := hCases
      · rw [hKept, hPruned, List.length_append, List.length_singleton]
        omega
      · rw [hKept, hPruned]
        omega

end

/-! ## What one entry adds -/

section

variable {signer : Signer} {keys : Descriptors} {revealError : String → Option String} {pruneFails : String → Bool}

variable (signer keys pruneFails) in
/-- What one entry makes of what was gathered before; `taken` are its members. -/
structure GatherStep (g : Gathered) (key : String) (entry : StoredEntry) (taken : List BatchMember)
    (result : ScanEnd × Gathered) : Prop where
  live_le : g.wallet.live ≤ result.2.wallet.live
  seen : result.2.seen = g.seen ∪ (entry.descriptors.takeWhile signer.readable).toFinset
  done_iff : result.1 = .done ↔ ∀ hex ∈ entry.descriptors, signer.readable hex = true
  panicked_iff : result.1 = .panicked ↔ ∃ hex ∈ entry.descriptors.find? (!signer.readable ·), decodeHex hex = .panics
  taken_done : taken ≠ [] → result.1 = .done
  reads : ∀ m ∈ taken, m.Reads signer ∧ m.hex ∉ g.seen ∧ m.entryKey = key
  sublist : (taken.map (·.hex)).Sublist entry.descriptors
  nodup : (taken.map (·.hex)).Nodup
  kept : result.1 = .done → ∀ hex ∈ entry.descriptors, hex ∉ g.seen → ∀ descriptor,
    signer.descriptorOf hex = some descriptor → ¬ WalletOwned keys result.2.wallet descriptor →
      hex ∈ taken.map (·.hex)
  batch : result.2.batch = g.batch ++ taken
  batchKeys : result.2.batchKeys = g.batchKeys ++ if taken = [] then [] else [key]
  emptiedKeys : result.2.emptiedKeys = g.emptiedKeys ++ if result.1 = .done ∧ taken = [] then [key] else []
  channels : result.2.channels = g.channels ++ if taken = [] then [] else entry.channelIdHex.toList
  stored : result.2.store = g.store ∧ (taken ≠ [] → taken.map (·.hex) = entry.descriptors) ∨
    taken ≠ [] ∧ ∃ outpoints, outpoints.Sublist entry.outpoints ∧
      result.2.store =
        g.store.writeEntry key ⟨taken.map (·.hex), entry.channelIdHex, outpoints⟩ (pruneFails key)

/-- An entry that is not read to its end only tells what it has seen. -/
theorem GatherStep.stuck {g g' : Gathered} {key : String} {entry : StoredEntry} {scan : EntryScan} {status : ScanEnd}
    (h : ScanSpec signer keys key entry.descriptors g.scan (status, scan)) (hStatus : status ≠ .done)
    (hWallet : g'.wallet = scan.wallet) (hSeen : g'.seen = scan.seen) (hBatch : g'.batch = g.batch)
    (hKeys : g'.batchKeys = g.batchKeys) (hEmptied : g'.emptiedKeys = g.emptiedKeys)
    (hChannels : g'.channels = g.channels) (hStore : g'.store = g.store) :
    GatherStep signer keys pruneFails g key entry [] (status, g') where
  live_le := hWallet ▸ h.live_le
  seen := hSeen ▸ h.seen
  done_iff := h.done_iff
  panicked_iff := h.panicked_iff
  taken_done := absurd rfl
  reads := by simp
  sublist := List.nil_sublist _
  nodup := List.nodup_nil
  kept hDone := absurd hDone hStatus
  batch := by rw [hBatch, List.append_nil]
  batchKeys := by simp [hKeys]
  emptiedKeys := by simp [hEmptied, hStatus]
  channels := by simp [hChannels]
  stored := .inl ⟨hStore, absurd rfl⟩

theorem GatherStep.absorbed {g : Gathered} {key : String} {entry : StoredEntry} {scan : EntryScan}
    (h : ScanSpec signer keys key entry.descriptors g.scan (.done, scan)) :
    GatherStep signer keys pruneFails g key entry scan.members (.done, g.absorb pruneFails key entry scan) := by
  obtain ⟨taken, hMembers, hSub, hNodup, hReads⟩ := h.members
  obtain rfl : scan.members = taken := hMembers
  have hAll : entry.descriptors.takeWhile signer.readable = entry.descriptors :=
    List.takeWhile_eq_self_iff.mpr (h.done_iff.mp rfl)
  have hKept := h.kept
  rw [hAll] at hKept
  by_cases hNone : scan.members = []
  · have hAbsorb : g.absorb pruneFails key entry scan =
        { g with wallet := scan.wallet, seen := scan.seen, emptiedKeys := g.emptiedKeys ++ [key] } := if_pos hNone
    rw [hAbsorb]
    exact ⟨h.live_le, h.seen, h.done_iff, h.panicked_iff, fun _ => rfl, hReads, hSub, hNodup, fun _ => hKept,
      by simp [hNone], by simp [hNone], by simp [hNone], by simp [hNone], .inl ⟨rfl, absurd hNone⟩⟩
  · have hAbsorb : g.absorb pruneFails key entry scan =
        { g with
          wallet := scan.wallet
          seen := scan.seen
          store := if 0 < scan.pruned then
            g.store.writeEntry key (Gathered.prunedEntry entry scan) (pruneFails key) else g.store
          channels := g.channels ++ entry.channelIdHex.toList
          batchKeys := g.batchKeys ++ [key]
          batch := g.batch ++ scan.members } := if_neg hNone
    rw [hAbsorb]
    refine ⟨h.live_le, h.seen, h.done_iff, h.panicked_iff, fun _ => rfl, hReads, hSub, hNodup, fun _ => hKept,
      rfl, by simp [hNone], by simp [hNone], by simp [hNone], ?_⟩
    dsimp only
    split
    · exact .inr ⟨hNone, _, List.filter_sublist, rfl⟩
    · next hPruned =>
      refine .inl ⟨rfl, fun _ => hSub.eq_of_length ?_⟩
      have hLength : scan.pruned + scan.members.length = 0 + 0 + entry.descriptors.length := h.length rfl
      rw [List.length_map]
      omega

theorem Gathered.entry_step {g : Gathered} (hSeen : ∀ hex ∈ g.seen, signer.readable hex = true) (key : String)
    (entry : StoredEntry) :
    ∃ taken, GatherStep signer keys pruneFails g key entry taken (g.entry signer keys revealError pruneFails key entry) := by
  have h : ScanSpec signer keys key entry.descriptors g.scan
      (scanEntry signer keys revealError key entry.descriptors g.scan) := scanEntry_spec _ _ hSeen
  unfold Gathered.entry
  split
  · next scan hScan =>
    rw [hScan] at h
    exact ⟨_, .absorbed h⟩
  · next scan hScan =>
    rw [hScan] at h
    exact ⟨_, .stuck h (by decide) rfl rfl rfl rfl rfl rfl rfl⟩
  · next scan hScan =>
    rw [hScan] at h
    exact ⟨_, .stuck h (by decide) rfl rfl rfl rfl rfl rfl rfl⟩

theorem GatherStep.readable_seen {g : Gathered} {key : String} {entry : StoredEntry} {taken : List BatchMember}
    {result : ScanEnd × Gathered} (h : GatherStep signer keys pruneFails g key entry taken result)
    (hSeen : ∀ hex ∈ g.seen, signer.readable hex = true) : ∀ hex ∈ result.2.seen, signer.readable hex = true := by
  intro hex hMem
  rw [h.seen, Finset.mem_union, List.mem_toFinset] at hMem
  obtain hOld | hNew := hMem
  · exact hSeen hex hOld
  · exact List.mem_takeWhile_imp hNew

/-! ## What all entries add -/

theorem gatherEntries_cons (key : String) (entry : StoredEntry) (rest : List (String × StoredEntry)) (g : Gathered) :
    gatherEntries signer keys revealError pruneFails ((key, entry) :: rest) g =
      let result := g.entry signer keys revealError pruneFails key entry
      if result.1 = .panicked then (true, result.2) else gatherEntries signer keys revealError pruneFails rest result.2 := by
  rw [gatherEntries]
  split
  · next next hEntry => rw [hEntry, if_pos rfl]
  · next status next hStatus hEntry =>
    rw [hEntry]
    exact (if_neg hStatus).symm

theorem live_le_gatherEntries {entries : List (String × StoredEntry)} {g : Gathered}
    (hSeen : ∀ hex ∈ g.seen, signer.readable hex = true) :
    g.wallet.live ≤ (gatherEntries signer keys revealError pruneFails entries g).2.wallet.live := by
  induction entries generalizing g with
  | nil => exact le_rfl
  | cons first rest ih =>
    obtain ⟨key, entry⟩ := first
    obtain ⟨taken, hStep⟩ : ∃ taken, GatherStep signer keys pruneFails g key entry taken
      (g.entry signer keys revealError pruneFails key entry) := g.entry_step hSeen key entry
    rw [gatherEntries_cons]
    dsimp only
    split
    · exact hStep.live_le
    · exact hStep.live_le.trans (ih (hStep.readable_seen hSeen))

/-- The loop's induction: what every entry's step carries over holds of what is gathered in the end,
and of the entries behind the one that ended the pass. -/
theorem gatherEntries_induct {P : List (String × StoredEntry) → Gathered → Prop} {final : Gathered} {panicked : Bool}
    (hStep : ∀ key entry rest g taken result, P ((key, entry) :: rest) g →
      GatherStep signer keys pruneFails g key entry taken result → result.2.wallet.live ≤ final.wallet.live →
      P rest result.2) {entries : List (String × StoredEntry)} {g : Gathered} (hStart : P entries g)
    (hSeen : ∀ hex ∈ g.seen, signer.readable hex = true)
    (hRun : gatherEntries signer keys revealError pruneFails entries g = (panicked, final)) :
    ∃ rest, P rest final ∧ rest <:+ entries ∧ (panicked = false → rest = []) := by
  induction entries generalizing g with
  | nil =>
    cases hRun
    exact ⟨[], hStart, List.suffix_rfl, fun _ => rfl⟩
  | cons first rest ih =>
    obtain ⟨key, entry⟩ := first
    obtain ⟨taken, hEntry⟩ : ∃ taken, GatherStep signer keys pruneFails g key entry taken
      (g.entry signer keys revealError pruneFails key entry) := g.entry_step hSeen key entry
    rw [gatherEntries_cons] at hRun
    dsimp only at hRun
    split at hRun
    · cases hRun
      exact ⟨rest, hStep key entry rest g taken _ hStart hEntry le_rfl, List.suffix_cons _ _, by simp⟩
    · have hSeenNext := hEntry.readable_seen hSeen
      have hLive : (g.entry signer keys revealError pruneFails key entry).2.wallet.live ≤
          (gatherEntries signer keys revealError pruneFails rest _).2.wallet.live := live_le_gatherEntries hSeenNext
      rw [hRun] at hLive
      obtain ⟨left, hLeft, hSuffix, hNone⟩ := ih (hStep key entry rest g taken _ hStart hEntry hLive) hSeenNext hRun
      exact ⟨left, hLeft, hSuffix.trans (List.suffix_cons _ _), hNone⟩

/-! ## No descriptor is lost -/

def SweepStore.Holds (store : SweepStore) (key hex : String) : Prop :=
  ∃ entry, store.entryAt key = some entry ∧ hex ∈ entry.descriptors

/-- A file keeps the text. If its entry is in the batch, so is the text. -/
def Gathered.Keeps (g : Gathered) (key hex : String) : Prop :=
  g.store.Holds key hex ∧ key ∉ g.emptiedKeys ∧ (key ∈ g.batchKeys → ∃ m ∈ g.batch, m.hex = hex ∧ m.entryKey = key)

/-- The entries still to come lie on disk as they were read. -/
structure Ahead (rest : List (String × StoredEntry)) (g : Gathered) : Prop where
  current : ∀ e ∈ rest, g.store.entryAt e.1 = some e.2
  nodup : (rest.map Prod.fst).Nodup
  untouched : ∀ e ∈ rest, e.1 ∉ g.batchKeys ∧ e.1 ∉ g.emptiedKeys

theorem Ahead.start (store : SweepStore) (wallet : OnchainWallet) (listing : List String) :
    Ahead (store.entries listing.dedup) (.start store wallet) where
  current _ he := (SweepStore.mem_entries.mp he).2
  nodup := (SweepStore.entries_keys_sublist _ _).nodup (List.nodup_dedup _)
  untouched _ _ := ⟨List.not_mem_nil, List.not_mem_nil⟩

theorem Ahead.ne_key {key : String} {entry : StoredEntry} {rest : List (String × StoredEntry)} {g : Gathered}
    (h : Ahead ((key, entry) :: rest) g) : ∀ e ∈ rest, e.1 ≠ key := by
  rintro e he rfl
  exact (List.nodup_cons.mp h.nodup).1 (List.mem_map.mpr ⟨e, he, rfl⟩)

/-- The walk has settled where the text is kept, or the text is not seen yet and still to come. -/
structure Located (hex : String) (rest : List (String × StoredEntry)) (g : Gathered) : Prop extends Ahead rest g where
  located : (∃ key, key ∉ rest.map Prod.fst ∧ g.Keeps key hex) ∨ hex ∉ g.seen ∧ ∃ e ∈ rest, hex ∈ e.2.descriptors

theorem Located.keeps {hex : String} {rest : List (String × StoredEntry)} {g : Gathered} (h : Located hex rest g) :
    ∃ key, g.Keeps key hex := by
  obtain ⟨key, -, hKeeps⟩ | ⟨-, e, he, hHex⟩ := h.located
  · exact ⟨key, hKeeps⟩
  · have hUntouched := h.untouched e he
    exact ⟨e.1, ⟨e.2, h.current e he, hHex⟩, hUntouched.2, fun hBatched => absurd hBatched hUntouched.1⟩

theorem GatherStep.entryAt_other {g : Gathered} {key : String} {entry : StoredEntry} {taken : List BatchMember}
    {result : ScanEnd × Gathered} (h : GatherStep signer keys pruneFails g key entry taken result) {other : String}
    (hOther : other ≠ key) : result.2.store.entryAt other = g.store.entryAt other := by
  obtain ⟨hStore, -⟩ | ⟨-, outpoints, -, hStore⟩ := h.stored
  · rw [hStore]
  · rw [hStore, SweepStore.entryAt_writeEntry, if_neg (by simp [hOther])]

theorem GatherStep.keeps_other {g : Gathered} {key : String} {entry : StoredEntry} {taken : List BatchMember}
    {result : ScanEnd × Gathered} (h : GatherStep signer keys pruneFails g key entry taken result) {other hex : String}
    (hOther : other ≠ key) (hKeeps : g.Keeps other hex) : result.2.Keeps other hex := by
  obtain ⟨hHolds, hEmptied, hBatched⟩ := hKeeps
  refine ⟨?_, ?_, ?_⟩
  · rw [SweepStore.Holds, h.entryAt_other hOther]
    exact hHolds
  · rw [h.emptiedKeys]
    split <;> simp [hEmptied, hOther]
  · intro hMem
    rw [h.batchKeys] at hMem
    have hOld : other ∈ g.batchKeys := by
      split at hMem <;> simpa [hOther] using hMem
    obtain ⟨m, hm, hHex⟩ := hBatched hOld
    rw [h.batch]
    exact ⟨m, List.mem_append_left _ hm, hHex⟩

/-- The entry's own file keeps a text that was not seen before and is not owned. -/
theorem GatherStep.keeps_own {g : Gathered} {key : String} {entry : StoredEntry} {taken : List BatchMember}
    {result : ScanEnd × Gathered} (h : GatherStep signer keys pruneFails g key entry taken result) {hex : String}
    {descriptor : SpendableOutputDescriptor} (hCurrent : g.store.entryAt key = some entry) (hHex : hex ∈ entry.descriptors)
    (hNew : hex ∉ g.seen) (hReads : signer.descriptorOf hex = some descriptor)
    (hOwned : ¬ WalletOwned keys result.2.wallet descriptor) (hUntouched : key ∉ g.batchKeys ∧ key ∉ g.emptiedKeys) :
    result.2.Keeps key hex := by
  by_cases hDone : result.1 = .done
  · obtain ⟨m, hm, rfl⟩ := List.mem_map.mp (h.kept hDone hex hHex hNew descriptor hReads hOwned)
    have hSome : taken ≠ [] := List.ne_nil_of_mem hm
    refine ⟨?_, ?_, fun _ => ⟨m, ?_, rfl, (h.reads m hm).2.2⟩⟩
    · obtain ⟨hStore, -⟩ | ⟨-, outpoints, -, hStore⟩ := h.stored
      · rw [hStore]
        exact ⟨entry, hCurrent, hHex⟩
      · rw [hStore, SweepStore.Holds, SweepStore.entryAt_writeEntry]
        split
        · exact ⟨_, rfl, List.mem_map_of_mem hm⟩
        · exact ⟨entry, hCurrent, hHex⟩
    · rw [h.emptiedKeys, if_neg (fun hEmptied => hSome hEmptied.2), List.append_nil]
      exact hUntouched.2
    · rw [h.batch]
      exact List.mem_append_right _ hm
  · have hNone : taken = [] := by
      by_contra hSome
      exact hDone (h.taken_done hSome)
    refine ⟨?_, ?_, ?_⟩
    · obtain ⟨hStore, -⟩ | ⟨hSome, -⟩ := h.stored
      · rw [hStore]
        exact ⟨entry, hCurrent, hHex⟩
      · exact absurd hNone hSome
    · rw [h.emptiedKeys, if_neg (fun hEmptied => hDone hEmptied.1), List.append_nil]
      exact hUntouched.2
    · intro hBatched
      rw [h.batchKeys, if_pos hNone, List.append_nil] at hBatched
      exact absurd hBatched hUntouched.1

theorem Ahead.step {key : String} {rest : List (String × StoredEntry)} {g : Gathered} {entry : StoredEntry}
    {taken : List BatchMember} {result : ScanEnd × Gathered} (hAhead : Ahead ((key, entry) :: rest) g)
    (h : GatherStep signer keys pruneFails g key entry taken result) : Ahead rest result.2 := by
  have hCurrent := (List.forall_mem_cons.mp hAhead.current).2
  have hUntouched := (List.forall_mem_cons.mp hAhead.untouched).2
  refine ⟨?_, (List.nodup_cons.mp hAhead.nodup).2, ?_⟩
  · intro e he
    rw [h.entryAt_other (hAhead.ne_key e he)]
    exact hCurrent e he
  · intro e he
    rw [h.batchKeys, h.emptiedKeys]
    constructor
    · split <;> simp [(hUntouched e he).1, hAhead.ne_key e he]
    · split <;> simp [(hUntouched e he).2, hAhead.ne_key e he]

theorem Located.step {hex key : String} {rest : List (String × StoredEntry)} {g : Gathered} {entry : StoredEntry}
    {taken : List BatchMember} {result : ScanEnd × Gathered} {descriptor : SpendableOutputDescriptor}
    (hLocated : Located hex ((key, entry) :: rest) g) (h : GatherStep signer keys pruneFails g key entry taken result)
    (hReads : signer.descriptorOf hex = some descriptor) (hOwned : ¬ WalletOwned keys result.2.wallet descriptor) :
    Located hex rest result.2 := by
  have hHere := (List.forall_mem_cons.mp hLocated.current).1
  have hFresh := (List.forall_mem_cons.mp hLocated.untouched).1
  have hApart := (List.nodup_cons.mp hLocated.nodup).1
  refine ⟨hLocated.toAhead.step h, ?_⟩
  · obtain ⟨other, hOther, hKeeps⟩ | ⟨hNew, e, he, hHex⟩ := hLocated.located
    · rw [List.map_cons, List.mem_cons, not_or] at hOther
      exact .inl ⟨other, hOther.2, h.keeps_other hOther.1 hKeeps⟩
    · obtain rfl | he := List.mem_cons.mp he
      · exact .inl ⟨key, hApart, h.keeps_own hHere hHex hNew hReads hOwned hFresh⟩
      · by_cases hSeen : hex ∈ result.2.seen
        · -- The text was read here, before the entry that was expected to bring it.
          rw [h.seen, Finset.mem_union, List.mem_toFinset] at hSeen
          have hHere' := (List.takeWhile_sublist _).subset (hSeen.resolve_left hNew)
          exact .inl ⟨key, hApart, h.keeps_own hHere hHere' hNew hReads hOwned hFresh⟩
        · exact .inr ⟨hSeen, e, he, hHex⟩

/-- Whatever order the entries come in, a text that the wallet does not own stays in some file. -/
theorem gatherEntries_keeps {store : SweepStore} {wallet : OnchainWallet} {listing : List String} {panicked : Bool}
    {final : Gathered} {key hex : String} {descriptor : SpendableOutputDescriptor}
    (hRun : gatherEntries signer keys revealError pruneFails (store.entries listing.dedup) (.start store wallet) =
      (panicked, final)) (hHolds : store.Holds key hex) (hReads : signer.descriptorOf hex = some descriptor)
    (hOwned : ¬ WalletOwned keys final.wallet descriptor) : ∃ key, final.Keeps key hex := by
  have hStart : Located hex (store.entries listing.dedup) (.start store wallet) := by
    refine ⟨.start store wallet listing, ?_⟩
    · obtain ⟨entry, hEntry, hHex⟩ := hHolds
      by_cases hListed : (key, entry) ∈ store.entries listing.dedup
      · exact .inr ⟨Finset.notMem_empty _, _, hListed, hHex⟩
      · refine .inl ⟨key, ?_, ⟨entry, hEntry, hHex⟩, List.not_mem_nil, fun h => absurd h List.not_mem_nil⟩
        intro hMem
        obtain ⟨e, he, rfl⟩ := List.mem_map.mp hMem
        have hSame := (SweepStore.mem_entries.mp he).2
        rw [hEntry] at hSame
        cases hSame
        exact hListed he
  obtain ⟨rest, hLocated, -⟩ := gatherEntries_induct
    (fun _ _ _ _ _ _ hLocated hStep hLive =>
      hLocated.step hStep hReads fun hNow => hOwned (hNow.mono hLive)) hStart (by simp [Gathered.start]) hRun
  exact hLocated.keeps

end

end WalletCore.Sweep
