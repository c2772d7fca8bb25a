import Mathlib.Data.Finset.Lattice.Basic
import Mathlib.Data.Fintype.Pi
import Mathlib.Algebra.BigOperators.Group.Finset.Basic
import WalletCore.Lib.Staged

/-! # The wallet library's view of a wallet

The on-chain wallet keeps no state of its own: scripts, coins and the change set that makes them
durable belong to the wallet library. What is written here is what the code relies on of it. Reveals
are monotone, an address is reused until it is seen paid, and a change is staged only where it says
something new.
-/

namespace WalletCore.Wallet

open Lib

inductive KeychainKind where
  | external
  | internal
deriving DecidableEq

instance : Fintype KeychainKind where
  elems := {.external, .internal}
  complete := by
    intro k
    cases k <;> decide

abbrev Script := List UInt8

structure OutPoint where
  txid : String
  vout : Nat
deriving DecidableEq

structure TxOut where
  value : Nat
  scriptPubkey : Script
deriving DecidableEq

structure Transaction where
  txid : String
  inputs : List OutPoint
  outputs : List TxOut
deriving DecidableEq

/-- The scripts the two keychains derive. No script belongs to both. -/
structure Descriptors where
  spk : KeychainKind → Nat → Script
  distinct : ∀ i j, spk .external i ≠ spk .internal j

/-- Scripts told apart by their first byte. -/
def demoKeys : Descriptors where
  spk k index := (match k with | .external => 0 | .internal => 1) :: List.replicate index 2
  distinct := by simp

/-- An address as the library reports it. -/
structure AddressInfo where
  keychain : KeychainKind
  index : Nat
deriving DecidableEq

def AddressInfo.script (keys : Descriptors) (address : AddressInfo) : Script := keys.spk address.keychain address.index

/-! ## Change sets -/

/-- How many scripts of each keychain are revealed (one more than its last revealed index), the
transactions, those of them that are confirmed, and the height of the chain. -/
structure ChangeSet where
  revealed : KeychainKind → Nat
  txs : Finset Transaction
  anchors : Finset String
  tip : Nat
deriving DecidableEq

namespace ChangeSet

@[ext] theorem ext {a b : ChangeSet} (hRevealed : a.revealed = b.revealed) (hTxs : a.txs = b.txs)
    (hAnchors : a.anchors = b.anchors) (hTip : a.tip = b.tip) : a = b := by
  cases a
  cases b
  simp_all

def merge (a b : ChangeSet) : ChangeSet :=
  ⟨a.revealed ⊔ b.revealed, a.txs ∪ b.txs, a.anchors ∪ b.anchors, max a.tip b.tip⟩

instance : SemilatticeSup ChangeSet where
  le a b := a.revealed ≤ b.revealed ∧ a.txs ⊆ b.txs ∧ a.anchors ⊆ b.anchors ∧ a.tip ≤ b.tip
  sup := merge
  le_refl _ := ⟨le_rfl, subset_rfl, subset_rfl, le_rfl⟩
  le_trans _ _ _ hFirst hSecond := ⟨hFirst.1.trans hSecond.1, hFirst.2.1.trans hSecond.2.1,
    hFirst.2.2.1.trans hSecond.2.2.1, hFirst.2.2.2.trans hSecond.2.2.2⟩
  le_antisymm _ _ hFirst hSecond := ext (hFirst.1.antisymm hSecond.1) (hFirst.2.1.antisymm hSecond.2.1)
    (hFirst.2.2.1.antisymm hSecond.2.2.1) (hFirst.2.2.2.antisymm hSecond.2.2.2)
  le_sup_left _ _ := ⟨le_sup_left, Finset.subset_union_left, Finset.subset_union_left, le_max_left ..⟩
  le_sup_right _ _ := ⟨le_sup_right, Finset.subset_union_right, Finset.subset_union_right, le_max_right ..⟩
  sup_le _ _ _ hFirst hSecond := ⟨sup_le hFirst.1 hSecond.1, Finset.union_subset hFirst.2.1 hSecond.2.1,
    Finset.union_subset hFirst.2.2.1 hSecond.2.2.1, max_le hFirst.2.2.2 hSecond.2.2.2⟩

instance : OrderBot ChangeSet where
  bot := ⟨fun _ => 0, ∅, ∅, 0⟩
  bot_le _ := ⟨fun _ => Nat.zero_le _, Finset.empty_subset _, Finset.empty_subset _, Nat.zero_le _⟩

/-- The change that reveals a keychain up to and including an index. -/
def reveal (keychain : KeychainKind) (index : Nat) : ChangeSet :=
  { (⊥ : ChangeSet) with revealed := fun k => if k = keychain then index + 1 else 0 }

/-- What a change says that is not known yet. -/
def news (known change : ChangeSet) : ChangeSet where
  revealed k := if change.revealed k ≤ known.revealed k then 0 else change.revealed k
  txs := change.txs \ known.txs
  anchors := change.anchors \ known.anchors
  tip := if change.tip ≤ known.tip then 0 else change.tip

@[simp] theorem sup_revealed (a b : ChangeSet) (k : KeychainKind) :
    (a ⊔ b).revealed k = max (a.revealed k) (b.revealed k) := rfl

@[simp] theorem sup_txs (a b : ChangeSet) : (a ⊔ b).txs = a.txs ∪ b.txs := rfl

@[simp] theorem sup_anchors (a b : ChangeSet) : (a ⊔ b).anchors = a.anchors ∪ b.anchors := rfl

@[simp] theorem sup_tip (a b : ChangeSet) : (a ⊔ b).tip = max a.tip b.tip := rfl

@[simp] theorem bot_revealed (k : KeychainKind) : (⊥ : ChangeSet).revealed k = 0 := rfl

@[simp] theorem bot_tip : (⊥ : ChangeSet).tip = 0 := rfl

@[simp] theorem reveal_revealed (k k' : KeychainKind) (i : Nat) :
    (reveal k i).revealed k' = if k' = k then i + 1 else 0 := rfl

theorem reveal_le_iff {k : KeychainKind} {i : Nat} {c : ChangeSet} : reveal k i ≤ c ↔ i < c.revealed k := by
  constructor
  · intro h
    have hCount : (reveal k i).revealed k ≤ c.revealed k := h.1 k
    rw [reveal_revealed, if_pos rfl] at hCount
    exact hCount
  · intro h
    refine ⟨?_, Finset.empty_subset _, Finset.empty_subset _, Nat.zero_le _⟩
    intro k'
    simp only [reveal]
    split
    · next hSame => exact hSame ▸ h
    · exact Nat.zero_le _

theorem reveal_ne_bot (k : KeychainKind) (i : Nat) : reveal k i ≠ ⊥ := by
  intro h
  have hCount := congrArg (·.revealed k) h
  simp [reveal] at hCount

/-- Staging only the news loses nothing of the change. -/
@[simp] theorem sup_news (known change : ChangeSet) : known ⊔ news known change = known ⊔ change := by
  ext x
  · simp only [sup_revealed, news]
    split <;> omega
  · simp [news]
  · simp [news]
  · simp only [sup_tip, news]
    split <;> omega

@[simp] theorem news_bot (known : ChangeSet) : news known ⊥ = ⊥ := by
  refine ext (funext fun k => ?_) (Finset.empty_sdiff _) (Finset.empty_sdiff _) ?_
  · simp [news]
  · simp [news]

theorem news_reveal (known : ChangeSet) (k : KeychainKind) (i : Nat) :
    news known (reveal k i) = if i < known.revealed k then ⊥ else reveal k i := by
  have hTxs : (news known (reveal k i)).txs = ∅ := Finset.empty_sdiff _
  have hAnchors : (news known (reveal k i)).anchors = ∅ := Finset.empty_sdiff _
  split
  · next hKnown =>
    refine ext (funext fun k' => ?_) hTxs hAnchors rfl
    by_cases hSame : k' = k
    · subst hSame
      simp [news, Nat.succ_le_of_lt hKnown]
    · simp [news, hSame]
  · next hNew =>
    refine ext (funext fun k' => ?_) hTxs hAnchors rfl
    by_cases hSame : k' = k
    · subst hSame
      simp only [news, reveal_revealed, if_true]
      rw [if_neg (by omega)]
    · simp [news, hSame]

end ChangeSet

/-! ## The wallet -/

/-- The change set in its three places, and the addresses marked used by a build. The marks are in
memory only. -/
structure BdkWallet where
  staged : Staged ChangeSet
  marked : Finset AddressInfo

structure LocalOutput where
  outpoint : OutPoint
  txout : TxOut
  keychain : KeychainKind
  confirmed : Bool
deriving DecidableEq

/-- Confirmed, or change of the wallet's own. -/
def LocalOutput.trusted (coin : LocalOutput) : Bool := coin.confirmed || coin.keychain = .internal

/-- Scripts past the last revealed one that are recognised in a transaction all the same. -/
def lookahead : Nat := 25

def ChangeSet.Pays (known : ChangeSet) (script : Script) : Prop :=
  ∃ tx ∈ known.txs, ∃ out ∈ tx.outputs, out.scriptPubkey = script

instance (known : ChangeSet) (script : Script) : Decidable (known.Pays script) :=
  inferInstanceAs (Decidable (∃ tx ∈ known.txs, ∃ out ∈ tx.outputs, out.scriptPubkey = script))

def ChangeSet.Spends (known : ChangeSet) (outpoint : OutPoint) : Prop := ∃ tx ∈ known.txs, outpoint ∈ tx.inputs

instance (known : ChangeSet) (outpoint : OutPoint) : Decidable (known.Spends outpoint) :=
  inferInstanceAs (Decidable (∃ tx ∈ known.txs, outpoint ∈ tx.inputs))

namespace BdkWallet

def load (disk : ChangeSet) : BdkWallet := ⟨.load disk, ∅⟩

def live (w : BdkWallet) : ChangeSet := w.staged.live

def tracked (w : BdkWallet) (k : KeychainKind) : Nat := w.live.revealed k + lookahead

def apply (w : BdkWallet) (change : ChangeSet) : BdkWallet :=
  { w with staged := w.staged.grow (w.live.news change) }

def revealAddressesTo (w : BdkWallet) (k : KeychainKind) (index : Nat) : BdkWallet := w.apply (.reveal k index)

def revealNextAddress (w : BdkWallet) (k : KeychainKind) : AddressInfo × BdkWallet :=
  (⟨k, w.live.revealed k⟩, w.revealAddressesTo k (w.live.revealed k))

def markUsed (w : BdkWallet) (address : AddressInfo) : BdkWallet := { w with marked := insert address w.marked }

def takeStaged (w : BdkWallet) : BdkWallet := { w with staged := w.staged.discard }

@[simp] theorem live_apply (w : BdkWallet) (change : ChangeSet) : (w.apply change).live = w.live ⊔ change :=
  ChangeSet.sup_news _ _

theorem revealAddressesTo_known {w : BdkWallet} {k : KeychainKind} {index : Nat} (h : index < w.live.revealed k) :
    w.revealAddressesTo k index = w := by
  rw [revealAddressesTo, apply, ChangeSet.news_reveal, if_pos h, Staged.grow_bot]

theorem revealAddressesTo_new {w : BdkWallet} {k : KeychainKind} {index : Nat} (h : ¬ index < w.live.revealed k) :
    w.revealAddressesTo k index = { w with staged := w.staged.grow (.reveal k index) } := by
  rw [revealAddressesTo, apply, ChangeSet.news_reveal, if_neg h]

theorem covered_revealNextAddress (w : BdkWallet) (k : KeychainKind) :
    (w.revealNextAddress k).2.staged.Covered (.reveal k (w.live.revealed k)) := by
  rw [revealNextAddress, revealAddressesTo_new (lt_irrefl _)]
  exact Staged.covered_grow (ChangeSet.reveal_ne_bot _ _) le_rfl

theorem sound_apply {w : BdkWallet} (h : w.staged.Sound) (change : ChangeSet) : (w.apply change).staged.Sound :=
  h.grow _

variable (keys : Descriptors)

def isUsed (w : BdkWallet) (k : KeychainKind) (index : Nat) : Bool :=
  ⟨k, index⟩ ∈ w.marked || w.live.Pays (keys.spk k index)

def unusedKeychainSpks (w : BdkWallet) (k : KeychainKind) : List Nat :=
  (List.range (w.live.revealed k)).filter fun index => !w.isUsed keys k index

/-- The lowest revealed address that is not used, or the next one. -/
def nextUnusedAddress (w : BdkWallet) (k : KeychainKind) : AddressInfo × BdkWallet :=
  match (w.unusedKeychainSpks keys k).head? with
  | some index => (⟨k, index⟩, w)
  | none => w.revealNextAddress k

variable {keys} in
theorem isUsed_unmarked {w : BdkWallet} (h : w.marked = ∅) (k : KeychainKind) (index : Nat) :
    w.isUsed keys k index = decide (w.live.Pays (keys.spk k index)) := by
  rw [isUsed, h]
  exact Bool.false_or _

variable {keys} in
theorem isUsed_of_lt_nextUnused {w : BdkWallet} {k : KeychainKind} {j : Nat}
    (h : j < (w.nextUnusedAddress keys k).1.index) : w.isUsed keys k j = true := by
  unfold nextUnusedAddress at h
  split at h
  · next index hHead =>
    rw [unusedKeychainSpks, List.head?_filter, List.find?_range_eq_some] at hHead
    simpa using hHead.2.2 j h
  · next hHead =>
    rw [List.head?_eq_none_iff, unusedKeychainSpks, List.filter_eq_nil_iff] at hHead
    simpa using hHead j (List.mem_range.mpr h)

variable {keys} in
theorem nextUnusedAddress_snd (w : BdkWallet) (k : KeychainKind) :
    (w.nextUnusedAddress keys k).2 =
      w.apply (if w.unusedKeychainSpks keys k = [] then .reveal k (w.live.revealed k) else ⊥) := by
  unfold nextUnusedAddress
  cases w.unusedKeychainSpks keys k with
  | nil => rfl
  | cons index rest => simp [apply]

theorem lt_revealed_nextUnusedAddress (w : BdkWallet) (k : KeychainKind) :
    (w.nextUnusedAddress keys k).1.keychain = k ∧
      (w.nextUnusedAddress keys k).1.index < (w.nextUnusedAddress keys k).2.live.revealed k := by
  unfold nextUnusedAddress
  split
  · next index hHead =>
    have hMem := List.mem_of_mem_head? hHead
    rw [unusedKeychainSpks, List.mem_filter, List.mem_range] at hMem
    exact ⟨rfl, hMem.1⟩
  · refine ⟨rfl, ?_⟩
    rw [revealNextAddress, revealAddressesTo_new (lt_irrefl _)]
    exact ChangeSet.reveal_le_iff.mp le_sup_right

variable {keys} in
theorem sound_nextUnusedAddress {w : BdkWallet} (h : w.staged.Sound) (k : KeychainKind) :
    (w.nextUnusedAddress keys k).2.staged.Sound := by
  unfold nextUnusedAddress
  split
  · exact h
  · exact sound_apply h _

def indexOfSpk (w : BdkWallet) (script : Script) : Option AddressInfo :=
  let search := fun k => ((List.range (w.tracked k)).find? (keys.spk k · = script)).map (AddressInfo.mk k)
  (search .external).or (search .internal)

def isMine (w : BdkWallet) (script : Script) : Bool := (w.indexOfSpk keys script).isSome

variable {keys} in
theorem isMine_iff {w : BdkWallet} {script : Script} :
    w.isMine keys script = true ↔ ∃ k, ∃ index < w.tracked k, keys.spk k index = script := by
  have hSearch (k : KeychainKind) :
      (((List.range (w.tracked k)).find? (keys.spk k · = script)).map (AddressInfo.mk k)).isSome = true ↔
        ∃ index < w.tracked k, keys.spk k index = script := by
    rw [Option.isSome_map, List.find?_isSome]
    simp
  rw [isMine, indexOfSpk, Option.isSome_or, Bool.or_eq_true, hSearch, hSearch]
  constructor
  · rintro (h | h)
    · exact ⟨_, h⟩
    · exact ⟨_, h⟩
  · rintro ⟨k, h⟩
    cases k with
    | external => exact .inl h
    | internal => exact .inr h

variable {keys} in
theorem isMine_mono {w w' : BdkWallet} (h : w.live ≤ w'.live) {script : Script} (hMine : w.isMine keys script = true) :
    w'.isMine keys script = true := by
  obtain ⟨k, index, hIndex, hScript⟩ := isMine_iff.mp hMine
  exact isMine_iff.mpr ⟨k, index, hIndex.trans_le (Nat.add_le_add_right (h.1 k) _), hScript⟩

/-- The outputs of a transaction that pay the wallet. -/
def ownOutputs (w : BdkWallet) (tx : Transaction) : List LocalOutput :=
  tx.outputs.zipIdx.filterMap fun (out, vout) =>
    (w.indexOfSpk keys out.scriptPubkey).map fun address =>
      ⟨⟨tx.txid, vout⟩, out, address.keychain, tx.txid ∈ w.live.anchors⟩

def listUnspent (w : BdkWallet) : Finset LocalOutput :=
  (w.live.txs.biUnion fun tx => (w.ownOutputs keys tx).toFinset).filter fun coin => ¬ w.live.Spends coin.outpoint

def trustedSpendable (w : BdkWallet) : Nat :=
  ∑ coin ∈ (w.listUnspent keys).filter (·.trusted), coin.txout.value

end BdkWallet

end WalletCore.Wallet
