import Mathlib.Algebra.Order.BigOperators.Group.Finset
import Mathlib.Algebra.Ring.Nat
import WalletCore.Wallet.Onchain

/-! # What a transaction leaves of the balance

A view grows by reveals and by transactions. A coin stays in it until an added transaction spends it,
and the change of an added transaction is in it at once.
-/

namespace WalletCore.Wallet

/-! ## Views that grow -/

/-- More addresses revealed and some transactions added, with no news from the chain. -/
structure Grows (a b : ChangeSet) (added : Finset Transaction) : Prop where
  revealed : a.revealed ≤ b.revealed
  txs : b.txs = a.txs ∪ added
  anchors : b.anchors = a.anchors

/-- A txid names one transaction. -/
def ChangeSet.Keyed (known : ChangeSet) : Prop := ∀ tx ∈ known.txs, ∀ tx' ∈ known.txs, tx.txid = tx'.txid → tx = tx'

/-- No known transaction has this txid or spends an output under it. -/
def ChangeSet.FreshId (known : ChangeSet) (txid : String) : Prop :=
  ∀ tx ∈ known.txs, tx.txid ≠ txid ∧ ∀ outpoint ∈ tx.inputs, outpoint.txid ≠ txid

instance (known : ChangeSet) (txid : String) : Decidable (known.FreshId txid) :=
  inferInstanceAs (Decidable (∀ tx ∈ known.txs, tx.txid ≠ txid ∧ ∀ outpoint ∈ tx.inputs, outpoint.txid ≠ txid))

section

variable {a b c : ChangeSet} {first second : Finset Transaction}

theorem Grows.refl (a : ChangeSet) : Grows a a ∅ := ⟨le_rfl, (Finset.union_empty _).symm, rfl⟩

theorem Grows.trans (h : Grows a b first) (h' : Grows b c second) : Grows a c (first ∪ second) where
  revealed := h.revealed.trans h'.revealed
  txs := by rw [h'.txs, h.txs, Finset.union_assoc]
  anchors := h'.anchors.trans h.anchors

theorem Grows.reveals (h : Grows a b ∅) (h' : Grows b c ∅) : Grows a c ∅ := by
  have hBoth := h.trans h'
  rwa [Finset.union_empty] at hBoth

theorem grows_reveal (a : ChangeSet) (k : KeychainKind) (index : Nat) : Grows a (a ⊔ .reveal k index) ∅ :=
  ⟨fun _ => le_max_left .., rfl, Finset.union_empty _⟩

theorem grows_txs (a : ChangeSet) (txs : Finset Transaction) : Grows a (a ⊔ { (⊥ : ChangeSet) with txs }) txs :=
  ⟨fun _ => le_max_left .., rfl, Finset.union_empty _⟩

theorem ChangeSet.Keyed.insert {known : ChangeSet} (h : known.Keyed) {tx : Transaction} (hFresh : known.FreshId tx.txid)
    (hGrows : Grows known b {tx}) : b.Keyed := by
  intro first hFirst second hSecond hSame
  rw [hGrows.txs, Finset.mem_union, Finset.mem_singleton] at hFirst hSecond
  obtain hFirst | rfl := hFirst
  · obtain hSecond | rfl := hSecond
    · exact h first hFirst second hSecond hSame
    · exact absurd hSame (hFresh first hFirst).1
  · obtain hSecond | rfl := hSecond
    · exact absurd hSame.symm (hFresh second hSecond).1
    · rfl

end

/-! ## Coins -/

section

variable {keys : Descriptors} {w w' : BdkWallet} {added : Finset Transaction} {coin : LocalOutput}

theorem find_range_mono {p : Nat → Bool} {i n m : Nat} (hLe : n ≤ m) (h : (List.range n).find? p = some i) :
    (List.range m).find? p = some i := by
  rw [List.find?_range_eq_some] at h ⊢
  exact ⟨h.1, List.mem_range.mpr ((List.mem_range.mp h.2.1).trans_le hLe), h.2.2⟩

/-- A script keeps the address it belongs to, as no script belongs to both keychains. -/
theorem indexOfSpk_mono (hGrows : w.live.revealed ≤ w'.live.revealed) {script : Script} {address : AddressInfo}
    (h : w.indexOfSpk keys script = some address) : w'.indexOfSpk keys script = some address := by
  have hTracked (k : KeychainKind) : w.tracked k ≤ w'.tracked k := Nat.add_le_add_right (hGrows k) _
  simp only [BdkWallet.indexOfSpk, Option.or_eq_some_iff, Option.map_eq_some_iff, Option.map_eq_none_iff] at h ⊢
  obtain ⟨index, hFound, rfl⟩ | ⟨-, index, hFound, rfl⟩ := h
  · exact .inl ⟨index, find_range_mono (hTracked _) hFound, rfl⟩
  · refine .inr ⟨?_, index, find_range_mono (hTracked _) hFound, rfl⟩
    have hScript := List.find?_some hFound
    rw [decide_eq_true_eq] at hScript
    rw [List.find?_eq_none]
    intro other _ hOther
    rw [decide_eq_true_eq] at hOther
    exact keys.distinct other index (hOther.trans hScript.symm)

theorem mem_ownOutputs {tx : Transaction} : coin ∈ w.ownOutputs keys tx ↔ ∃ out vout address,
    (out, vout) ∈ tx.outputs.zipIdx ∧ w.indexOfSpk keys out.scriptPubkey = some address ∧
      ⟨⟨tx.txid, vout⟩, out, address.keychain, tx.txid ∈ w.live.anchors⟩ = coin := by
  simp only [BdkWallet.ownOutputs, List.mem_filterMap, Option.map_eq_some_iff, Prod.exists]
  constructor
  · rintro ⟨out, vout, hOut, address, hAddress, hCoin⟩
    exact ⟨out, vout, address, hOut, hAddress, hCoin⟩
  · rintro ⟨out, vout, address, hOut, hAddress, hCoin⟩
    exact ⟨out, vout, hOut, address, hAddress, hCoin⟩

theorem mem_listUnspent : coin ∈ w.listUnspent keys ↔
    (∃ tx ∈ w.live.txs, coin ∈ w.ownOutputs keys tx) ∧ ¬ w.live.Spends coin.outpoint := by
  rw [BdkWallet.listUnspent, Finset.mem_filter, Finset.mem_biUnion]
  simp only [List.mem_toFinset]

theorem mem_listUnspent_of_grows (hGrows : Grows w.live w'.live added) (hCoin : coin ∈ w.listUnspent keys)
    (hFree : ∀ tx ∈ added, coin.outpoint ∉ tx.inputs) : coin ∈ w'.listUnspent keys := by
  obtain ⟨⟨tx, hTx, hOwn⟩, hUnspent⟩ := mem_listUnspent.mp hCoin
  obtain ⟨out, vout, address, hOut, hAddress, rfl⟩ := mem_ownOutputs.mp hOwn
  refine mem_listUnspent.mpr ⟨⟨tx, ?_, mem_ownOutputs.mpr ⟨out, vout, address, hOut, ?_, ?_⟩⟩, ?_⟩
  · rw [hGrows.txs]
    exact Finset.mem_union_left _ hTx
  · exact indexOfSpk_mono hGrows.revealed hAddress
  · rw [hGrows.anchors]
  · rintro ⟨spender, hSpender, hInput⟩
    rw [hGrows.txs, Finset.mem_union] at hSpender
    obtain hKnown | hAdded := hSpender
    · exact hUnspent ⟨spender, hKnown, hInput⟩
    · exact hFree spender hAdded hInput

theorem outpoint_injective (hKeyed : w.live.Keyed) {other : LocalOutput} (hCoin : coin ∈ w.listUnspent keys)
    (hOther : other ∈ w.listUnspent keys) (hSame : coin.outpoint = other.outpoint) : coin = other := by
  obtain ⟨⟨tx, hTx, hOwn⟩, -⟩ := mem_listUnspent.mp hCoin
  obtain ⟨⟨tx', hTx', hOwn'⟩, -⟩ := mem_listUnspent.mp hOther
  obtain ⟨out, vout, address, hOut, hAddress, rfl⟩ := mem_ownOutputs.mp hOwn
  obtain ⟨out', vout', address', hOut', hAddress', rfl⟩ := mem_ownOutputs.mp hOwn'
  rw [OutPoint.mk.injEq] at hSame
  obtain rfl := hKeyed tx hTx tx' hTx' hSame.1
  obtain rfl := hSame.2
  rw [List.mk_mem_zipIdx_iff_getElem?] at hOut hOut'
  obtain rfl := Option.some.inj (hOut.symm.trans hOut')
  obtain rfl := Option.some.inj (hAddress.symm.trans hAddress')
  rfl

theorem outpoint_txid_known (hCoin : coin ∈ w.listUnspent keys) : ∃ tx ∈ w.live.txs, tx.txid = coin.outpoint.txid := by
  obtain ⟨⟨tx, hTx, hOwn⟩, -⟩ := mem_listUnspent.mp hCoin
  obtain ⟨out, vout, address, -, -, rfl⟩ := mem_ownOutputs.mp hOwn
  exact ⟨tx, hTx, rfl⟩

variable (keys) in
theorem indexOfSpk_internal {index : Nat} (h : index < w.tracked .internal) :
    ∃ found, w.indexOfSpk keys (keys.spk .internal index) = some ⟨.internal, found⟩ := by
  have hMine : w.isMine keys (keys.spk .internal index) = true := BdkWallet.isMine_iff.mpr ⟨.internal, index, h, rfl⟩
  obtain ⟨address, hAddress⟩ := Option.isSome_iff_exists.mp hMine
  have hSplit := hAddress
  simp only [BdkWallet.indexOfSpk, Option.or_eq_some_iff, Option.map_eq_some_iff] at hSplit
  obtain ⟨other, hFound, rfl⟩ | ⟨-, found, -, rfl⟩ := hSplit
  · have hScript := List.find?_some hFound
    rw [decide_eq_true_eq] at hScript
    exact absurd hScript (keys.distinct other index)
  · exact ⟨found, hAddress⟩

end

/-! ## The balance -/

section

variable {keys : Descriptors} {w w' : BdkWallet} {tx : Transaction}

/-- The trusted coins that a transaction spends. -/
def BdkWallet.spentBy (w : BdkWallet) (keys : Descriptors) (tx : Transaction) : Finset LocalOutput :=
  ((w.listUnspent keys).filter (·.trusted)).filter (·.outpoint ∈ tx.inputs)

theorem trustedSpendable_mono (hGrows : Grows w.live w'.live ∅) : w.trustedSpendable keys ≤ w'.trustedSpendable keys := by
  apply Finset.sum_le_sum_of_subset
  intro coin hCoin
  rw [Finset.mem_filter] at hCoin ⊢
  exact ⟨mem_listUnspent_of_grows hGrows hCoin.1 (by simp), hCoin.2⟩

/-- The change of a new transaction is a coin as soon as the view has the transaction. -/
theorem mem_listUnspent_change (hGrows : Grows w.live w'.live {tx}) (hFresh : w.live.FreshId tx.txid)
    (hInputs : ∀ outpoint ∈ tx.inputs, outpoint.txid ≠ tx.txid) {out : TxOut} {index : Nat} (hOut : out ∈ tx.outputs)
    (hIndex : index < w'.tracked .internal) (hScript : keys.spk .internal index = out.scriptPubkey) :
    ∃ vout, ⟨⟨tx.txid, vout⟩, out, .internal, tx.txid ∈ w'.live.anchors⟩ ∈ w'.listUnspent keys := by
  obtain ⟨vout, hVout⟩ := List.mem_iff_getElem?.mp hOut
  obtain ⟨found, hFound⟩ := indexOfSpk_internal keys hIndex
  refine ⟨vout, mem_listUnspent.mpr ⟨⟨tx, ?_, mem_ownOutputs.mpr ⟨out, vout, _, ?_, hScript ▸ hFound, rfl⟩⟩, ?_⟩⟩
  · rw [hGrows.txs]
    exact Finset.mem_union_right _ (Finset.mem_singleton_self tx)
  · exact List.mk_mem_zipIdx_iff_getElem?.mpr hVout
  · rintro ⟨spender, hSpender, hInput⟩
    rw [hGrows.txs, Finset.mem_union, Finset.mem_singleton] at hSpender
    obtain hKnown | rfl := hSpender
    · exact (hFresh spender hKnown).2 _ hInput rfl
    · exact hInputs _ hInput rfl

/-- A new transaction takes the coins it spends and gives its change back. -/
theorem trustedSpendable_le_of_grows (hGrows : Grows w.live w'.live {tx}) (hFresh : w.live.FreshId tx.txid)
    (hInputs : ∀ outpoint ∈ tx.inputs, outpoint.txid ≠ tx.txid) {change : Option TxOut}
    (hChange : ∀ out ∈ change, out ∈ tx.outputs ∧ ∃ index < w'.tracked .internal,
      keys.spk .internal index = out.scriptPubkey) :
    w.trustedSpendable keys + (change.map (·.value)).getD 0 ≤
      w'.trustedSpendable keys + ∑ coin ∈ w.spentBy keys tx, coin.txout.value := by
  let kept := ((w.listUnspent keys).filter (·.trusted)).filter (·.outpoint ∉ tx.inputs)
  have hSplit : w.trustedSpendable keys =
      ∑ coin ∈ w.spentBy keys tx, coin.txout.value + ∑ coin ∈ kept, coin.txout.value :=
    (Finset.sum_filter_add_sum_filter_not _ _ _).symm
  have hKept : kept ⊆ (w'.listUnspent keys).filter (·.trusted) := by
    intro coin hCoin
    simp only [kept, Finset.mem_filter] at hCoin ⊢
    refine ⟨mem_listUnspent_of_grows hGrows hCoin.1.1 ?_, hCoin.1.2⟩
    rintro _ hTx
    rw [Finset.mem_singleton.mp hTx]
    exact hCoin.2
  cases change with
  | none =>
    have hLe : _ ≤ w'.trustedSpendable keys := Finset.sum_le_sum_of_subset (f := fun coin => coin.txout.value) hKept
    rw [hSplit, Option.map_none, Option.getD_none]
    omega
  | some out =>
    obtain ⟨hOut, index, hIndex, hScript⟩ := hChange out rfl
    obtain ⟨vout, hCoin⟩ := mem_listUnspent_change hGrows hFresh hInputs hOut hIndex hScript
    have hNew : (⟨⟨tx.txid, vout⟩, out, .internal, tx.txid ∈ w'.live.anchors⟩ : LocalOutput) ∉ kept := by
      intro hMem
      simp only [kept, Finset.mem_filter] at hMem
      obtain ⟨known, hKnown, hTxid⟩ := outpoint_txid_known hMem.1.1
      exact (hFresh known hKnown).1 hTxid
    have hLe := Finset.sum_le_sum_of_subset (f := fun coin => coin.txout.value)
      (Finset.insert_subset (Finset.mem_filter.mpr ⟨hCoin, by simp [LocalOutput.trusted]⟩) hKept)
    rw [Finset.sum_insert hNew] at hLe
    change out.value + _ ≤ w'.trustedSpendable keys at hLe
    rw [hSplit, Option.map_some, Option.getD_some]
    omega

/-- Coins told apart by what they are listed as count no more than the list. -/
theorem sum_value_le {β : Type} [DecidableEq β] {coins : Finset LocalOutput} {listed : List β} (entry : LocalOutput → β)
    (value : β → Nat) (hInj : Set.InjOn entry coins) (hListed : ∀ coin ∈ coins, entry coin ∈ listed)
    (hValue : ∀ coin ∈ coins, value (entry coin) = coin.txout.value) :
    ∑ coin ∈ coins, coin.txout.value ≤ (listed.map value).sum := by
  have hSubset : coins.image entry ⊆ listed.toFinset := by
    intro x hx
    obtain ⟨coin, hCoin, rfl⟩ := Finset.mem_image.mp hx
    exact List.mem_toFinset.mpr (hListed coin hCoin)
  calc ∑ coin ∈ coins, coin.txout.value = ∑ coin ∈ coins, value (entry coin) :=
        Finset.sum_congr rfl fun coin hCoin => (hValue coin hCoin).symm
    _ = ∑ x ∈ coins.image entry, value x := (Finset.sum_image hInj).symm
    _ ≤ ∑ x ∈ listed.toFinset, value x := Finset.sum_le_sum_of_subset hSubset
    _ ≤ ∑ x ∈ listed.toFinset, listed.count x • value x := by
      apply Finset.sum_le_sum
      intro x hx
      exact Nat.le_mul_of_pos_left _ (List.count_pos_iff.mpr (List.mem_toFinset.mp hx))
    _ = (listed.map value).sum := (Finset.sum_list_map_count listed value).symm

end

end WalletCore.Wallet
