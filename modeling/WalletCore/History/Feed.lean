import WalletCore.History.Activity
import WalletCore.Lib.StableSort

/-! # The feed against what happened

What happened comes as three lists; the feed shows each item of them once, unless a payment failed or a
close record absorbs the transaction.
-/

namespace WalletCore.History

open Lib

/-- What a row of the feed stands for. -/
inductive FeedItem where
  | onchain (tx : OnchainTxSummary)
  | lightning (payment : PersistedPayment)
  | channelClose (record : CloseRecordSummary)

namespace FeedItem

def row : FeedItem → ActivityRow
  | onchain tx => onchainRow tx
  | lightning payment => paymentRow payment
  | channelClose record => closeRow record

/-- When it happened, in milliseconds; a transaction without any time is the oldest of all. -/
def timeMs : FeedItem → Nat
  | onchain tx => ((tx.confirmationTimeSecs.or tx.firstSeenSecs).map UInt64.toNat).getD 0 * 1000
  | lightning payment => payment.createdAtMs.toNat
  | channelClose record => record.createdAtMs.toNat

def Shown (closeRecords : List CloseRecordSummary) : FeedItem → Prop
  | onchain tx => ∀ record ∈ closeRecords, tx.txid ∉ record.absorbedTxids
  | lightning payment => payment.status ≠ .failed
  | channelClose _ => True

instance (closeRecords : List CloseRecordSummary) : DecidablePred (Shown closeRecords)
  | onchain _ => inferInstanceAs (Decidable (∀ record ∈ closeRecords, _))
  | lightning payment => inferInstanceAs (Decidable (payment.status ≠ .failed))
  | channelClose _ => .isTrue trivial

/-- The items in the order in which equal times leave them. -/
def arrivals (payments : List PersistedPayment) (onchainTxs : List OnchainTxSummary)
    (closeRecords : List CloseRecordSummary) : List FeedItem :=
  onchainTxs.map onchain ++ payments.map lightning ++ closeRecords.map channelClose

end FeedItem

/-- What the row says came in, less what it says went out. -/
def ActivityRow.netSats (row : ActivityRow) : Option Int :=
  match row.direction, row.amountSats with
  | some .received, some sats => some sats.toNat
  | some .sent, some sats => some (-sats.toNat)
  | _, _ => none

def OnchainTxSummary.TimesBelow (tx : OnchainTxSummary) (bound : Nat) : Prop :=
  (∀ secs, tx.confirmationTimeSecs = some secs → secs.toNat < bound) ∧
    ∀ secs, tx.firstSeenSecs = some secs → secs.toNat < bound

/-- The rows are those of the shown items, each once, the latest first. -/
structure ShowsAll (payments : List PersistedPayment) (onchainTxs : List OnchainTxSummary)
    (closeRecords : List CloseRecordSummary) (rows : List ActivityRow) (items : List FeedItem) : Prop where
  rows_eq : rows = items.map FeedItem.row
  once : items.Nodup
  mem_iff (item : FeedItem) :
    item ∈ items ↔ item ∈ FeedItem.arrivals payments onchainTxs closeRecords ∧ item.Shown closeRecords
  times : ∀ item ∈ items, item.row.createdAtMs.toNat = item.timeMs
  latestFirst : items.Pairwise fun a b => b.timeMs ≤ a.timeMs
  ties (timeMs : Nat) : items.filter (fun item => item.timeMs = timeMs) =
    (FeedItem.arrivals payments onchainTxs closeRecords).filter fun item =>
      item.Shown closeRecords ∧ item.timeMs = timeMs

/-! ## Rows -/

section

variable (tx : OnchainTxSummary)

theorem toNat_absDiff (a b : UInt64) : (absDiff a b).toNat = (a.toNat - b.toNat) + (b.toNat - a.toNat) := by
  rw [absDiff]
  split
  · next hLt =>
    have hNat := UInt64.lt_iff_toNat_lt.mp hLt
    rw [UInt64.toNat_sub_of_le _ _ (UInt64.le_iff_toNat_le.mpr hNat.le)]
    omega
  · next hLe =>
    have hNat := UInt64.le_iff_toNat_le.mp (UInt64.not_lt.mp hLe)
    rw [UInt64.toNat_sub_of_le _ _ (UInt64.not_lt.mp hLe)]
    omega

theorem netSats_onchainRow :
    (onchainRow tx).netSats = some ((tx.receivedSats.toNat : Int) - tx.sentSats.toNat) := by
  have hDiff := toNat_absDiff tx.sentSats tx.receivedSats
  by_cases hSent : tx.receivedSats < tx.sentSats
  · have hNat := UInt64.lt_iff_toNat_lt.mp hSent
    simp only [ActivityRow.netSats, onchainRow, if_pos hSent, Option.some.injEq]
    omega
  · have hNat := UInt64.le_iff_toNat_le.mp (UInt64.not_lt.mp hSent)
    simp only [ActivityRow.netSats, onchainRow, if_neg hSent, Option.some.injEq]
    omega

variable {tx}

theorem toNat_secs_mul {secs : UInt64} (h : secs.toNat < 2 ^ 54) : (secs * 1000).toNat = secs.toNat * 1000 := by
  rw [UInt64.toNat_mul]
  exact Nat.mod_eq_of_lt (by simp; omega)

theorem createdAtMs_onchainRow (h : tx.TimesBelow (2 ^ 54)) :
    (onchainRow tx).createdAtMs.toNat = (FeedItem.onchain tx).timeMs := by
  simp only [onchainRow, FeedItem.timeMs]
  cases hConfirmed : tx.confirmationTimeSecs with
  | some secs => exact toNat_secs_mul (h.1 secs hConfirmed)
  | none =>
    cases hSeen : tx.firstSeenSecs with
    | some secs => exact toNat_secs_mul (h.2 secs hSeen)
    | none => rfl

end

/-! ## Items -/

section

variable {payments : List PersistedPayment} {onchainTxs : List OnchainTxSummary} {closeRecords : List CloseRecordSummary}

theorem createdAtMs_row (hTimes : ∀ tx ∈ onchainTxs, tx.TimesBelow (2 ^ 54)) {item : FeedItem}
    (hItem : item ∈ FeedItem.arrivals payments onchainTxs closeRecords) : item.row.createdAtMs.toNat = item.timeMs := by
  cases item with
  | onchain tx =>
    have hTx : tx ∈ onchainTxs := by simpa [FeedItem.arrivals] using hItem
    exact createdAtMs_onchainRow (hTimes tx hTx)
  | lightning payment => rfl
  | channelClose record => rfl

theorem nodup_keys (hPayments : (payments.map (·.paymentHash)).Nodup) (hTxs : (onchainTxs.map (·.txid)).Nodup)
    (hCloses : (closeRecords.map (·.channelId)).Nodup) :
    ((FeedItem.arrivals payments onchainTxs closeRecords).map fun item => (item.row.kind, item.row.id)).Nodup := by
  have hOnchain : (onchainTxs.map fun tx => (ActivityKind.onchain, tx.txid)).Nodup := by
    refine List.Nodup.of_map Prod.snd ?_
    rwa [List.map_map]
  have hLightning : (payments.map fun payment => (ActivityKind.lightning, payment.paymentHash)).Nodup := by
    refine List.Nodup.of_map Prod.snd ?_
    rwa [List.map_map]
  have hClose : (closeRecords.map fun record => (ActivityKind.channelClose, "close:" ++ record.channelId)).Nodup := by
    rw [List.nodup_map_iff_inj_on hCloses.of_map]
    intro a ha b hb hSame
    have hId : "close:" ++ a.channelId = "close:" ++ b.channelId := (Prod.mk.inj hSame).2
    exact List.inj_on_of_nodup_map hCloses ha hb (by simpa using hId)
  simp only [FeedItem.arrivals, List.map_append, List.map_map]
  refine (hOnchain.append hLightning ?_).append hClose ?_
  · intro key hKey hOther
    obtain ⟨tx, -, rfl⟩ := List.mem_map.mp hKey
    obtain ⟨payment, -, hSame⟩ := List.mem_map.mp hOther
    cases (Prod.mk.inj hSame).1
  · intro key hKey hOther
    obtain ⟨record, -, rfl⟩ := List.mem_map.mp hOther
    obtain hKey | hKey := List.mem_append.mp hKey
    · obtain ⟨tx, -, hSame⟩ := List.mem_map.mp hKey
      cases (Prod.mk.inj hSame).1
    · obtain ⟨payment, -, hSame⟩ := List.mem_map.mp hKey
      cases (Prod.mk.inj hSame).1

/-! ## The feed -/

theorem shownItems_eq :
    ((FeedItem.arrivals payments onchainTxs closeRecords).filter fun item => item.Shown closeRecords).map FeedItem.row =
      (onchainTxs.filter fun tx =>
          !(closeRecords.flatMap CloseRecordSummary.absorbedTxids).contains tx.txid).map onchainRow ++
        (payments.filter fun payment => payment.status ≠ .failed).map paymentRow ++ closeRecords.map closeRow := by
  have hAbsorbed (tx : OnchainTxSummary) : (!(closeRecords.flatMap CloseRecordSummary.absorbedTxids).contains tx.txid) =
      decide ((FeedItem.onchain tx).Shown closeRecords) := by
    rw [Bool.eq_iff_iff, decide_eq_true_eq]
    simp [FeedItem.Shown]
  have hCloses : closeRecords.filter (fun record => decide ((FeedItem.channelClose record).Shown closeRecords)) =
      closeRecords := List.filter_eq_self.mpr fun record _ => decide_eq_true trivial
  simp only [FeedItem.arrivals, List.filter_append, List.filter_map, List.map_append, List.map_map, hAbsorbed]
  change _ ++ _ ++ (closeRecords.filter (fun record => decide ((FeedItem.channelClose record).Shown closeRecords))).map _ = _
  rw [hCloses]
  rfl

theorem mergeActivity_eq :
    mergeActivity payments onchainTxs closeRecords =
      (sortDescending (fun item => item.row.createdAtMs.toNat)
        ((FeedItem.arrivals payments onchainTxs closeRecords).filter fun item => item.Shown closeRecords)).map
          FeedItem.row := by
  have hOrder : (fun a b : ActivityRow => decide (b.createdAtMs ≤ a.createdAtMs)) =
      fun a b => decide (b.createdAtMs.toNat ≤ a.createdAtMs.toNat) := by
    funext a b
    rw [decide_eq_decide]
    exact UInt64.le_iff_toNat_le
  have hSort := map_sortDescending
    ((FeedItem.arrivals payments onchainTxs closeRecords).filter fun item => item.Shown closeRecords) FeedItem.row
    fun row => row.createdAtMs.toNat
  rw [shownItems_eq] at hSort
  rw [mergeActivity, hOrder]
  exact hSort

theorem filter_shown (hTimes : ∀ tx ∈ onchainTxs, tx.TimesBelow (2 ^ 54)) (timeMs : Nat) :
    ((FeedItem.arrivals payments onchainTxs closeRecords).filter fun item => item.Shown closeRecords).filter
        (fun item => item.row.createdAtMs.toNat = timeMs) =
      (FeedItem.arrivals payments onchainTxs closeRecords).filter fun item =>
        item.Shown closeRecords ∧ item.timeMs = timeMs := by
  rw [List.filter_filter]
  refine List.filter_congr fun item hItem => ?_
  rw [createdAtMs_row hTimes hItem, Bool.and_comm, ← Bool.decide_and]

theorem mergeActivity_showsAll (hPayments : (payments.map (·.paymentHash)).Nodup)
    (hTxs : (onchainTxs.map (·.txid)).Nodup) (hCloses : (closeRecords.map (·.channelId)).Nodup)
    (hTimes : ∀ tx ∈ onchainTxs, tx.TimesBelow (2 ^ 54)) :
    ∃ items, ShowsAll payments onchainTxs closeRecords (mergeActivity payments onchainTxs closeRecords) items := by
  let shown := (FeedItem.arrivals payments onchainTxs closeRecords).filter fun item => item.Shown closeRecords
  have hMem (item : FeedItem) : item ∈ sortDescending (fun item => item.row.createdAtMs.toNat) shown ↔
      item ∈ FeedItem.arrivals payments onchainTxs closeRecords ∧ item.Shown closeRecords := by
    rw [mem_sortDescending, List.mem_filter, decide_eq_true_eq]
  have hRowTimes : ∀ item ∈ sortDescending (fun item => item.row.createdAtMs.toNat) shown,
      item.row.createdAtMs.toNat = item.timeMs := fun item hItem => createdAtMs_row hTimes ((hMem item).mp hItem).1
  refine ⟨_, mergeActivity_eq, ?_, hMem, hRowTimes, ?_, ?_⟩
  · have hArrivals := (nodup_keys hPayments hTxs hCloses).of_map
    exact (sortDescending_perm _ shown).nodup_iff.mpr (hArrivals.filter _)
  · refine (sortDescending_pairwise _ shown).imp_of_mem ?_
    intro a b ha hb hLe
    rwa [hRowTimes a ha, hRowTimes b hb] at hLe
  · intro timeMs
    have hSame : (sortDescending (fun item => item.row.createdAtMs.toNat) shown).filter
        (fun item => item.timeMs = timeMs) = (sortDescending (fun item => item.row.createdAtMs.toNat) shown).filter
          fun item => item.row.createdAtMs.toNat = timeMs :=
      List.filter_congr fun item hItem => by rw [hRowTimes item hItem]
    rw [hSame, filter_sortDescending, filter_shown hTimes]

theorem mergeActivity_perm {payments' : List PersistedPayment} {onchainTxs' : List OnchainTxSummary}
    {closeRecords' : List CloseRecordSummary} (hPayments : payments.Perm payments') (hTxs : onchainTxs.Perm onchainTxs')
    (hCloses : closeRecords.Perm closeRecords') :
    SameUpToTies (fun row => row.createdAtMs.toNat) (mergeActivity payments onchainTxs closeRecords)
      (mergeActivity payments' onchainTxs' closeRecords') := by
  have hShown (item : FeedItem) : item.Shown closeRecords ↔ item.Shown closeRecords' := by
    cases item with
    | onchain tx => exact forall_congr' fun record => by rw [hCloses.mem_iff]
    | lightning payment => exact Iff.rfl
    | channelClose record => exact Iff.rfl
  have hArrivals : (FeedItem.arrivals payments onchainTxs closeRecords).Perm
      (FeedItem.arrivals payments' onchainTxs' closeRecords') :=
    ((hTxs.map _).append (hPayments.map _)).append (hCloses.map _)
  have hItems := (hArrivals.filter fun item => item.Shown closeRecords).map FeedItem.row
  simp only [hShown] at hItems
  rw [mergeActivity_eq, mergeActivity_eq]
  have hSorted := sortDescending_sameUpToTies (fun row : ActivityRow => row.createdAtMs.toNat) hItems
  rw [map_sortDescending, map_sortDescending] at hSorted
  simp only [hShown]
  exact hSorted

theorem mergeActivity_keys (hPayments : (payments.map (·.paymentHash)).Nodup)
    (hTxs : (onchainTxs.map (·.txid)).Nodup) (hCloses : (closeRecords.map (·.channelId)).Nodup) :
    ((mergeActivity payments onchainTxs closeRecords).map fun row => (row.kind, row.id)).Nodup := by
  rw [mergeActivity_eq, List.map_map]
  refine ((sortDescending_perm _ _).map _).nodup_iff.mpr ?_
  exact (nodup_keys hPayments hTxs hCloses).sublist (List.filter_sublist.map _)

theorem mergeActivity_pairwise :
    (mergeActivity payments onchainTxs closeRecords).Pairwise fun a b => b.createdAtMs ≤ a.createdAtMs := by
  rw [mergeActivity_eq, List.pairwise_map]
  refine (sortDescending_pairwise (fun item : FeedItem => item.row.createdAtMs.toNat) _).imp ?_
  intro a b hLe
  exact UInt64.le_iff_toNat_le.mpr hLe

theorem mergeActivity_onchain {row : ActivityRow} (hRow : row ∈ mergeActivity payments onchainTxs closeRecords)
    (hKind : row.kind = .onchain) : ∃ tx ∈ onchainTxs, row = onchainRow tx := by
  rw [mergeActivity_eq, List.mem_map] at hRow
  obtain ⟨item, hItem, rfl⟩ := hRow
  have hArrived := (List.mem_filter.mp ((mem_sortDescending _).mp hItem)).1
  cases item with
  | onchain tx => exact ⟨tx, by simpa [FeedItem.arrivals] using hArrived, rfl⟩
  | lightning payment => cases hKind
  | channelClose record => cases hKind

end

/-- The feed loses nothing and shows nothing twice. -/
theorem activity_feed_exact (payments : List PersistedPayment) (onchainTxs : List OnchainTxSummary)
    (closeRecords : List CloseRecordSummary) (hPayments : (payments.map (·.paymentHash)).Nodup)
    (hTxs : (onchainTxs.map (·.txid)).Nodup) (hCloses : (closeRecords.map (·.channelId)).Nodup)
    (hTimes : ∀ tx ∈ onchainTxs, tx.TimesBelow (2 ^ 54)) :
    let rows := mergeActivity payments onchainTxs closeRecords
    (∃ items, ShowsAll payments onchainTxs closeRecords rows items) ∧
    (rows.map fun row => (row.kind, row.id)).Nodup ∧
    rows.Pairwise (fun a b => b.createdAtMs ≤ a.createdAtMs) ∧
    (∀ row ∈ rows, row.kind = .onchain → ∃ tx ∈ onchainTxs, row = onchainRow tx ∧
      row.netSats = some ((tx.receivedSats.toNat : Int) - tx.sentSats.toNat)) ∧
    (∀ payments' onchainTxs' closeRecords', payments'.Perm payments → onchainTxs'.Perm onchainTxs →
      closeRecords'.Perm closeRecords → SameUpToTies (fun row => row.createdAtMs.toNat)
        (mergeActivity payments' onchainTxs' closeRecords') rows) := by
  refine ⟨mergeActivity_showsAll hPayments hTxs hCloses hTimes, mergeActivity_keys hPayments hTxs hCloses,
    mergeActivity_pairwise, ?_, fun _ _ _ => mergeActivity_perm⟩
  intro row hRow hKind
  obtain ⟨tx, hTx, rfl⟩ := mergeActivity_onchain hRow hKind
  exact ⟨tx, hTx, rfl, netSats_onchainRow tx⟩

/-! A feed of two payments, one of them failed, and of a close record that absorbs one of two transactions. -/

def demoPayments : List PersistedPayment :=
  [⟨"aa", .inbound, 5000, .succeeded, none, 7000, none⟩, ⟨"bb", .outbound, 9000, .failed, none, 8000, none⟩]

def demoOnchainTxs : List OnchainTxSummary :=
  [⟨"sweep", 0, 700, true, some 9, some 8⟩, ⟨"spend", 900, 200, false, none, some 7⟩]

def demoCloses : List CloseRecordSummary := [⟨"cc", 7000, some 700, .complete, ["sweep"]⟩]

theorem demo_times (tx : OnchainTxSummary) (hTx : tx ∈ demoOnchainTxs) : tx.TimesBelow (2 ^ 54) := by
  obtain rfl | rfl : tx = ⟨"sweep", 0, 700, true, some 9, some 8⟩ ∨ tx = ⟨"spend", 900, 200, false, none, some 7⟩ := by
    simpa [demoOnchainTxs] using hTx
  · exact ⟨by rintro _ ⟨⟩; decide, by rintro _ ⟨⟩; decide⟩
  · exact ⟨by rintro _ ⟨⟩, by rintro _ ⟨⟩; decide⟩

theorem demo_feed_exact :
    (∃ items, ShowsAll demoPayments demoOnchainTxs demoCloses
      (mergeActivity demoPayments demoOnchainTxs demoCloses) items) ∧
    ((mergeActivity demoPayments demoOnchainTxs demoCloses).map fun row => (row.kind, row.id)).Nodup :=
  have hFeed := activity_feed_exact demoPayments demoOnchainTxs demoCloses (by decide) (by decide) (by decide) demo_times
  ⟨hFeed.1, hFeed.2.1⟩

end WalletCore.History
