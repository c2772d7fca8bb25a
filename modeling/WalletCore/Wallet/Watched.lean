import WalletCore.Lib.Transition
import WalletCore.Wallet.Onchain

/-! # Scripts that were handed out stay watched

An incremental sync queries only a window at each end of a keychain's revealed range. A script vended
as the lowest unused one stays in the low window, and a pinned destination is queried by its index.
A script vended at the high end is watched until a later reveal moves the high window past it.
-/

namespace WalletCore.Wallet

open Lib

/-! ## Sessions -/

inductive Source where
  | lowestUnused
  | highEnd
  | destination
deriving DecidableEq

structure Handout where
  address : AddressInfo
  source : Source
deriving DecidableEq

/-- The running wallet, every script a caller was given in this session or an earlier one, and the
destinations of the channels that are loaded. -/
structure Session where
  wallet : OnchainWallet
  handed : List Handout
  loaded : Finset Nat

inductive SessionOp where
  | nextReceiveAddress (writeError : Option String)
  | nextUnusedAddressScript (writeError : Option String)
  | revealNextExternalScript (writeError : Option String)
  | getChangeDestinationScript (writeError : Option String)
  | destinationScriptForIndex (index : Nat) (writeError : Option String)
  | sync (update : ChangeSet) (stopGap : Nat) (writeError : Option String) (markerFails : Bool)
  | boot (channels : List ChannelKeysId) (unreadable : Bool) (writeError : Option String)

def Session.record (s : Session) (source : Source) (vended : Option AddressInfo × OnchainWallet) : Session :=
  { s with wallet := vended.2, handed := s.handed ++ (vended.1.map (Handout.mk · source)).toList }

/-- A boot loads the file and reveals the destinations of the channels it finds. -/
def Session.start (disk : ChangeSet) (wideScanMarker : Bool) (handed : List Handout) (channels : List ChannelKeysId)
    (unreadable : Bool) (writeError : Option String) : Session where
  wallet := ((OnchainWallet.new disk wideScanMarker unreadable).revealDerivedDestinations
    (derivedDestinationIndexes channels) writeError).2
  handed := handed
  loaded := (derivedDestinationIndexes channels).toFinset

section

variable (keys : Descriptors)

def SessionOp.run (s : Session) : SessionOp → Session
  | nextReceiveAddress writeError => s.record .lowestUnused (s.wallet.nextReceiveAddress keys writeError)
  | nextUnusedAddressScript writeError => s.record .lowestUnused (s.wallet.nextUnusedAddressScript keys writeError)
  | revealNextExternalScript writeError => s.record .highEnd (s.wallet.revealNextExternalScript writeError)
  | getChangeDestinationScript writeError => s.record .highEnd (s.wallet.getChangeDestinationScript writeError)
  | destinationScriptForIndex index writeError =>
    { s.record .destination (s.wallet.destinationScriptForIndex index writeError) with loaded := insert index s.loaded }
  | sync update stopGap writeError markerFails =>
    { s with wallet := (s.wallet.sync update stopGap writeError markerFails).2 }
  | boot channels unreadable writeError =>
    .start s.wallet.disk s.wallet.wideScanMarker s.handed channels unreadable writeError

def SessionOp.step (s : Session) (op : SessionOp) : Option Session := some (op.run keys s)

/-- Every script that was handed out is in the next request, a destination as long as its channel is
loaded, and so is every script with known history. -/
structure Watched (s : Session) : Prop where
  handed : ∀ handout ∈ s.handed, (handout.source = .destination → handout.address.index ∈ s.loaded) →
    handout.address ∈ (s.wallet.boundedSyncRequest keys).spks
  history : ∀ address : AddressInfo, address.index < s.wallet.bdk.tracked address.keychain →
    s.wallet.live.Pays (address.script keys) → address ∈ (s.wallet.boundedSyncRequest keys).spks

/-! ## When a reveal leaves what was handed out in view -/

def ChangeSet.unusedBelow (known : ChangeSet) (k : KeychainKind) (index : Nat) : Nat :=
  ((List.range index).filter fun j => ¬ known.Pays (keys.spk k j)).length

/-- Paid, less than a window below the high end, among the lowest unused ones, or pinned. -/
def InView (known : ChangeSet) (lowWindow : Nat) (pinned : Finset Nat) (address : AddressInfo) : Prop :=
  known.Pays (address.script keys) ∨
  known.revealed address.keychain ≤ address.index + onchainSyncKeychainWindow ∨
  known.unusedBelow keys address.keychain address.index < lowWindow ∨
  address.keychain = .external ∧ address.index ∈ pinned

/-- What an operation within a session tells the wallet. -/
def SessionOp.change (w : OnchainWallet) : SessionOp → ChangeSet
  | nextReceiveAddress _ | nextUnusedAddressScript _ =>
    if w.bdk.unusedKeychainSpks keys .external = [] then .reveal .external (w.live.revealed .external) else ⊥
  | revealNextExternalScript _ => .reveal .external (w.live.revealed .external)
  | getChangeDestinationScript _ => .reveal .internal (w.live.revealed .internal)
  | destinationScriptForIndex index _ => .reveal .external index
  | sync update _ _ _ => update
  | boot .. => ⊥

def highestDestination (channels : List ChannelKeysId) : ChangeSet :=
  match (derivedDestinationIndexes channels).max? with
  | none => ⊥
  | some index => .reveal .external index

/-- What the wallet knows, its low window and its pins once the operation is done: a boot starts from
the files and the loaded channels. -/
def SessionOp.known (w : OnchainWallet) : SessionOp → ChangeSet
  | boot channels _ _ => w.disk ⊔ highestDestination channels
  | op => w.live ⊔ op.change keys w

def SessionOp.lowWindow (w : OnchainWallet) : SessionOp → Nat
  | boot _ unreadable _ => if w.wideScanMarker || unreadable then bdkColdRestoreStopGap else onchainSyncKeychainWindow
  | sync update stopGap writeError markerFails => (w.sync update stopGap writeError markerFails).2.lowWindow
  | _ => w.lowWindow

def SessionOp.pinned (w : OnchainWallet) : SessionOp → Finset Nat
  | boot channels _ _ => (derivedDestinationIndexes channels).toFinset
  | destinationScriptForIndex index _ => insert index w.destinationIndexes
  | _ => w.destinationIndexes

/-- No script vended at a high end falls out of both windows. -/
def SessionOp.Clear (s : Session) (op : SessionOp) : Prop :=
  ∀ handout ∈ s.handed, handout.source = .highEnd →
    InView keys (op.known keys s.wallet) (op.lowWindow s.wallet) (op.pinned s.wallet) handout.address

end

/-! ## Membership in the request -/

theorem mem_take_filter_range {p : Nat → Bool} {i n m : Nat} (hi : i < n) (hp : p i = true) :
    i ∈ ((List.range n).filter p).take m ↔ ((List.range i).filter p).length < m := by
  obtain ⟨rest, hSplit⟩ : ∃ rest, (List.range n).filter p = (List.range i).filter p ++ i :: rest := by
    rw [show n = i + (1 + (n - i - 1)) by omega, List.range_add, List.filter_append, List.range_add, List.map_append,
      List.filter_append]
    simp [hp]
  constructor
  · intro hMem
    by_contra hFull
    rw [hSplit, List.take_append_of_le_length (by omega)] at hMem
    have hBelow := List.mem_filter.mp (List.mem_of_mem_take hMem)
    exact absurd (List.mem_range.mp hBelow.1) (lt_irrefl i)
  · intro hBelow
    obtain ⟨more, rfl⟩ : ∃ more, m = ((List.range i).filter p).length + (more + 1) :=
      ⟨m - ((List.range i).filter p).length - 1, by omega⟩
    rw [hSplit, List.take_length_add_append, List.take_succ_cons]
    simp

theorem mem_take_reverse_range {i n m : Nat} : i ∈ (List.range n).reverse.take m ↔ i < n ∧ n ≤ i + m := by
  rw [List.take_reverse, List.mem_reverse, List.length_range, List.mem_drop_iff_getElem]
  constructor
  · rintro ⟨j, hj, hi⟩
    rw [List.getElem_range] at hi
    rw [List.length_range] at hj
    omega
  · rintro ⟨hi, hNear⟩
    refine ⟨i - (n - m), ?_, ?_⟩
    · rw [List.length_range]
      omega
    · rw [List.getElem_range]
      omega

section

variable {keys : Descriptors} {w : OnchainWallet}

theorem mem_spks_iff {address : AddressInfo} : address ∈ (w.boundedSyncRequest keys).spks ↔
    address.index ∈ w.windows keys address.keychain ∨
      address.keychain = .external ∧ address.index ∈ w.destinationIndexes := by
  obtain ⟨k, index⟩ := address
  cases k <;> simp [OnchainWallet.boundedSyncRequest]

theorem mem_spks_of_paid {address : AddressInfo} (hTracked : address.index < w.bdk.tracked address.keychain)
    (hPaid : w.live.Pays (address.script keys)) : address ∈ (w.boundedSyncRequest keys).spks := by
  refine mem_spks_iff.mpr (.inl (List.mem_append_left _ (List.mem_append_left _ ?_)))
  rw [List.mem_filter, List.mem_range, BdkWallet.isUsed]
  exact ⟨hTracked, Bool.or_eq_true_iff.mpr (.inr (decide_eq_true hPaid))⟩

/-- While nothing is marked used, a revealed script is in the request exactly if it is in view. -/
theorem mem_spks_iff_inView {address : AddressInfo} (hMarked : w.bdk.marked = ∅)
    (hRevealed : address.index < w.live.revealed address.keychain) :
    address ∈ (w.boundedSyncRequest keys).spks ↔ InView keys w.live w.lowWindow w.destinationIndexes address := by
  by_cases hPaid : w.live.Pays (address.script keys)
  · exact iff_of_true (mem_spks_of_paid (Nat.lt_add_right _ hRevealed) hPaid) (.inl hPaid)
  · have hUnused : ∀ k j, (!w.bdk.isUsed keys k j) = decide (¬ w.live.Pays (keys.spk k j)) := by
      intro k j
      rw [BdkWallet.isUsed_unmarked hMarked, decide_not]
      rfl
    have hUsed : address.index ∉ (List.range (w.bdk.tracked address.keychain)).filter (w.bdk.isUsed keys address.keychain) := by
      rw [List.mem_filter, BdkWallet.isUsed_unmarked hMarked, decide_eq_true_iff]
      exact fun hMem => hPaid hMem.2
    have hLow : address.index ∈ (w.bdk.unusedKeychainSpks keys address.keychain).take w.lowWindow ↔
        w.live.unusedBelow keys address.keychain address.index < w.lowWindow := by
      have hSelf : (!w.bdk.isUsed keys address.keychain address.index) = true := by
        rw [hUnused]
        exact decide_eq_true hPaid
      refine (mem_take_filter_range (p := fun j => !w.bdk.isUsed keys address.keychain j) hRevealed hSelf).trans ?_
      simp only [hUnused]
      rfl
    have hHigh := mem_take_reverse_range (i := address.index) (n := w.live.revealed address.keychain)
      (m := onchainSyncKeychainWindow)
    rw [mem_spks_iff, OnchainWallet.windows, List.mem_append, List.mem_append, hLow, hHigh, InView]
    simp only [hUsed, hPaid, hRevealed, false_or, true_and]
    tauto

end

/-! ## What every operation keeps -/

/-- Handed-out scripts are revealed in the file, and everything below one that was vended as the lowest
unused script is paid there. -/
structure Held (keys : Descriptors) (s : Session) : Prop where
  sound : s.wallet.bdk.staged.Sound
  tight : s.wallet.bdk.staged.Tight
  unmarked : s.wallet.bdk.marked = ∅
  loaded : s.loaded ⊆ s.wallet.destinationIndexes
  durable : ∀ handout ∈ s.handed, handout.address.index < s.wallet.disk.revealed handout.address.keychain
  lowest : ∀ handout ∈ s.handed, handout.source = .lowestUnused →
    ∀ j < handout.address.index, s.wallet.disk.Pays (keys.spk handout.address.keychain j)
  external : ∀ handout ∈ s.handed, handout.source = .destination → handout.address.keychain = .external

section

variable {keys : Descriptors} {s : Session}

theorem ChangeSet.Pays.mono {a b : ChangeSet} (h : a ≤ b) {script : Script} (hPays : a.Pays script) : b.Pays script := by
  obtain ⟨tx, hTx, hOut⟩ := hPays
  exact ⟨tx, h.2.1 hTx, hOut⟩

theorem Held.disk_le (h : Held keys s) : s.wallet.disk ≤ s.wallet.live := h.sound.disk_le.trans h.sound.aggregate_le

theorem lowWindow_pos (w : OnchainWallet) : 0 < w.lowWindow := by
  unfold OnchainWallet.lowWindow
  split <;> decide

/-- Only the scripts vended at a high end can be missing. -/
theorem Held.watched_iff (h : Held keys s) : Watched keys s ↔ ∀ handout ∈ s.handed, handout.source = .highEnd →
    InView keys s.wallet.live s.wallet.lowWindow s.wallet.destinationIndexes handout.address := by
  have hRevealed : ∀ handout ∈ s.handed, handout.address.index < s.wallet.live.revealed handout.address.keychain :=
    fun handout hHanded => (h.durable handout hHanded).trans_le (h.disk_le.1 _)
  constructor
  · intro hWatched handout hHanded hSource
    refine (mem_spks_iff_inView h.unmarked (hRevealed handout hHanded)).mp (hWatched.handed handout hHanded ?_)
    rw [hSource]
    exact nofun
  · intro hHigh
    refine ⟨?_, fun address hTracked hPaid => mem_spks_of_paid hTracked hPaid⟩
    intro handout hHanded hLoaded
    cases hSource : handout.source with
    | lowestUnused =>
      -- Nothing below it is unused, so it is the first of the low window.
      refine (mem_spks_iff_inView h.unmarked (hRevealed handout hHanded)).mpr (.inr (.inr (.inl ?_)))
      have hNone : s.wallet.live.unusedBelow keys handout.address.keychain handout.address.index = 0 := by
        rw [ChangeSet.unusedBelow, List.length_eq_zero_iff, List.filter_eq_nil_iff]
        intro j hj
        have hPaid := (h.lowest handout hHanded hSource j (List.mem_range.mp hj)).mono h.disk_le
        simpa using hPaid
      rw [hNone]
      exact lowWindow_pos _
    | highEnd => exact (mem_spks_iff_inView h.unmarked (hRevealed handout hHanded)).mpr (hHigh handout hHanded hSource)
    | destination => exact mem_spks_iff.mpr (.inr ⟨h.external handout hHanded hSource, h.loaded (hLoaded hSource)⟩)

/-! ## One operation -/

/-- Within a session the wallet takes in one change and tries to persist it. -/
structure Advances (w w' : OnchainWallet) (change : ChangeSet) (writeError : Option String) : Prop where
  staged : w'.bdk.staged = (w.bdk.staged.grow (w.live.news change)).persist writeError.isSome
  marked : w'.bdk.marked = w.bdk.marked
  pinned : w.destinationIndexes ⊆ w'.destinationIndexes

section

variable {w w' : OnchainWallet} {change : ChangeSet} {writeError : Option String}

theorem Advances.live (h : Advances w w' change writeError) : w'.live = w.live ⊔ change := by
  rw [OnchainWallet.live, BdkWallet.live, h.staged, Staged.persist_live]
  exact ChangeSet.sup_news w.live change

theorem Advances.disk_le (h : Advances w w' change writeError) (hSound : w.bdk.staged.Sound) : w.disk ≤ w'.disk := by
  rw [OnchainWallet.disk, OnchainWallet.disk, h.staged]
  exact Staged.disk_le_persist (hSound.grow _) _

theorem Advances.live_le_disk (h : Advances w w' change writeError) (hSound : w.bdk.staged.Sound)
    (hTight : w.bdk.staged.Tight)
    (hOk : (w.bdk.staged.grow (w.live.news change)).persisted writeError.isSome = true) : w'.live ≤ w'.disk := by
  rw [OnchainWallet.live, BdkWallet.live, OnchainWallet.disk, h.staged, Staged.persist_live]
  exact (hTight.grow _).live_le_disk (hSound.grow _) hOk

end

theorem Held.advance (h : Held keys s) {w' : OnchainWallet} {change : ChangeSet} {writeError : Option String}
    {loaded : Finset Nat} (hAdvances : Advances s.wallet w' change writeError) (hLoaded : loaded ⊆ w'.destinationIndexes) :
    Held keys { wallet := w', handed := s.handed, loaded } where
  sound := hAdvances.staged ▸ (h.sound.grow _).persist _
  tight := hAdvances.staged ▸ (h.tight.grow _).persist (h.sound.grow _) _
  unmarked := hAdvances.marked.trans h.unmarked
  loaded := hLoaded
  durable handout hHanded := (h.durable handout hHanded).trans_le ((hAdvances.disk_le h.sound).1 _)
  lowest handout hHanded hSource j hj := (h.lowest handout hHanded hSource j hj).mono (hAdvances.disk_le h.sound)
  external := h.external

/-- What a script satisfies when it is handed out. -/
structure Vended (keys : Descriptors) (known : ChangeSet) (source : Source) (address : AddressInfo) : Prop where
  revealed : address.index < known.revealed address.keychain
  lowest : source = .lowestUnused → ∀ j < address.index, known.Pays (keys.spk address.keychain j)
  high : source = .highEnd → known.revealed address.keychain ≤ address.index + onchainSyncKeychainWindow
  external : source = .destination → address.keychain = .external

theorem Held.append (h : Held keys s) {source : Source} {address : AddressInfo} (hSynced : s.wallet.live ≤ s.wallet.disk)
    (hVended : Vended keys s.wallet.live source address) :
    Held keys { s with handed := s.handed ++ [⟨address, source⟩] } := by
  have hCases : ∀ {handout}, handout ∈ s.handed ++ [⟨address, source⟩] →
      handout ∈ s.handed ∨ handout = ⟨address, source⟩ := by
    intro handout hMem
    rwa [List.mem_append, List.mem_singleton] at hMem
  refine { h with durable := ?_, lowest := ?_, external := ?_ }
  · intro handout hMem
    obtain hOld | rfl := hCases hMem
    · exact h.durable handout hOld
    · exact hVended.revealed.trans_le (hSynced.1 _)
  · intro handout hMem hSource j hj
    obtain hOld | rfl := hCases hMem
    · exact h.lowest handout hOld hSource j hj
    · exact (hVended.lowest hSource j hj).mono hSynced
  · intro handout hMem hSource
    obtain hOld | rfl := hCases hMem
    · exact h.external handout hOld hSource
    · exact hVended.external hSource

/-- After an operation the invariant holds again, and a script it vended at a high end is near that end. -/
structure Steps (keys : Descriptors) (s s' : Session) : Prop where
  held : Held keys s'
  kept : s.handed ⊆ s'.handed
  high : ∀ handout ∈ s'.handed, handout ∈ s.handed ∨ (handout.source = .highEnd →
    s'.wallet.live.revealed handout.address.keychain ≤ handout.address.index + onchainSyncKeychainWindow)

theorem Steps.of_advance (h : Held keys s) {w' : OnchainWallet} {change : ChangeSet} {writeError : Option String}
    {loaded : Finset Nat} (hAdvances : Advances s.wallet w' change writeError) (hLoaded : loaded ⊆ w'.destinationIndexes) :
    Steps keys s { wallet := w', handed := s.handed, loaded } :=
  ⟨h.advance hAdvances hLoaded, List.Subset.refl _, fun _ hMem => .inl hMem⟩

/-- A vend from the session's wallet, which may have been given more pins just before. -/
theorem Steps.of_vend (h : Held keys s) {pinned loaded : Finset Nat} {source : Source} {address : AddressInfo}
    {change : ChangeSet} {writeError : Option String} (hPinned : s.wallet.destinationIndexes ⊆ pinned)
    (hLoaded : loaded ⊆ pinned) (hVended : Vended keys (s.wallet.live ⊔ change) source address) :
    Steps keys s { s.record source (OnchainWallet.vend { s.wallet with destinationIndexes := pinned }
      (address, s.wallet.bdk.apply change) writeError) with loaded } := by
  have hAdvances : Advances s.wallet (OnchainWallet.vend { s.wallet with destinationIndexes := pinned }
      (address, s.wallet.bdk.apply change) writeError).2 change writeError := ⟨rfl, rfl, hPinned⟩
  have hHeld := h.advance hAdvances hLoaded
  rw [← hAdvances.live] at hVended
  by_cases hOk : (s.wallet.bdk.staged.grow (s.wallet.live.news change)).persisted writeError.isSome = true
  · have hSome : (OnchainWallet.vend { s.wallet with destinationIndexes := pinned }
        (address, s.wallet.bdk.apply change) writeError).1 = some address := if_pos hOk
    rw [Session.record, hSome]
    refine ⟨hHeld.append (hAdvances.live_le_disk h.sound h.tight hOk) hVended, List.subset_append_left .., ?_⟩
    intro handout hMem
    obtain hOld | hNew := List.mem_append.mp hMem
    · exact .inl hOld
    · cases List.mem_singleton.mp hNew
      exact .inr hVended.high
  · have hNone : (OnchainWallet.vend { s.wallet with destinationIndexes := pinned }
        (address, s.wallet.bdk.apply change) writeError).1 = none := if_neg hOk
    rw [Session.record, hNone]
    simpa using Steps.of_advance h hAdvances hLoaded

theorem vended_nextUnused (hUnmarked : s.wallet.bdk.marked = ∅) (k : KeychainKind) :
    Vended keys (s.wallet.bdk.nextUnusedAddress keys k).2.live .lowestUnused (s.wallet.bdk.nextUnusedAddress keys k).1 := by
  obtain ⟨hKeychain, hRevealed⟩ := BdkWallet.lt_revealed_nextUnusedAddress keys s.wallet.bdk k
  refine ⟨?_, ?_, nofun, nofun⟩
  · rw [hKeychain]
    exact hRevealed
  · intro _ j hj
    have hUsed := BdkWallet.isUsed_of_lt_nextUnused hj
    rw [BdkWallet.isUsed_unmarked hUnmarked, decide_eq_true_iff] at hUsed
    rw [hKeychain, BdkWallet.nextUnusedAddress_snd]
    exact hUsed.mono le_sup_left

theorem vended_revealNext (known : ChangeSet) (k : KeychainKind) :
    Vended keys (known ⊔ .reveal k (known.revealed k)) .highEnd ⟨k, known.revealed k⟩ := by
  refine ⟨ChangeSet.reveal_le_iff.mp le_sup_right, nofun, ?_, nofun⟩
  intro _
  simp [onchainSyncKeychainWindow]

theorem steps_nextUnused (h : Held keys s) (writeError : Option String) : Steps keys s
    (s.record .lowestUnused (s.wallet.vend (s.wallet.bdk.nextUnusedAddress keys .external) writeError)) := by
  have hPair : s.wallet.bdk.nextUnusedAddress keys .external = ((s.wallet.bdk.nextUnusedAddress keys .external).1,
      s.wallet.bdk.apply (SessionOp.change keys s.wallet (.nextReceiveAddress writeError))) :=
    Prod.ext rfl (BdkWallet.nextUnusedAddress_snd s.wallet.bdk .external)
  have hVended : Vended keys (s.wallet.bdk.nextUnusedAddress keys .external).2.live .lowestUnused
      (s.wallet.bdk.nextUnusedAddress keys .external).1 := vended_nextUnused h.unmarked .external
  rw [hPair] at hVended ⊢
  refine .of_vend h subset_rfl h.loaded ?_
  rw [← ChangeSet.sup_news]
  exact hVended

theorem advances_sync (w : OnchainWallet) (update : ChangeSet) (stopGap : Nat) (writeError : Option String)
    (markerFails : Bool) : Advances w (w.sync update stopGap writeError markerFails).2 update writeError := by
  unfold OnchainWallet.sync OnchainWallet.recordWideScanRange
  dsimp only
  split
  · split <;> exact ⟨rfl, rfl, subset_rfl⟩
  · exact ⟨rfl, rfl, subset_rfl⟩

theorem sync_pinned (w : OnchainWallet) (update : ChangeSet) (stopGap : Nat) (writeError : Option String)
    (markerFails : Bool) :
    (w.sync update stopGap writeError markerFails).2.destinationIndexes = w.destinationIndexes := by
  unfold OnchainWallet.sync OnchainWallet.recordWideScanRange
  dsimp only
  split
  · split <;> rfl
  · rfl

section Start

variable (disk : ChangeSet) (wideScanMarker unreadable : Bool) (handed : List Handout) (channels : List ChannelKeysId)
  (writeError : Option String)

theorem advances_start : Advances
    ((OnchainWallet.new disk wideScanMarker unreadable).watchDestinationIndexes (derivedDestinationIndexes channels))
    (Session.start disk wideScanMarker handed channels unreadable writeError).wallet (highestDestination channels)
    writeError := by
  unfold Session.start OnchainWallet.revealDerivedDestinations highestDestination
  cases (derivedDestinationIndexes channels).max? with
  | none =>
    refine ⟨?_, rfl, subset_rfl⟩
    rw [ChangeSet.news_bot, Staged.grow_bot]
    exact (if_pos rfl).symm
  | some index => exact ⟨rfl, rfl, subset_rfl⟩

theorem start_pinned : (Session.start disk wideScanMarker handed channels unreadable writeError).wallet.destinationIndexes =
    (derivedDestinationIndexes channels).toFinset := by
  have hPins : (∅ : Finset Nat) ∪ (derivedDestinationIndexes channels).toFinset =
      (derivedDestinationIndexes channels).toFinset := Finset.empty_union _
  unfold Session.start OnchainWallet.revealDerivedDestinations
  cases (derivedDestinationIndexes channels).max? with
  | none => exact hPins
  | some index => exact hPins

theorem start_lowWindow : (Session.start disk wideScanMarker handed channels unreadable writeError).wallet.lowWindow =
    if wideScanMarker || unreadable then bdkColdRestoreStopGap else onchainSyncKeychainWindow := by
  unfold Session.start OnchainWallet.revealDerivedDestinations
  cases (derivedDestinationIndexes channels).max? with
  | none => rfl
  | some index => rfl

theorem held_start
    (hDurable : ∀ handout ∈ handed, handout.address.index < disk.revealed handout.address.keychain)
    (hLowest : ∀ handout ∈ handed, handout.source = .lowestUnused →
      ∀ j < handout.address.index, disk.Pays (keys.spk handout.address.keychain j))
    (hExternal : ∀ handout ∈ handed, handout.source = .destination → handout.address.keychain = .external) :
    Held keys (.start disk wideScanMarker handed channels unreadable writeError) := by
  have hLoaded : Held keys {
      wallet := (OnchainWallet.new disk wideScanMarker unreadable).watchDestinationIndexes
        (derivedDestinationIndexes channels)
      handed
      loaded := ∅ } := ⟨.load _, .load _, rfl, Finset.empty_subset _, hDurable, hLowest, hExternal⟩
  exact hLoaded.advance (advances_start disk wideScanMarker unreadable handed channels writeError)
    (start_pinned disk wideScanMarker unreadable handed channels writeError).superset

end Start

theorem Held.steps (h : Held keys s) (op : SessionOp) : Steps keys s (op.run keys s) := by
  cases op with
  | nextReceiveAddress writeError => exact steps_nextUnused h writeError
  | nextUnusedAddressScript writeError => exact steps_nextUnused h writeError
  | revealNextExternalScript writeError => exact .of_vend h subset_rfl h.loaded (vended_revealNext _ .external)
  | getChangeDestinationScript writeError => exact .of_vend h subset_rfl h.loaded (vended_revealNext _ .internal)
  | destinationScriptForIndex index writeError =>
    refine .of_vend h Finset.subset_union_left ?_ ?_
    · refine Finset.insert_subset (Finset.mem_union_right _ ?_) (h.loaded.trans Finset.subset_union_left)
      simp
    · exact ⟨ChangeSet.reveal_le_iff.mp le_sup_right, nofun, nofun, fun _ => rfl⟩
  | sync update stopGap writeError markerFails =>
    have hAdvances := advances_sync s.wallet update stopGap writeError markerFails
    exact .of_advance h hAdvances (h.loaded.trans hAdvances.pinned)
  | boot channels unreadable writeError =>
    exact ⟨held_start _ _ _ _ _ _ h.durable h.lowest h.external, List.Subset.refl _, fun _ hMem => .inl hMem⟩

theorem run_view (keys : Descriptors) (s : Session) (op : SessionOp) : (op.run keys s).wallet.live = op.known keys s.wallet ∧
    (op.run keys s).wallet.lowWindow = op.lowWindow s.wallet ∧
    (op.run keys s).wallet.destinationIndexes = op.pinned s.wallet := by
  have hLive : ∀ change (writeError : Option String), ((s.wallet.bdk.staged.grow (s.wallet.live.news change)).persist
      writeError.isSome).live = s.wallet.live ⊔ change := by
    intro change writeError
    rw [Staged.persist_live]
    exact ChangeSet.sup_news _ _
  have hUnused : ∀ writeError : Option String, ((s.wallet.bdk.nextUnusedAddress keys .external).2.staged.persist
      writeError.isSome).live = s.wallet.live ⊔ SessionOp.change keys s.wallet (.nextReceiveAddress writeError) := by
    intro writeError
    rw [BdkWallet.nextUnusedAddress_snd]
    exact hLive _ writeError
  cases op with
  | nextReceiveAddress writeError => exact ⟨hUnused writeError, rfl, rfl⟩
  | nextUnusedAddressScript writeError => exact ⟨hUnused writeError, rfl, rfl⟩
  | revealNextExternalScript writeError => exact ⟨hLive _ writeError, rfl, rfl⟩
  | getChangeDestinationScript writeError => exact ⟨hLive _ writeError, rfl, rfl⟩
  | destinationScriptForIndex index writeError =>
    refine ⟨hLive _ writeError, rfl, ?_⟩
    ext
    simp [SessionOp.run, Session.record, OnchainWallet.destinationScriptForIndex, OnchainWallet.vend,
      OnchainWallet.persist, OnchainWallet.watchDestinationIndexes, SessionOp.pinned]
  | sync update stopGap writeError markerFails =>
    exact ⟨(advances_sync s.wallet update stopGap writeError markerFails).live, rfl, sync_pinned ..⟩
  | boot channels unreadable writeError =>
    exact ⟨(advances_start s.wallet.disk s.wallet.wideScanMarker unreadable s.handed channels writeError).live,
      start_lowWindow .., start_pinned ..⟩

/-- After one operation everything is watched exactly if the operation takes no script vended at a high
end out of view. -/
theorem Held.run_watched_iff (h : Held keys s) (op : SessionOp) : Watched keys (op.run keys s) ↔ op.Clear keys s := by
  obtain ⟨hHeld, hOld, hNew⟩ := h.steps op
  obtain ⟨hLive, hLow, hPinned⟩ := run_view keys s op
  rw [hHeld.watched_iff, SessionOp.Clear, ← hLive, ← hLow, ← hPinned]
  constructor
  · intro hView handout hHanded hSource
    exact hView handout (hOld hHanded) hSource
  · intro hClear handout hHanded hSource
    obtain hBefore | hNear := hNew handout hHanded
    · exact hClear handout hBefore hSource
    · exact .inr (.inl (hNear hSource))

end

/-! ## Whole runs -/

/-- Over any number of sessions, everything handed out and everything with history is in the request
after every operation, exactly as long as no operation takes a script vended at a high end out of view. -/
theorem watched_iff_clear (keys : Descriptors) (disk : ChangeSet) (wideScanMarker : Bool) (channels : List ChannelKeysId)
    (unreadable : Bool) (writeError : Option String) (ops : List SessionOp) :
    Along (SessionOp.step keys) (fun s op => Watched keys (op.run keys s))
        (.start disk wideScanMarker [] channels unreadable writeError) ops ↔
      Along (SessionOp.step keys) (fun s op => op.Clear keys s)
        (.start disk wideScanMarker [] channels unreadable writeError) ops := by
  have hStart : Held keys (.start disk wideScanMarker [] channels unreadable writeError) :=
    held_start _ _ _ _ _ _ (by simp) (by simp) (by simp)
  refine along_congr (P := Held keys) ?_ ?_ hStart ops
  · rintro s op _ hHeld - ⟨⟩
    exact (hHeld.steps op).held
  · intro s op hHeld
    exact hHeld.run_watched_iff op

/-- A sweep destination handed out between two channel opens, whose close destinations lie far apart. -/
theorem sweep_destination_dropped :
    ¬ Along (SessionOp.step demoKeys) (fun s op => Watched demoKeys (op.run demoKeys s)) (.start ⊥ false [] [] false none)
      [.destinationScriptForIndex 50 none, .revealNextExternalScript none, .destinationScriptForIndex 100 none] := by
  rintro ⟨-, hFirst⟩
  obtain ⟨-, hSecond⟩ := hFirst _ rfl
  obtain ⟨hWatched, -⟩ := hSecond _ rfl
  have hIn := hWatched.handed ⟨⟨.external, 51⟩, .highEnd⟩ (by decide +kernel) nofun
  exact absurd hIn (by decide +kernel)

end WalletCore.Wallet
