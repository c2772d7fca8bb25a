import WalletCore.Lib.Json

/-! # Close records and their merge

One record holds the immutable facts of one channel close; its display status is
derived and never stored. The merge takes the existing record as base and a record
with new facts as incoming, and is deliberately not commutative.
-/

namespace WalletCore.CloseRecords

open Lib

inductive CloseType where
  | coop
  | force
  | unknown
deriving DecidableEq, Repr

inductive Initiator where
  | «local»
  | remote
  | unknown
deriving DecidableEq, Repr

/-- `other` keeps the role strings of newer schema versions verbatim. -/
inductive CloseTxRole where
  | closing
  | commitment
  | anchorCpfp
  | htlcClaim
  | sweep
  | other (role : String)
deriving DecidableEq, Repr

def CloseTxRole.isClose : CloseTxRole → Bool
  | .closing | .commitment => true
  | _ => false

inductive Resolution where
  | verified
  | unverified
deriving DecidableEq, Repr

structure CloseOutpoint where
  txid : String
  vout : UInt32
deriving DecidableEq, Repr

structure CloseRecordTx where
  txid : String
  role : CloseTxRole
  feeSats : Option UInt64
  confirmedAtHeight : Option UInt32
deriving DecidableEq, Repr

structure CloseRecord where
  schemaVersion : UInt64
  channelId : String
  fundingTxo : Option CloseOutpoint
  closeType : CloseType
  initiator : Initiator
  closureReason : Option String
  txs : List CloseRecordTx
  expectedAmountSats : Option UInt64
  timelockBlocks : Option UInt32
  claimableAtHeight : Option UInt32
  createdAtMs : UInt64
  completedAtMs : Option UInt64
  resolution : Option Resolution
  extras : JsonMap
deriving DecidableEq

def closeRecordSchemaVersion : UInt64 := 1

namespace CloseRecord

def skeleton (channelId : String) (createdAtMs : UInt64) : CloseRecord where
  schemaVersion := closeRecordSchemaVersion
  channelId := channelId
  fundingTxo := none
  closeType := .unknown
  initiator := .unknown
  closureReason := none
  txs := []
  expectedAmountSats := none
  timelockBlocks := none
  claimableAtHeight := none
  createdAtMs := createdAtMs
  completedAtMs := none
  resolution := none
  extras := ∅

def hasConfirmedCloseTx (record : CloseRecord) : Bool :=
  record.txs.any fun tx => tx.role.isClose && tx.confirmedAtHeight.isSome

end CloseRecord

/-! ## The merge -/

/-- Per-field fill-in of one transaction, preferring the existing side. -/
def fillTx (existing tx : CloseRecordTx) : CloseRecordTx where
  txid := existing.txid
  role := existing.role
  feeSats := existing.feeSats.or tx.feeSats
  confirmedAtHeight := existing.confirmedAtHeight.or tx.confirmedAtHeight

/-- One round of the union by txid: fill in the first entry with this txid, else append. -/
def mergeTx : List CloseRecordTx → CloseRecordTx → List CloseRecordTx
  | [], tx => [tx]
  | existing :: rest, tx =>
    if existing.txid = tx.txid then fillTx existing tx :: rest else existing :: mergeTx rest tx

def mergeTxs (base incoming : List CloseRecordTx) : List CloseRecordTx := incoming.foldl mergeTx base

def mergeResolution (base incoming : Option Resolution) : Option Resolution :=
  if base = some .verified ∨ incoming = some .verified then some .verified else base.or incoming

def mergeCloseRecords (base incoming : CloseRecord) : CloseRecord where
  schemaVersion := max base.schemaVersion incoming.schemaVersion
  channelId := base.channelId
  fundingTxo := base.fundingTxo.or incoming.fundingTxo
  closeType := if incoming.closeType ≠ .unknown then incoming.closeType else base.closeType
  initiator := if incoming.initiator ≠ .unknown then incoming.initiator else base.initiator
  closureReason := base.closureReason.or incoming.closureReason
  txs := mergeTxs base.txs incoming.txs
  expectedAmountSats := incoming.expectedAmountSats.or base.expectedAmountSats
  timelockBlocks := base.timelockBlocks.or incoming.timelockBlocks
  claimableAtHeight := incoming.claimableAtHeight.or base.claimableAtHeight
  createdAtMs := min base.createdAtMs incoming.createdAtMs
  completedAtMs := base.completedAtMs.or incoming.completedAtMs
  resolution := mergeResolution base.resolution incoming.resolution
  -- `{...incoming.extras, ...base.extras}`: the union prefers its left side.
  extras := base.extras ∪ incoming.extras

theorem mergeTx_forall {P : CloseRecordTx → Prop} (hFill : ∀ existing tx, existing.txid = tx.txid → P existing →
    P tx → P (fillTx existing tx)) {txs : List CloseRecordTx} {tx : CloseRecordTx} (hTxs : ∀ t ∈ txs, P t)
    (hTx : P tx) : ∀ t ∈ mergeTx txs tx, P t := by
  induction txs with
  | nil =>
    rw [mergeTx, List.forall_mem_singleton]
    exact hTx
  | cons existing rest ih =>
    rw [List.forall_mem_cons] at hTxs
    rw [mergeTx]
    split
    · rename_i hId
      exact List.forall_mem_cons.mpr ⟨hFill existing tx hId hTxs.1 hTx, hTxs.2⟩
    · exact List.forall_mem_cons.mpr ⟨hTxs.1, ih hTxs.2⟩

theorem mergeTxs_forall {P : CloseRecordTx → Prop} (hFill : ∀ existing tx, existing.txid = tx.txid → P existing →
    P tx → P (fillTx existing tx)) {base incoming : List CloseRecordTx} (hBase : ∀ tx ∈ base, P tx)
    (hIncoming : ∀ tx ∈ incoming, P tx) : ∀ tx ∈ mergeTxs base incoming, P tx :=
  List.foldlRecOn incoming mergeTx (motive := fun txs => ∀ tx ∈ txs, P tx) hBase
    fun _ hTxs tx hMem => mergeTx_forall hFill hTxs (hIncoming tx hMem)

/-! ## What a later record keeps of an earlier one -/

/-- A set-once field: unset may become set, a set value stays. -/
def SetOnce {α : Type} (old new : Option α) : Prop := ∀ v, old = some v → new = some v

theorem SetOnce.refl {α : Type} (a : Option α) : SetOnce a a := fun _ h => h

theorem SetOnce.trans {α : Type} {a b c : Option α} (h : SetOnce a b) (h' : SetOnce b c) :
    SetOnce a c := fun v hv => h' v (h v hv)

theorem setOnce_or {α : Type} (a b : Option α) : SetOnce a (a.or b) := by
  intro v h
  rw [h]
  rfl

structure CloseRecordTx.Keeps (old new : CloseRecordTx) : Prop where
  txid : new.txid = old.txid
  role : new.role = old.role
  feeSats : SetOnce old.feeSats new.feeSats
  confirmedAtHeight : SetOnce old.confirmedAtHeight new.confirmedAtHeight

theorem CloseRecordTx.Keeps.refl (tx : CloseRecordTx) : tx.Keeps tx :=
  ⟨rfl, rfl, .refl _, .refl _⟩

theorem CloseRecordTx.Keeps.trans {a b c : CloseRecordTx} (h : a.Keeps b) (h' : b.Keeps c) :
    a.Keeps c :=
  ⟨h'.txid.trans h.txid, h'.role.trans h.role, h.feeSats.trans h'.feeSats,
    h.confirmedAtHeight.trans h'.confirmedAtHeight⟩

/-- Every entry stays at its place, so the stored txids keep their relative order. -/
def TxsKept (old new : List CloseRecordTx) : Prop :=
  ∀ (i : Nat) (tx : CloseRecordTx), old[i]? = some tx → ∃ tx', new[i]? = some tx' ∧ tx.Keeps tx'

theorem TxsKept.refl (txs : List CloseRecordTx) : TxsKept txs txs := fun _ tx h => ⟨tx, h, .refl tx⟩

theorem TxsKept.trans {a b c : List CloseRecordTx} (h : TxsKept a b) (h' : TxsKept b c) :
    TxsKept a c := by
  intro i tx hTx
  obtain ⟨tx', hTx', hKeeps⟩ := h i tx hTx
  obtain ⟨tx'', hTx'', hKeeps'⟩ := h' i tx' hTx'
  exact ⟨tx'', hTx'', hKeeps.trans hKeeps'⟩

structure CloseRecord.Keeps (old new : CloseRecord) : Prop where
  channelId : new.channelId = old.channelId
  txs : TxsKept old.txs new.txs
  fundingTxo : SetOnce old.fundingTxo new.fundingTxo
  closureReason : SetOnce old.closureReason new.closureReason
  timelockBlocks : SetOnce old.timelockBlocks new.timelockBlocks
  completedAtMs : SetOnce old.completedAtMs new.completedAtMs
  verified : old.resolution = some .verified → new.resolution = some .verified
  resolved : old.resolution ≠ none → new.resolution ≠ none
  createdAtMs : new.createdAtMs ≤ old.createdAtMs
  schemaVersion : old.schemaVersion ≤ new.schemaVersion
  closeType : old.closeType ≠ .unknown → new.closeType ≠ .unknown
  initiator : old.initiator ≠ .unknown → new.initiator ≠ .unknown
  extras : ∀ key, SetOnce (old.extras.lookup key) (new.extras.lookup key)

theorem CloseRecord.Keeps.refl (record : CloseRecord) : record.Keeps record where
  channelId := rfl
  txs := .refl _
  fundingTxo := .refl _
  closureReason := .refl _
  timelockBlocks := .refl _
  completedAtMs := .refl _
  verified := id
  resolved := id
  createdAtMs := UInt64.le_refl _
  schemaVersion := UInt64.le_refl _
  closeType := id
  initiator := id
  extras _ := .refl _

theorem CloseRecord.Keeps.trans {a b c : CloseRecord} (h : a.Keeps b) (h' : b.Keeps c) :
    a.Keeps c where
  channelId := h'.channelId.trans h.channelId
  txs := h.txs.trans h'.txs
  fundingTxo := h.fundingTxo.trans h'.fundingTxo
  closureReason := h.closureReason.trans h'.closureReason
  timelockBlocks := h.timelockBlocks.trans h'.timelockBlocks
  completedAtMs := h.completedAtMs.trans h'.completedAtMs
  verified := h'.verified ∘ h.verified
  resolved := h'.resolved ∘ h.resolved
  createdAtMs := UInt64.le_trans h'.createdAtMs h.createdAtMs
  schemaVersion := UInt64.le_trans h.schemaVersion h'.schemaVersion
  closeType := h'.closeType ∘ h.closeType
  initiator := h'.initiator ∘ h.initiator
  extras key := (h.extras key).trans (h'.extras key)

/-! ## The merge keeps its base -/

theorem fillTx_keeps (existing tx : CloseRecordTx) : existing.Keeps (fillTx existing tx) :=
  ⟨rfl, rfl, setOnce_or _ _, setOnce_or _ _⟩

theorem mergeTx_keeps (txs : List CloseRecordTx) (tx : CloseRecordTx) : TxsKept txs (mergeTx txs tx) := by
  induction txs with
  | nil =>
    intro i old h
    simp at h
  | cons existing rest ih =>
    intro i old h
    rw [mergeTx]
    split
    · cases i with
      | zero =>
        cases h
        exact ⟨_, rfl, fillTx_keeps _ tx⟩
      | succ i => exact ⟨old, h, .refl old⟩
    · cases i with
      | zero => exact ⟨old, h, .refl old⟩
      | succ i => exact ih i old h

theorem mergeTxs_keeps (base incoming : List CloseRecordTx) : TxsKept base (mergeTxs base incoming) := by
  induction incoming generalizing base with
  | nil => exact .refl base
  | cons tx rest ih => exact (mergeTx_keeps base tx).trans (ih (mergeTx base tx))

theorem u64_min_le_left (a b : UInt64) : min a b ≤ a := by
  rw [show min a b = if a ≤ b then a else b from rfl]
  split
  · exact UInt64.le_refl a
  · rename_i h
    exact UInt64.le_of_lt (UInt64.not_le.mp h)

theorem u64_le_max_left (a b : UInt64) : a ≤ max a b := by
  rw [show max a b = if a ≤ b then b else a from rfl]
  split
  · assumption
  · exact UInt64.le_refl a

theorem mergeResolution_verified (base incoming : Option Resolution) (h : base = some .verified) :
    mergeResolution base incoming = some .verified := by
  rw [mergeResolution, if_pos (Or.inl h)]

theorem mergeResolution_ne_none (base incoming : Option Resolution) (h : base ≠ none) :
    mergeResolution base incoming ≠ none := by
  rw [mergeResolution]
  split
  · exact Option.some_ne_none _
  · cases base with
    | none => exact absurd rfl h
    | some r => exact Option.some_ne_none r

theorem lookup_union_keeps (base incoming : JsonMap) (key : String) :
    SetOnce (base.lookup key) ((base ∪ incoming).lookup key) := by
  intro v h
  rw [Finmap.lookup_union_left (Finmap.mem_of_lookup_eq_some h), h]

/-- Whatever the incoming record says, the merge keeps every fact of its base. -/
theorem mergeCloseRecords_keeps (base incoming : CloseRecord) :
    base.Keeps (mergeCloseRecords base incoming) where
  channelId := rfl
  txs := mergeTxs_keeps _ _
  fundingTxo := setOnce_or _ _
  closureReason := setOnce_or _ _
  timelockBlocks := setOnce_or _ _
  completedAtMs := setOnce_or _ _
  verified := mergeResolution_verified _ _
  resolved := mergeResolution_ne_none _ _
  createdAtMs := u64_min_le_left _ _
  schemaVersion := u64_le_max_left _ _
  closeType h := by
    simp only [mergeCloseRecords]
    split <;> assumption
  initiator h := by
    simp only [mergeCloseRecords]
    split <;> assumption
  extras := lookup_union_keeps _ _

end WalletCore.CloseRecords
