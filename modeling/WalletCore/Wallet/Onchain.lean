import WalletCore.Wallet.Bdk

/-! # The on-chain wallet

Every operation that hands out an address, a script or a signed transaction persists what it staged
before it returns. An estimate builds a transaction too, and discards what the build staged.
-/

namespace WalletCore.Wallet

open Lib

/-- The stop gaps of the two full scans, and the window of the incremental sync. -/
def bdkColdRestoreStopGap : Nat := 200

def onchainSyncKeychainWindow : Nat := 20

/-! ## What is built -/

inductive TxSpec where
  | recipient (script : Script) (amountSats : Nat)
  | fundingOutput (script : Script) (amountSats : Nat)
  | drainAll (script : Script)
  | drainWithReserve (recipient : Script) (reserveSats : Nat)
deriving DecidableEq

structure BuiltTxFacts where
  feeSats : Nat
  outputs : List TxOut
deriving DecidableEq

inductive TxBuildFailure where
  | outputBelowDust
  | insufficientFunds (detail : String)
  | other (detail : String)
deriving DecidableEq

inductive OnchainSendError where
  | notRunning
  | invalidAddress (detail : String)
  | wrongNetwork
  | feeTooHigh
  | balanceTooLow
  | driftDetected
  | insufficientFunds (reserveSats : Nat)
  | amountBelowDust (minSats : Nat)
  | buildFailed (detail : String)
  | signingFailed (detail : String)
deriving DecidableEq

/-- What an output of a built transaction is for; the wallet's own ones with their internal index. -/
inductive OutputRole where
  | recipient
  | drain
  | change (index : Nat)
  | reserve (index : Nat)
deriving DecidableEq

def OutputRole.ownIndex : OutputRole → Option Nat
  | .recipient | .drain => none
  | .change index | .reserve index => some index

/-- Coins picked, what is left over for the change or the drain output, and the fee as read back. -/
structure Draft where
  coins : List LocalOutput
  excess : Option Nat
  fee : Except String Nat

/-- How the library answers one build. It may use up the change address of a build that then fails or
needs no change, and it shuffles the outputs: of two, either may come first. -/
structure BuildAnswer where
  takesChange : Bool
  reversed : Bool
  result : Except TxBuildFailure Draft

def BuildAnswer.hasExcess (answer : BuildAnswer) : Bool :=
  match answer.result with
  | .ok draft => draft.excess.isSome
  | .error _ => false

def BuildAnswer.taken (answer : BuildAnswer) : Bool := answer.takesChange || answer.hasExcess

/-- No build has more than two outputs. -/
def BuildAnswer.arrange {α : Type} (answer : BuildAnswer) (outputs : List α) : List α :=
  if answer.reversed then outputs.reverse else outputs

section

variable {α β : Type} (answer : BuildAnswer)

@[simp] theorem BuildAnswer.mem_arrange {outputs : List α} {x : α} : x ∈ answer.arrange outputs ↔ x ∈ outputs := by
  unfold arrange
  split
  · exact List.mem_reverse
  · rfl

@[simp] theorem BuildAnswer.arrange_nil : answer.arrange ([] : List α) = [] := ite_self _

@[simp] theorem BuildAnswer.arrange_singleton (x : α) : answer.arrange [x] = [x] := ite_self _

@[simp] theorem BuildAnswer.map_arrange (f : α → β) (outputs : List α) :
    (answer.arrange outputs).map f = answer.arrange (outputs.map f) := by
  unfold arrange
  split
  · exact List.map_reverse
  · rfl

@[simp] theorem BuildAnswer.filterMap_arrange (f : α → Option β) (outputs : List α) :
    (answer.arrange outputs).filterMap f = answer.arrange (outputs.filterMap f) := by
  unfold arrange
  split
  · exact List.filterMap_reverse
  · rfl

end

structure Psbt where
  coins : List LocalOutput
  outputs : List (OutputRole × TxOut)
  fee : Except String Nat

def Psbt.ownIndexes (psbt : Psbt) : List Nat := psbt.outputs.filterMap (·.1.ownIndex)

/-- The transaction a signed one is extracted into. -/
def Psbt.extractTx (psbt : Psbt) (txid : String) : Transaction :=
  ⟨txid, psbt.coins.map (·.outpoint), psbt.outputs.map Prod.snd⟩

def factsFrom (psbt : Psbt) : Except TxBuildFailure BuiltTxFacts :=
  match psbt.fee with
  | .ok feeSats => .ok ⟨feeSats, psbt.outputs.map Prod.snd⟩
  | .error detail => .error (.other detail)

/-- The answers a signed build depends on. -/
structure Signing where
  sign : Except String Bool
  extract : Except String String

section

variable (keys : Descriptors)

/-- A build without a drain script takes the lowest unused internal address for its change; the
reserve output takes a fresh one. -/
def buildTxLocked (w : BdkWallet) (spec : TxSpec) (answer : BuildAnswer) : Except TxBuildFailure Psbt × BdkWallet :=
  let toAmount (script : Script) (amountSats : Nat) : Except TxBuildFailure Psbt × BdkWallet :=
    let (change, w') := w.nextUnusedAddress keys .internal
    (answer.result.map fun draft => {
        coins := draft.coins
        outputs := answer.arrange ((.recipient, ⟨amountSats, script⟩) ::
          (draft.excess.map fun sats => (OutputRole.change change.index, ⟨sats, change.script keys⟩)).toList)
        fee := draft.fee },
      if answer.taken then w'.markUsed change else w)
  let drained (script : Script) (draft : Draft) : List (OutputRole × TxOut) :=
    (draft.excess.map fun sats => (.drain, ⟨sats, script⟩)).toList
  match spec with
  | .recipient script amountSats | .fundingOutput script amountSats => toAmount script amountSats
  | .drainAll script => (answer.result.map fun draft => ⟨draft.coins, drained script draft, draft.fee⟩, w)
  | .drainWithReserve recipient reserveSats =>
    let (reserve, w') := w.revealNextAddress .internal
    (answer.result.map fun draft => {
        coins := draft.coins
        outputs := answer.arrange
          ((.reserve reserve.index, ⟨reserveSats, reserve.script keys⟩) :: drained recipient draft)
        fee := draft.fee },
      w')

variable {keys} in
theorem buildTxLocked_draft {w : BdkWallet} {spec : TxSpec} {answer : BuildAnswer} {psbt : Psbt}
    (h : (buildTxLocked keys w spec answer).1 = .ok psbt) : ∃ draft, answer.result = .ok draft := by
  cases hResult : answer.result with
  | error failure => cases spec <;> simp [buildTxLocked, hResult, Except.map] at h
  | ok draft => exact ⟨draft, rfl⟩

end

/-! ## Close destinations -/

abbrev ChannelKeysId := Vector UInt8 32

def destinationIndexSpace : Nat := 10000

/-- The first four bytes, big-endian. -/
def destinationIndex (keysId : ChannelKeysId) : Nat :=
  (keysId.toList.take 4).foldl (fun raw byte => raw * 256 + byte.toNat) 0 % destinationIndexSpace

def derivedDestinationIndexes (channelKeysIds : List ChannelKeysId) : List Nat :=
  (channelKeysIds.map destinationIndex).dedup

/-! ## The wallet's operations -/

/-- `destinationIndexes` are the close destinations pinned into every sync; the marker file beside the
change set says that a wide scan revealed its range. -/
structure OnchainWallet where
  bdk : BdkWallet
  destinationIndexes : Finset Nat
  rangeFromWideScan : Bool
  wideScanMarker : Bool

namespace OnchainWallet

def live (w : OnchainWallet) : ChangeSet := w.bdk.live

def disk (w : OnchainWallet) : ChangeSet := w.bdk.staged.disk

/-- A marker that is there but cannot be read counts as set. -/
def new (disk : ChangeSet) (wideScanMarker unreadable : Bool) : OnchainWallet :=
  ⟨.load disk, ∅, wideScanMarker || unreadable, wideScanMarker⟩

def persisted (w : OnchainWallet) (writeError : Option String) : Bool := w.bdk.staged.persisted writeError.isSome

def persist (w : OnchainWallet) (writeError : Option String) : OnchainWallet :=
  { w with bdk := { w.bdk with staged := w.bdk.staged.persist writeError.isSome } }

/-- The address is returned only if the reveal could be persisted. -/
def vend (w : OnchainWallet) (vended : AddressInfo × BdkWallet) (writeError : Option String) :
    Option AddressInfo × OnchainWallet :=
  let w := { w with bdk := vended.2 }
  (if w.persisted writeError then some vended.1 else none, w.persist writeError)

def watchDestinationIndexes (w : OnchainWallet) (indexes : List Nat) : OnchainWallet :=
  { w with destinationIndexes := w.destinationIndexes ∪ indexes.toFinset }

def revealNextExternalScript (w : OnchainWallet) (writeError : Option String) : Option AddressInfo × OnchainWallet :=
  w.vend (w.bdk.revealNextAddress .external) writeError

def getChangeDestinationScript (w : OnchainWallet) (writeError : Option String) : Option AddressInfo × OnchainWallet :=
  w.vend (w.bdk.revealNextAddress .internal) writeError

/-- Pinned before anything can fail. -/
def destinationScriptForIndex (w : OnchainWallet) (index : Nat) (writeError : Option String) :
    Option AddressInfo × OnchainWallet :=
  (w.watchDestinationIndexes [index]).vend (⟨.external, index⟩, w.bdk.revealAddressesTo .external index) writeError

def revealExternalAddressesTo (w : OnchainWallet) (index : Nat) (writeError : Option String) : Bool × OnchainWallet :=
  let w := { w with bdk := w.bdk.revealAddressesTo .external index }
  (w.persisted writeError, w.persist writeError)

/-- Every loaded channel's destination is pinned, and the highest one revealed. -/
def revealDerivedDestinations (w : OnchainWallet) (indexes : List Nat) (writeError : Option String) :
    Option Nat × OnchainWallet :=
  let w := w.watchDestinationIndexes indexes
  match indexes.max? with
  | none => (none, w)
  | some maxIndex =>
    let (revealed, w) := w.revealExternalAddressesTo maxIndex writeError
    (if revealed then some maxIndex else none, w)

def applyUpdate (w : OnchainWallet) (update : ChangeSet) (writeError : Option String) : Bool × OnchainWallet :=
  let w := { w with bdk := w.bdk.apply update }
  (w.persisted writeError, w.persist writeError)

/-- Only a scan wider than the window is recorded, and a failed write is not retried. -/
def recordWideScanRange (w : OnchainWallet) (stopGap : Nat) (markerFails : Bool) : OnchainWallet :=
  if stopGap ≤ onchainSyncKeychainWindow || w.rangeFromWideScan then w
  else { w with rangeFromWideScan := true, wideScanMarker := w.wideScanMarker || !markerFails }

/-- A sync that reached the server; the first one of a wallet is a full scan. -/
def sync (w : OnchainWallet) (update : ChangeSet) (stopGap : Nat) (writeError : Option String) (markerFails : Bool) :
    Bool × OnchainWallet :=
  let (applied, synced) := w.applyUpdate update writeError
  (applied, if applied && w.live.tip = 0 then synced.recordWideScanRange stopGap markerFails else synced)

def applyUnconfirmedTx (w : OnchainWallet) (tx : Transaction) (writeError : Option String) : Bool × OnchainWallet :=
  w.applyUpdate { (⊥ : ChangeSet) with txs := {tx} } writeError

@[simp] theorem live_persist (w : OnchainWallet) (writeError : Option String) : (w.persist writeError).live = w.live :=
  Staged.persist_live _ _

@[simp] theorem live_vend (w : OnchainWallet) (vended : AddressInfo × BdkWallet) (writeError : Option String) :
    (w.vend vended writeError).2.live = vended.2.live := live_persist _ _

theorem live_revealNextExternalScript (w : OnchainWallet) (writeError : Option String) :
    (w.revealNextExternalScript writeError).2.live = w.live ⊔ .reveal .external (w.live.revealed .external) := by
  rw [revealNextExternalScript, live_vend]
  exact BdkWallet.live_apply _ _

theorem live_getChangeDestinationScript (w : OnchainWallet) (writeError : Option String) :
    (w.getChangeDestinationScript writeError).2.live = w.live ⊔ .reveal .internal (w.live.revealed .internal) := by
  rw [getChangeDestinationScript, live_vend]
  exact BdkWallet.live_apply _ _

@[simp] theorem live_applyUpdate (w : OnchainWallet) (update : ChangeSet) (writeError : Option String) :
    (w.applyUpdate update writeError).2.live = w.live ⊔ update := by
  rw [applyUpdate, live_persist]
  exact ChangeSet.sup_news _ _

variable (keys : Descriptors)

def nextReceiveAddress (w : OnchainWallet) (writeError : Option String) : Option AddressInfo × OnchainWallet :=
  w.vend (w.bdk.nextUnusedAddress keys .external) writeError

def nextUnusedAddressScript (w : OnchainWallet) (writeError : Option String) : Option AddressInfo × OnchainWallet :=
  w.vend (w.bdk.nextUnusedAddress keys .external) writeError

def trustedSpendableSats (w : OnchainWallet) : Nat := w.bdk.trustedSpendable keys

def isMineScript (w : OnchainWallet) (script : Script) : Bool := w.bdk.isMine keys script

def confirmedUtxos (w : OnchainWallet) : Finset LocalOutput := (w.bdk.listUnspent keys).filter (·.confirmed)

/-- Confirmed or internal: what an unconfirmed receive is not. -/
def spendable (w : OnchainWallet) : Finset LocalOutput := (w.bdk.listUnspent keys).filter (·.trusted)

def discard (w : OnchainWallet) : OnchainWallet := { w with bdk := w.bdk.takeStaged }

def estimateOnchainTx (w : OnchainWallet) (spec : TxSpec) (answer : BuildAnswer) :
    Except TxBuildFailure BuiltTxFacts × OnchainWallet :=
  let (built, bdk) := buildTxLocked keys w.bdk spec answer
  (built.bind factsFrom, { w with bdk := bdk.takeStaged })

/-- Verified before anything is signed. -/
def approve (built : Except TxBuildFailure Psbt) (verify : BuiltTxFacts → Except OnchainSendError Unit)
    (mapBuildFailure : TxBuildFailure → OnchainSendError) (signing : Signing) :
    Except OnchainSendError (Psbt × Transaction) :=
  match built.bind fun psbt => (factsFrom psbt).map (psbt, ·) with
  | .error failure => .error (mapBuildFailure failure)
  | .ok (psbt, facts) => do
    verify facts
    match signing.sign with
    | .error detail => .error (.signingFailed detail)
    | .ok false => .error (.signingFailed "the signed transaction did not finalize")
    | .ok true =>
      match signing.extract with
      | .error detail => .error (.signingFailed detail)
      | .ok txid => .ok (psbt, psbt.extractTx txid)

/-- Persisted before it is returned. Every rejection discards what the build staged, a failed write
does not. -/
def createOnchainTx (w : OnchainWallet) (spec : TxSpec) (answer : BuildAnswer)
    (verify : BuiltTxFacts → Except OnchainSendError Unit) (mapBuildFailure : TxBuildFailure → OnchainSendError)
    (signing : Signing) (writeError : Option String) :
    Except OnchainSendError (Psbt × Transaction) × OnchainWallet :=
  let (built, bdk) := buildTxLocked keys w.bdk spec answer
  let w := { w with bdk }
  match approve built verify mapBuildFailure signing with
  | .error rejection => (.error rejection, w.discard)
  | .ok signed =>
    if w.persisted writeError then (.ok signed, w.persist writeError)
    else (.error (.buildFailed ("failed to persist the wallet changeset: " ++ writeError.getD "")), w.persist writeError)

theorem approve_ok {built : Except TxBuildFailure Psbt} {verify : BuiltTxFacts → Except OnchainSendError Unit}
    {mapBuildFailure : TxBuildFailure → OnchainSendError} {signing : Signing} {signed : Psbt × Transaction}
    (h : approve built verify mapBuildFailure signing = .ok signed) :
    built = .ok signed.1 ∧ (∃ facts, factsFrom signed.1 = .ok facts ∧ verify facts = .ok ()) ∧
      ∃ txid, signing.extract = .ok txid ∧ signed.2 = signed.1.extractTx txid := by
  unfold approve at h
  cases built with
  | error failure => cases h
  | ok psbt =>
    cases hFacts : factsFrom psbt with
    | error failure => simp [Except.bind, Except.map, hFacts] at h
    | ok facts =>
      simp only [Except.bind, Except.map, hFacts] at h
      cases hVerify : verify facts with
      | error rejection => simp [hVerify, bind, Except.bind] at h
      | ok =>
        simp only [hVerify, bind, Except.bind] at h
        split at h
        · cases h
        · cases h
        · split at h
          · cases h
          · next txid hExtract =>
            cases h
            exact ⟨rfl, ⟨facts, hFacts, hVerify⟩, txid, hExtract, rfl⟩

/-! ## The incremental sync -/

structure SyncRequest where
  spks : Finset AddressInfo
  outpoints : Finset OutPoint

/-- As wide as the scan that revealed the range. -/
def lowWindow (w : OnchainWallet) : Nat :=
  if w.rangeFromWideScan then bdkColdRestoreStopGap else onchainSyncKeychainWindow

/-- What has history, and both ends of the revealed range. -/
def windows (w : OnchainWallet) (k : KeychainKind) : List Nat :=
  (List.range (w.bdk.tracked k)).filter (w.bdk.isUsed keys k) ++
    (w.bdk.unusedKeychainSpks keys k).take w.lowWindow ++
    (List.range (w.live.revealed k)).reverse.take onchainSyncKeychainWindow

def boundedSyncRequest (w : OnchainWallet) : SyncRequest where
  spks := ((w.windows keys .external).map (AddressInfo.mk .external)).toFinset ∪
    ((w.windows keys .internal).map (AddressInfo.mk .internal)).toFinset ∪
    w.destinationIndexes.image (AddressInfo.mk .external)
  outpoints := (w.bdk.listUnspent keys).image (·.outpoint)

end OnchainWallet

end WalletCore.Wallet
