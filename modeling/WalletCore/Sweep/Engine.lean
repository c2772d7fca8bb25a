import WalletCore.CloseRecords.Store
import WalletCore.Sweep.Broadcast
import WalletCore.Sweep.Prune
import WalletCore.Sweep.Subsidy

/-! # The sweep engine

Events are tracked into the store. A pass prunes the store, spends the whole batch in one transaction,
takes out members that can never be signed, falls back to a subsidized transaction, and deletes the
batch's entries once the broadcast is taken for a success.
-/

namespace WalletCore.Sweep

open CloseRecords Lib
open Restore (hexStr)
open Wallet hiding Psbt

/-- `spentSubsidyOutpoints` are the coins that subsidized sweeps of this session took. -/
structure SweepEngine where
  store : SweepStore
  wallet : OnchainWallet
  closeRecords : CloseRecordStore
  spentSubsidyOutpoints : Finset OutPoint
  inProgress : Bool

/-! ## Tracking -/

/-- What a tracking call knows to be in the store already, and what it adds. -/
structure Tracking where
  wallet : OnchainWallet
  knownHexes : Finset String
  knownOutpoints : Finset String
  descriptors : List String
  outpoints : List StoredOutpoint

def storedOutpointKey (o : StoredOutpoint) : String := o.txid ++ ":" ++ Nat.repr o.vout.toNat

def Tracking.start (entries : List (String × StoredEntry)) (wallet : OnchainWallet) : Tracking where
  wallet := wallet
  knownHexes := (entries.flatMap (·.2.descriptors)).toFinset
  knownOutpoints := ((entries.flatMap (·.2.outpoints)).map storedOutpointKey).toFinset
  descriptors := []
  outpoints := []

section

variable (signer : Signer) (keys : Descriptors)

/-- `writeError` is met if the output's script is revealed on the way. -/
def Tracking.output (t : Tracking) (descriptor : SpendableOutputDescriptor) (writeError : Option String) : Tracking :=
  let (owned, wallet) := isWalletOwnedStaticOutput keys t.wallet descriptor writeError
  let t := { t with wallet }
  if owned then t
  else
    let hex := hexStr (signer.encode descriptor)
    let outpoint := descriptor.spendableOutpoint
    if hex ∈ t.knownHexes ∨ outpointKey outpoint ∈ t.knownOutpoints then t
    else
      { t with
        knownHexes := insert hex t.knownHexes
        knownOutpoints := insert (outpointKey outpoint) t.knownOutpoints
        descriptors := t.descriptors ++ [hex]
        outpoints := t.outpoints ++
          [⟨outpoint.txid, outpoint.index.toUInt32, Nat.repr (descriptorValueSats descriptor)⟩] }

/-- What a call finds to add, over the entries as it has read them. -/
def collectOutputs (entries : List (String × StoredEntry)) (wallet : OnchainWallet)
    (outputs : List (SpendableOutputDescriptor × Option String)) : Tracking :=
  outputs.foldl (fun t (descriptor, writeError) => t.output signer keys descriptor writeError) (.start entries wallet)

/-- The second half of a call: one new file, or none. -/
def storeOutputs (store : SweepStore) (t : Tracking) (channelIdHex : Option String) (key : String) (fails : Bool) :
    Except Unit Nat × SweepStore :=
  if t.descriptors = [] then (.ok 0, store)
  else
    (if fails then .error () else .ok t.descriptors.length,
      store.writeEntry key ⟨t.descriptors, channelIdHex, t.outpoints⟩ fails)

theorem storeOutputs_snd (store : SweepStore) (t : Tracking) (channelIdHex : Option String) (key : String) (fails : Bool) :
    (storeOutputs store t channelIdHex key fails).2 =
      if t.descriptors = [] then store else store.writeEntry key ⟨t.descriptors, channelIdHex, t.outpoints⟩ fails := by
  rw [storeOutputs]
  split <;> rfl

theorem storeOutputs_entryAt {store : SweepStore} {t : Tracking} {channelIdHex : Option String} {key other : String}
    {fails : Bool} {entry : StoredEntry} (hNew : store.files.lookup key = none)
    (hEntry : store.entryAt other = some entry) :
    (storeOutputs store t channelIdHex key fails).2.entryAt other = some entry := by
  have hOther : other ≠ key := by
    rintro rfl
    rw [SweepStore.entryAt, hNew] at hEntry
    cases hEntry
  rw [storeOutputs_snd]
  split_ifs
  · exact hEntry
  · rw [SweepStore.entryAt_writeEntry, if_neg (fun h => hOther h.1)]
    exact hEntry

def trackSpendableOutputs (e : SweepEngine) (listing : List String)
    (outputs : List (SpendableOutputDescriptor × Option String)) (channelIdHex : Option String) (key : String)
    (fails : Bool) : Except Unit Nat × SweepEngine :=
  let t := collectOutputs signer keys (e.store.entries listing.dedup) e.wallet outputs
  let (count, store) := storeOutputs e.store t channelIdHex key fails
  (count, { e with store, wallet := t.wallet })

end

/-! ## Answers a pass meets -/

inductive StoreWrite where
  | pruneEntry
  | removeEmptied
  | rewriteMembers
  | removeDropped
  | commit
deriving DecidableEq

/-- Listings, failures, fees, the coins as they are listed, and the chain: what it answers to a
transaction, which ones it knows, and whether it can be asked. -/
structure PassEnv where
  listing : List String
  relisting : List String
  storeFails : StoreWrite → String → Bool
  revealError : String → Option String
  destinationError : Option String
  changeError : Option String
  registerError : Option String
  sendRateSatPerVb : Nat
  urgentSatPerKw : Nat
  reserveSats : Nat
  coins : List LocalOutput
  broadcast : Transaction → BroadcastAnswer
  chainKnows : String → Bool
  chainReachable : Bool
  nowMs : UInt64

namespace PassEnv

def sweepRateSatPerVb (env : PassEnv) : Nat :=
  min (max env.sendRateSatPerVb minSweepRateSatPerVb) maxSweepRateSatPerVb

/-- An unreachable server knows nothing. -/
def txKnown (env : PassEnv) (txid : String) : Bool := env.chainReachable && env.chainKnows txid

end PassEnv

/-! ## Taking out members -/

def removedEntry (poisoned : List BatchMember) (entry : StoredEntry) : StoredEntry :=
  { entry with
    descriptors := entry.descriptors.filter fun hex => ¬ ∃ m ∈ poisoned, hexStr m.bytes = hex
    outpoints := entry.outpoints.filter fun o =>
      ¬ ∃ m ∈ poisoned, outpointKey m.descriptor.spendableOutpoint = storedOutpointKey o }

/-- The entries are read again. A member is looked for by the hex of its bytes, which need not be the
text it was read from. -/
def removeMembers (store : SweepStore) (env : PassEnv) (poisoned : List BatchMember) : SweepStore :=
  let affected := (store.entries env.relisting.dedup).filter fun e => ∃ m ∈ poisoned, m.entryKey = e.1
  let (emptied, left) := affected.partition fun e => (removedEntry poisoned e.2).descriptors = []
  (left.foldl (fun store e =>
      store.writeEntry e.1 (removedEntry poisoned e.2) (env.storeFails .rewriteMembers e.1)) store).removeEntries
    (emptied.map Prod.fst) (env.storeFails .removeDropped)

/-! ## The subsidized path -/

inductive SubsidizedFailure where
  | ldkCreatePsbt
  | subDustOutput
  | negativeLdkFee
  | noSubsidyNeeded
  | changeScript
  | unexpectedChangeScript
  | feeMismatch
  | feeUnreadable
  | feeSanity (e : FeeSanityError)
  | ldkSign
  | bdkSign (detail : String)
  | bdkSignIncomplete
  | postSignFeeMismatch
  | extractTx
  | broadcastAmbiguous
  | broadcast (detail : String)
deriving DecidableEq

inductive SubsidizedOutcome where
  | broadcast (txid : String) (subsidySats : Nat)
  | shortfall (neededSubsidySats availableSats shortfallSats : Nat)
  | notEconomical (neededSubsidySats pendingSats : Nat)
  | failed (reason : SubsidizedFailure)
deriving DecidableEq

structure SubsidyPlan where
  psbt : SweepPsbt
  ldkWeightWu : Nat
  selection : SubsidySelection

section

variable (signer : Signer)

/-- Nothing is spent on chain beyond what the sweep delivers. -/
def planSubsidy (descriptors : List SpendableOutputDescriptor) (destination : Script) (targetRateSatPerVb : Nat)
    (candidates : List SubsidyInput) (reserveSats : Nat) : Except SubsidizedOutcome SubsidyPlan :=
  match signer.createSpendableOutputsPsbt descriptors destination floorFeerateSatPerKw with
  | none => .error (.failed .ldkCreatePsbt)
  | some (psbt, ldkWeightWu) =>
    let ldkInputSats := (psbt.inputs.filterMap fun input => input.witnessUtxo.map (·.value)).sum
    let ldkFeeSats := ldkInputSats - psbt.outputSats
    let minimumSubsidy :=
      feeForWeight (ldkWeightWu + subsidyInputWeightWu + changeOutputWeightWu) targetRateSatPerVb - ldkFeeSats
    if psbt.outputs.any (·.value < dustLimitSats) then .error (.failed .subDustOutput)
    else if ldkInputSats < psbt.outputSats then .error (.failed .negativeLdkFee)
    else if minimumSubsidy = 0 then .error (.failed .noSubsidyNeeded)
    else if psbt.outputSats ≤ minimumSubsidy then .error (.notEconomical minimumSubsidy ldkInputSats)
    else
      match selectSubsidyInputs candidates ldkWeightWu ldkFeeSats targetRateSatPerVb reserveSats with
      | .shortfall needed available => .error (.shortfall needed available (max (needed - available) 1))
      | .selected selection =>
        if psbt.outputSats ≤ selection.subsidySats then .error (.notEconomical selection.subsidySats ldkInputSats)
        else .ok ⟨psbt, ldkWeightWu, selection⟩

/-- The change goes to a fresh internal script, which has to be a witness program of 22 bytes. -/
def subsidyChange (keys : Descriptors) (wallet : OnchainWallet) (changeSats : Option Nat) (changeError : Option String) :
    Except SubsidizedOutcome (Option TxOut) × OnchainWallet :=
  match changeSats with
  | none => (.ok none, wallet)
  | some sats =>
    let (address, wallet) := wallet.getChangeDestinationScript changeError
    match address.map (AddressInfo.script keys) with
    | none => (.error (.failed .changeScript), wallet)
    | some script =>
      (if script.length ≠ 22 then .error (.failed .unexpectedChangeScript) else .ok (some ⟨sats, script⟩), wallet)

def SubsidyPlan.complete (plan : SubsidyPlan) (change : Option TxOut) : SweepPsbt where
  inputs := plan.psbt.inputs ++
    plan.selection.selected.map fun input => ⟨input.outpoint, rbfSequence, some ⟨input.valueSats, input.scriptPubkey⟩⟩
  outputs := plan.psbt.outputs ++ change.toList

def SubsidyPlan.estimatedWeightWu (plan : SubsidyPlan) : Nat :=
  plan.ldkWeightWu + plan.selection.selected.length * subsidyInputWeightWu +
    if plan.selection.changeSats.isSome then changeOutputWeightWu else 0

/-- The fee is read back before and after both signatures. -/
def signSubsidized (descriptors : List SpendableOutputDescriptor) (plan : SubsidyPlan) (change : Option TxOut)
    (urgentSatPerKw : Nat) : Except SubsidizedOutcome Transaction :=
  let psbt := plan.complete change
  match psbt.fee with
  | none => .error (.failed .feeUnreadable)
  | some fee =>
    if fee ≠ plan.selection.totalFeeSats then .error (.failed .feeMismatch)
    else
      match checkFeeSanity plan.selection.totalFeeSats plan.estimatedWeightWu (feeSanityMaxSatPerKw urgentSatPerKw) with
      | .error e => .error (.failed (.feeSanity e))
      | .ok () =>
        match signer.signSpendableOutputsPsbt descriptors psbt with
        | none => .error (.failed .ldkSign)
        | some psbt =>
          match signer.signPsbtTrusted psbt with
          | .error detail => .error (.failed (.bdkSign detail))
          | .ok (false, _) => .error (.failed .bdkSignIncomplete)
          | .ok (true, psbt) =>
            if psbt.fee ≠ some plan.selection.totalFeeSats then .error (.failed .postSignFeeMismatch)
            else
              match signer.extractTx psbt with
              | none => .error (.failed .extractTx)
              | some tx => .ok tx

/-- A benign error is believed only if the chain knows the transaction. -/
def confirmSubsidized (env : PassEnv) (tx : Transaction) : Except SubsidizedFailure Unit :=
  match broadcastTransaction (env.broadcast tx) with
  | .accepted => .ok ()
  | .alreadyKnown => if env.txKnown tx.txid then .ok () else .error .broadcastAmbiguous
  | .failed detail => .error (.broadcast detail)

/-- What an attempt leaves behind; `submitted` is the transaction it broadcast. -/
structure SubsidizedAttempt where
  outcome : SubsidizedOutcome
  wallet : OnchainWallet
  reserved : Finset OutPoint
  submitted : Option Transaction

def attemptSubsidized (keys : Descriptors) (env : PassEnv) (wallet : OnchainWallet) (reserved : Finset OutPoint)
    (descriptors : List SpendableOutputDescriptor) (destination : Script) : SubsidizedAttempt :=
  match planSubsidy signer descriptors destination env.sweepRateSatPerVb
      (confirmedP2wpkhCandidates keys wallet reserved env.coins) env.reserveSats with
  | .error outcome => ⟨outcome, wallet, reserved, none⟩
  | .ok plan =>
    let (change, wallet) := subsidyChange keys wallet plan.selection.changeSats env.changeError
    match change.bind fun change => signSubsidized signer descriptors plan change env.urgentSatPerKw with
    | .error outcome => ⟨outcome, wallet, reserved, none⟩
    | .ok tx =>
      match confirmSubsidized env tx with
      | .error reason => ⟨.failed reason, wallet, reserved, some tx⟩
      | .ok () =>
        { outcome := .broadcast tx.txid plan.selection.subsidySats
          wallet := (wallet.applyUnconfirmedTx tx env.registerError).2
          reserved := reserved ∪ (plan.selection.selected.map (·.outpoint)).toFinset
          submitted := some tx }

end

/-! ## A pass -/

structure SweepPassSummary where
  swept : Nat
  skipped : Nat
  txid : Option String
deriving DecidableEq

def SweepPassSummary.default : SweepPassSummary := ⟨0, 0, none⟩

/-- `submitted` is the transaction the pass broadcast; a pass that panics returns no summary. -/
structure PassResult where
  engine : SweepEngine
  summary : Option SweepPassSummary
  submitted : Option Transaction

namespace SweepEngine

def finishAttempt (e : SweepEngine) (lastAttemptFailed : Bool) (shortfallSats : Option Nat) : SweepEngine :=
  { e with store := e.store.setFlags lastAttemptFailed (shortfallSats.map .ofNat) }

/-- The entries of the batch go, and every channel among them gets the sweep. -/
def commitSwept (e : SweepEngine) (env : PassEnv) (batchKeys : List String) (txid : String) (channels : List String) :
    SweepEngine :=
  { e with
    store := e.store.removeEntries batchKeys (env.storeFails .commit)
    closeRecords := recordSweepTx e.closeRecords txid channels.dedup env.nowMs }

def failedPass (e : SweepEngine) (skipped : Nat) (shortfallSats : Option Nat) (submitted : Option Transaction) :
    PassResult :=
  ⟨e.finishAttempt true shortfallSats, some ⟨0, skipped, none⟩, submitted⟩

def sweptPass (e : SweepEngine) (env : PassEnv) (g : Gathered) (swept : Nat) (txid : String)
    (submitted : Option Transaction) : PassResult :=
  ⟨(e.commitSwept env g.batchKeys txid g.channels).finishAttempt (0 < g.skipped) none,
    some ⟨swept, g.skipped, some txid⟩, submitted⟩

end SweepEngine

section

variable (signer : Signer) (keys : Descriptors) (env : PassEnv)

def spendBatch (batch : List BatchMember) (destination : Script) : Option Transaction :=
  signer.spendSpendableOutputs (batch.map (·.descriptor)) destination (env.sweepRateSatPerVb * 250)

/-- All or nothing, and once more without the members that can never be signed. -/
def spendSignable (store : SweepStore) (batch : List BatchMember) (destination : Script) :
    SweepStore × List BatchMember × Option Transaction :=
  match spendBatch signer env batch destination with
  | some tx => (store, batch, some tx)
  | none =>
    let (poisoned, left) := batch.partition fun m => signer.descriptorIsUnsignable m.descriptor destination
    if poisoned = [] then (store, batch, none)
    else
      (removeMembers store env poisoned, left, if left = [] then none else spendBatch signer env left destination)

/-- The fee of a spend as its members' values tell it. -/
def sweepFeeSats (batch : List BatchMember) (tx : Transaction) : Nat :=
  (batch.map fun m => descriptorValueSats m.descriptor).sum - (tx.outputs.map (·.value)).sum

/-- The outputs pay their own fee. Here a benign error is believed as it is. -/
def sendPlain (e : SweepEngine) (g : Gathered) (batch : List BatchMember) (tx : Transaction) : PassResult :=
  match checkFeeSanity (sweepFeeSats batch tx) (signer.weight tx) (feeSanityMaxSatPerKw env.urgentSatPerKw) with
  | .error _ => e.failedPass (g.skipped + batch.length) none none
  | .ok () =>
    match broadcastTransaction (env.broadcast tx) with
    | .accepted | .alreadyKnown => e.sweptPass env g batch.length tx.txid (some tx)
    | .failed _ => e.failedPass (g.skipped + batch.length) none (some tx)

def sendSubsidized (e : SweepEngine) (g : Gathered) (batch : List BatchMember) (destination : Script) : PassResult :=
  let attempt :=
    attemptSubsidized signer keys env e.wallet e.spentSubsidyOutpoints (batch.map (·.descriptor)) destination
  let e := { e with wallet := attempt.wallet, spentSubsidyOutpoints := attempt.reserved }
  match attempt.outcome with
  | .broadcast txid _ => e.sweptPass env g batch.length txid attempt.submitted
  | .shortfall _ _ shortfallSats => e.failedPass (g.skipped + batch.length) (some shortfallSats) attempt.submitted
  | .notEconomical .. | .failed _ => e.failedPass (g.skipped + batch.length) none attempt.submitted

/-- A spend without outputs cannot be broadcast and counts as failed. -/
def sweepGathered (e : SweepEngine) (g : Gathered) : PassResult :=
  if g.batch = [] then ⟨e.finishAttempt (0 < g.skipped) none, some ⟨0, g.skipped, none⟩, none⟩
  else
    let (destination, wallet) := e.wallet.revealNextExternalScript env.destinationError
    let e := { e with wallet }
    match destination.map (AddressInfo.script keys) with
    | none => e.failedPass (g.skipped + g.batch.length) none none
    | some destination =>
      let (store, batch, spent) := spendSignable signer env e.store g.batch destination
      let e := { e with store }
      if batch = [] then ⟨e.finishAttempt (0 < g.skipped) none, some ⟨0, g.skipped, none⟩, none⟩
      else
        match spent.filter (·.outputs ≠ []) with
        | some tx => sendPlain signer env e g batch tx
        | none => sendSubsidized signer keys env e g batch destination

def sweepPass (e : SweepEngine) : PassResult :=
  if e.store.entries env.listing.dedup = [] then ⟨e, some .default, none⟩
  else
    let (panicked, g) := prune signer keys env.revealError (env.storeFails .pruneEntry) (env.storeFails .removeEmptied)
      e.store e.wallet env.listing
    let e := { e with store := g.store, wallet := g.wallet }
    if panicked then ⟨e, none, none⟩ else sweepGathered signer keys env e g

/-- One pass at a time. A pass that panics never gives the flag back. -/
def sweepOnce (e : SweepEngine) : PassResult :=
  if e.inProgress then ⟨e, some .default, none⟩
  else
    let result := sweepPass signer keys env { e with inProgress := true }
    { result with engine := { result.engine with inProgress := result.summary.isNone } }

end

/-! ## A small engine -/

/-- One file for each entry, named by its place. -/
def demoEngine (entries : List (String × StoredEntry)) : SweepEngine where
  store := .new (entries.foldl (fun files e => files.insert e.1 (encodeEntry e.2)) ∅)
  wallet := demoWallet
  closeRecords := .new ⟨⟨none, none⟩, fun _ => false, 0, []⟩ 0
  spentSubsidyOutpoints := ∅
  inProgress := false

/-- Nothing fails, fees are low, and every transaction gets the same answer. -/
def demoEnv (listing : List String) (answer : BroadcastAnswer) : PassEnv where
  listing := listing
  relisting := listing
  storeFails _ _ := false
  revealError _ := none
  destinationError := none
  changeError := none
  registerError := none
  sendRateSatPerVb := 2
  urgentSatPerKw := 5000
  reserveSats := 0
  coins := []
  broadcast _ := answer
  chainKnows _ := false
  chainReachable := true
  nowMs := 0

end WalletCore.Sweep
