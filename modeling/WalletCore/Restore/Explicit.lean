import WalletCore.Restore.Startup

/-! # The explicit restore

`run_restore` replaces the wallet on the device by the one that the entered words back up. A marker with
the target words is on disk from before the first removal until after the last write, and a start that
finds it redoes what is missing.
-/

namespace WalletCore.Restore

open Lib Vss

/-! ## The marker -/

structure RestoreMarker where
  mnemonic : String
  startedAtMs : UInt64
deriving DecidableEq

def RestoreMarker.encode (marker : RestoreMarker) : Bytes :=
  .ofJson (.object [("mnemonic", .string marker.mnemonic), ("started_at_ms", .ofU64 marker.startedAtMs)])

/-- A record is read from an object or from an array of its fields. -/
def readMarkerJson : Json → Option RestoreMarker
  | .object entries =>
    let fields := StringMap.ofPairs entries
    (fields.lookup "mnemonic").bind fun mnemonic => (fields.lookup "started_at_ms").bind fun startedAtMs =>
      mnemonic.asStr.bind fun mnemonic => startedAtMs.asU64.map (⟨mnemonic, ·⟩)
  | .array [mnemonic, startedAtMs] => mnemonic.asStr.bind fun mnemonic => startedAtMs.asU64.map (⟨mnemonic, ·⟩)
  | _ => none

/-- The restore context of the marker; a marker without one still voids the local state. -/
def readMarker (device : Device) : Option RestoreMarker :=
  device.marker.bind fun bytes => bytes.fromSlice.bind readMarkerJson

/-- The reader of twelve words, which gives them back normalised, and the signer stack of each seed. -/
structure Wallets where
  parseMnemonic : String → Option String
  node : String → Node
  parse_words : ∀ raw words, parseMnemonic raw = some words → parseMnemonic words = some words

section Files

variable {ε : Type}

/-- The file is created before it is filled. -/
def writeMarker (marker : RestoreMarker) (e : ε) : Prog Device ε Unit := do
  Prog.change (fun device => { device with marker := some (.raw []) }) e
  Prog.change (fun device => { device with marker := some marker.encode }) e

/-- The files of the store one by one and then its directory, the words, and last the fenced flag. -/
def clearLocalWalletState (fs : FileSystem) (e : ε) : Prog Device ε Unit := do
  let files ← Prog.read fun device => fs.listFiles device.store
  Prog.each (fun file => Prog.change (Device.mapStore · (·.remove file)) e) files
  Prog.change (Device.mapStore · fun _ => .empty) e
  Prog.change (fun device => { device with mnemonic := none }) e
  Prog.change (fun device => { device with fencedFlag := false }) e

/-- Never over an existing file. -/
def writeMnemonic (words : String) (exists' failed : ε) : Prog Device ε Unit := do
  if ← Prog.read (·.mnemonic.isSome) then Prog.fail exists'
  else
    Prog.change (fun device => { device with mnemonic := some "" }) failed
    Prog.change (fun device => { device with mnemonic := some words }) failed

end Files

/-! ## The restore -/

/-- Everything after the plan is ready: the marker, the clear, the words, the plan, and the marker's removal. -/
def twoPhaseWrite (fs : FileSystem) (marker : RestoreMarker) (plan : RestorePlan) : Prog Device RestoreError Unit := do
  writeMarker marker .localWriteFailed
  clearLocalWalletState fs .localWriteFailed
  writeMnemonic marker.mnemonic .localWriteFailed .localWriteFailed
  let (complete, _) ← writePlanLocal plan.localWrites
  if !complete then Prog.fail .localWriteFailed
  else Prog.change Device.removeMarker .localWriteFailed

def runRestore (fs : FileSystem) (wallets : Wallets) (transport : Option Transport) (raw : String) (nowMs : UInt64) :
    Prog Device RestoreError Unit :=
  match wallets.parseMnemonic raw with
  | none => Prog.fail .invalidMnemonic
  | some words =>
    match transport with
    | none => Prog.fail .vssDisabled
    | some transport =>
      match transport.listKeyVersions with
      | .error _ => Prog.fail .downloadFailed
      | .ok listing =>
        if listing.isEmpty then Prog.fail .noBackupFound
        else
          match preparePlan transport (wallets.node words).toStack listing with
          | .error e => Prog.fail e
          | .ok (plan, adoptedCount) => do
            twoPhaseWrite fs ⟨words, nowMs⟩ plan
            sendBackfill transport plan adoptedCount

/-! ## A start -/

/-- Redoes the clear and writes the marker's words, unless they are on disk already. -/
def prepareMarkerResume (fs : FileSystem) (wallets : Wallets) : Start Unit := do
  let device ← Prog.read id
  match readMarker device with
  | none => return
  | some marker =>
    match wallets.parseMnemonic marker.mnemonic with
    | none => return
    | some target =>
      if device.mnemonic.bind wallets.parseMnemonic = some target then return
      else
        clearLocalWalletState fs .writeFailed
        writeMnemonic target .mnemonicExists .writeFailed

def readOrGenerateMnemonic (wallets : Wallets) (generated : String) : Start String := do
  let device ← Prog.read id
  match device.mnemonic with
  | some raw =>
    match wallets.parseMnemonic raw with
    | some words => return words
    | none => Prog.fail .invalidMnemonic
  | none =>
    if device.marker.isSome then Prog.fail .restoreInProgress
    else
      writeMnemonic generated .mnemonicExists .writeFailed
      return generated

def checkFence : Start Unit := do
  let fencedFlag ← Prog.read (·.fencedFlag)
  (Prog.fail .fenced).when fencedFlag

/-- `Node::start` up to the channel state: the fence is looked at before the marker, and again after it. -/
def startNode (fs : FileSystem) (wallets : Wallets) (transport : String → Option Transport) (generated : String) :
    Start (String × Booted) := do
  checkFence
  prepareMarkerResume fs wallets
  checkFence
  let words ← readOrGenerateMnemonic wallets generated
  match transport words with
  | none =>
    if ← Prog.read (·.marker.isSome) then Prog.fail .restoreInProgress
    else return (words, ← loadChannelManager (wallets.node words) false)
  | some transport => return (words, ← bootChannels fs (wallets.node words) transport)

end WalletCore.Restore
