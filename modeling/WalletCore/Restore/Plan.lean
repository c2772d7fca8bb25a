import WalletCore.Vss.Manifest

/-! # The restore plan

What both doors of a restore share: the manifest is read, every remote key that nothing explains is
fetched and identified, every blob is validated by deserialization, and only then is anything written.
The signer stack that deserializes monitors, and the answers of the server, are parameters.
-/

namespace WalletCore.Restore

open Lib Vss

/-! ## Monitor keys -/

/-- A funding outpoint; the txid as its raw bytes. -/
structure OutPoint where
  txid : Vector UInt8 32
  index : UInt16
deriving DecidableEq

def hexByte (byte : UInt8) : List Char := [Nat.digitChar (byte.toNat / 16), Nat.digitChar (byte.toNat % 16)]

def hexStr (bytes : List UInt8) : String := .ofList (bytes.flatMap hexByte)

def monitorVssKey (funding : OutPoint) : String :=
  hexStr funding.txid.toList ++ ":" ++ Nat.repr funding.index.toNat

theorem isLowerHex_digitChar {n : Nat} (h : n < 16) : isLowerHex (Nat.digitChar n) = true := by
  have hAll : ∀ n < 16, isLowerHex (Nat.digitChar n) = true := by decide
  exact hAll n h

theorem isLowerHex_ne_colon {c : Char} (h : isLowerHex c = true) : (c != ':') = true := by
  rw [bne_iff_ne]
  rintro rfl
  exact absurd h (by decide)

theorem isLowerHex_hexByte (byte : UInt8) : ∀ c ∈ hexByte byte, isLowerHex c = true := by
  have hByte := byte.toNat_lt
  intro c hc
  simp only [hexByte, List.mem_cons, List.not_mem_nil, or_false] at hc
  obtain rfl | rfl := hc
  · exact isLowerHex_digitChar (by omega)
  · exact isLowerHex_digitChar (by omega)

theorem isLowerHex_hexStr (bytes : List UInt8) : ∀ c ∈ (hexStr bytes).toList, isLowerHex c = true := by
  intro c hc
  rw [hexStr, String.toList_ofList, List.mem_flatMap] at hc
  obtain ⟨byte, -, hMem⟩ := hc
  exact isLowerHex_hexByte byte c hMem

theorem length_hexStr (bytes : List UInt8) : (hexStr bytes).toList.length = 2 * bytes.length := by
  rw [hexStr, String.toList_ofList, List.length_flatMap]
  induction bytes with
  | nil => rfl
  | cons byte rest ih =>
    rw [List.map_cons, List.sum_cons, ih, List.length_cons]
    change 2 + _ = _
    omega

theorem toList_monitorVssKey (funding : OutPoint) :
    (monitorVssKey funding).toList =
      (hexStr funding.txid.toList).toList ++ ':' :: Nat.toDigits 10 funding.index.toNat := by
  simp [monitorVssKey, Nat.toList_repr]

/-- Every key this client derives has the shape that the manifest's reader accepts. -/
theorem isValidMonitorKey_monitorVssKey (funding : OutPoint) : isValidMonitorKey (monitorVssKey funding) = true := by
  have hHex := isLowerHex_hexStr funding.txid.toList
  have hColon : ∀ c ∈ (hexStr funding.txid.toList).toList, (c != ':') = true :=
    fun c hc => isLowerHex_ne_colon (hHex c hc)
  have hLength : (hexStr funding.txid.toList).toList.length = 64 := by
    rw [length_hexStr, Vector.length_toList]
  have hDigits : ∀ c ∈ Nat.toDigits 10 funding.index.toNat, c.isDigit = true := fun c hc =>
    Nat.isDigit_of_mem_toDigits (by decide) (by decide) hc
  have hAll : (hexStr funding.txid.toList).toList.all isLowerHex = true := List.all_eq_true.mpr hHex
  simp only [isValidMonitorKey, toList_monitorVssKey]
  rw [List.takeWhile_append_of_pos hColon, List.dropWhile_append_of_pos hColon]
  simp only [List.takeWhile_cons, List.dropWhile_cons, bne_self_eq_false, Bool.false_eq_true, if_false,
    List.append_nil, hLength, hAll, List.all_eq_true.mpr hDigits]
  simp [Nat.toDigits_ne_nil]

/-! ## What the server and the signer stack say -/

inductive VssError where
  | conflict
  | crypto
  | other
deriving DecidableEq

/-- The answers of the server to the requests of one start or one restore. The two `late` fields say
whether the time budget is used up when the loop comes to its next key, or its next chunk. -/
structure Transport where
  obfuscate : String → String
  listKeyVersions : Except VssError (List (String × Nat))
  get : String → Except VssError (Option (Bytes × Nat))
  getByStoredKey : String → Except VssError (Option (Bytes × Nat))
  putManifest : Except VssError Nat
  refetchManifest : Except VssError (Option (Bytes × Nat))
  putMany : Except VssError Unit
  identifyLate : Nat → Bool
  downloadLate : Nat → Bool

/-- What a monitor blob says once it deserializes under the seed's signer stack. -/
structure DeserializedMonitor where
  localKey : String
  funding : OutPoint
  channelId : String
deriving DecidableEq

def DeserializedMonitor.derivedVssKey (monitor : DeserializedMonitor) : String := monitorVssKey monitor.funding

/-- The parts of the deserializers that are not this repository's. -/
structure Stack where
  deserializeMonitor : Bytes → Option DeserializedMonitor
  byteLength : Bytes → Nat

inductive Inconsistency where
  | managerMissing
  | monitorMissing (key : String)
  | unidentified (unexplained adopted : Nat) (rejected : List String)
deriving DecidableEq

inductive Invalid where
  | manifest (error : ManifestError)
  | managerTooSmall (length : Nat)
  | monitor (key : String)
  | knownPeers
deriving DecidableEq

inductive RestoreError where
  | nodeRunning
  | invalidMnemonic
  | vssDisabled
  | noBackupFound
  | backupInconsistent (detail : Inconsistency)
  | downloadFailed
  | validationFailed (detail : Invalid)
  | localWriteFailed
deriving DecidableEq

/-! ## Known peers -/

structure KnownPeer where
  host : String
  port : UInt16
deriving DecidableEq

def readPort (value : Json) : Option UInt16 :=
  value.asU64.bind fun port => if port.toNat < UInt16.size then some port.toUInt16 else none

/-- A record is read from an object or from an array of its fields. -/
def readKnownPeer : Json → Option KnownPeer
  | .object entries =>
    let fields := StringMap.ofPairs entries
    (fields.lookup "host").bind fun host => (fields.lookup "port").bind fun port =>
      host.asStr.bind fun host => (readPort port).map (⟨host, ·⟩)
  | .array [host, port] => host.asStr.bind fun host => (readPort port).map (⟨host, ·⟩)
  | _ => none

/-- Entries that are no peer are skipped. -/
def parseKnownPeers (bytes : Bytes) : Option (StringMap KnownPeer) :=
  (bytes.fromSlice.bind Json.asObject).map fun object =>
    .ofPairs (object.toPairs.filterMap fun entry => (readKnownPeer entry.2).map (entry.1, ·))

def serializeKnownPeers (peers : StringMap KnownPeer) : Bytes :=
  .ofJson (.object (peers.toPairs.map fun entry =>
    (entry.1, .object [("host", .string entry.2.host), ("port", .ofU64 entry.2.port.toUInt64)])))

/-! ## The plan -/

/-- One monitor ready for its local write. A key is verified when the blob was fetched under it. -/
structure ValidatedMonitor where
  vssKey : String
  localKey : String
  bytes : Bytes
  version : Nat
  keyVerified : Bool
deriving DecidableEq

structure RestorePlan where
  manifestVersion : Option Nat
  cm : Option (Bytes × Nat)
  monitors : List ValidatedMonitor
  peers : Option (StringMap KnownPeer × Nat)

namespace RestorePlan

def versions (plan : RestorePlan) : StringMap Nat :=
  .ofPairs ((plan.manifestVersion.map (monitorManifestKey, ·)).toList ++
    (plan.cm.map fun cm => (channelManagerVssKey, cm.2)).toList ++
    plan.monitors.map (fun monitor => (monitor.vssKey, monitor.version)) ++
    (plan.peers.map fun peers => (knownPeersVssKey, peers.2)).toList)

def monitorKeys (plan : RestorePlan) : Finset String := (plan.monitors.map (·.vssKey)).toFinset

def publishableMonitorKeys (plan : RestorePlan) : Finset String :=
  ((plan.monitors.filter (·.keyVerified)).map (·.vssKey)).toFinset

end RestorePlan

def fetchManifest (transport : Transport) : Except RestoreError (Option (List String × Nat)) :=
  match transport.get monitorManifestKey with
  | .error _ => .error .downloadFailed
  | .ok none => .ok none
  | .ok (some (bytes, version)) =>
    match parseMonitorManifest bytes with
    | .ok keys => .ok (some (keys, version))
    | .error e => .error (.validationFailed (.manifest e))

/-- The listed keys that neither the fixed keys nor the manifest explain. -/
def unexplainedRemoteKeys (listing : List (String × Nat)) (manifestKeys : List String) (transport : Transport) :
    List String :=
  let expected := (fixedRemoteKeys ++ manifestKeys).map transport.obfuscate
  (listing.filter fun entry => entry.1 ∉ expected).map Prod.fst

structure UnexplainedKeyVerdict where
  adopted : List ValidatedMonitor
  rejected : List String

/-- One unexplained key, fetched under its stored name. One that is gone has nothing left to explain. -/
def verifyUnexplainedKey (transport : Transport) (stack : Stack) (verdict : UnexplainedKeyVerdict)
    (storedKey : String) : Except RestoreError UnexplainedKeyVerdict :=
  match transport.getByStoredKey storedKey with
  | .ok none => .ok verdict
  | .error .crypto => .ok { verdict with rejected := verdict.rejected ++ [storedKey] }
  | .error _ => .error .downloadFailed
  | .ok (some (bytes, version)) =>
    match stack.deserializeMonitor bytes with
    | none => .ok { verdict with rejected := verdict.rejected ++ [storedKey] }
    | some parsed =>
      let monitor : ValidatedMonitor :=
        { vssKey := parsed.derivedVssKey
          localKey := parsed.localKey
          bytes := bytes
          version := version
          keyVerified := transport.obfuscate parsed.derivedVssKey == storedKey }
      .ok { verdict with adopted := verdict.adopted ++ [monitor] }

def verifyUnexplainedKeys (transport : Transport) (stack : Stack) (index : Nat) (verdict : UnexplainedKeyVerdict) :
    List String → Except RestoreError UnexplainedKeyVerdict
  | [] => .ok verdict
  | storedKey :: rest =>
    if transport.identifyLate index then .error .downloadFailed
    else do
      let verdict ← verifyUnexplainedKey transport stack verdict storedKey
      verifyUnexplainedKeys transport stack (index + 1) verdict rest

def adoptUnexplainedMonitors (transport : Transport) (stack : Stack) (listing : List (String × Nat))
    (manifestKeys : List String) : Except RestoreError (List ValidatedMonitor) :=
  let unexplained := unexplainedRemoteKeys listing manifestKeys transport
  match verifyUnexplainedKeys transport stack 0 ⟨[], []⟩ unexplained with
  | .error e => .error e
  | .ok verdict =>
    if verdict.rejected.isEmpty then .ok verdict.adopted
    else .error (.backupInconsistent (.unidentified unexplained.length verdict.adopted.length verdict.rejected))

def restoreChunkSize : Nat := 10

/-- One listed monitor, fetched under its key and validated. -/
def downloadMonitor (transport : Transport) (stack : Stack) (vssKey : String) :
    Except RestoreError ValidatedMonitor :=
  match transport.get vssKey with
  | .error _ => .error .downloadFailed
  | .ok none => .error (.backupInconsistent (.monitorMissing vssKey))
  | .ok (some (bytes, version)) =>
    match stack.deserializeMonitor bytes with
    | none => .error (.validationFailed (.monitor vssKey))
    | some parsed => .ok ⟨vssKey, parsed.localKey, bytes, version, true⟩

/-- The listed monitors in order; the time budget is looked at before each chunk of them. -/
def downloadMonitors (transport : Transport) (stack : Stack) (index : Nat) :
    List String → Except RestoreError (List ValidatedMonitor)
  | [] => .ok []
  | vssKey :: rest =>
    if index % restoreChunkSize = 0 && transport.downloadLate (index / restoreChunkSize) then .error .downloadFailed
    else do
      let monitor ← downloadMonitor transport stack vssKey
      let others ← downloadMonitors transport stack (index + 1) rest
      return monitor :: others

def downloadPeers (transport : Transport) : Except RestoreError (Option (StringMap KnownPeer × Nat)) :=
  match transport.get knownPeersVssKey with
  | .error _ => .error .downloadFailed
  | .ok none => .ok none
  | .ok (some (bytes, version)) =>
    match parseKnownPeers bytes with
    | some peers => .ok (some (peers, version))
    | none => .error (.validationFailed .knownPeers)

/-- The manager is only checked for its size here: it is deserialized when the node boots. -/
def downloadManager (transport : Transport) (stack : Stack) (manifestKeys : List String) :
    Except RestoreError (Option (Bytes × Nat)) :=
  match transport.get channelManagerVssKey with
  | .error _ => .error .downloadFailed
  | .ok none => if manifestKeys.isEmpty then .ok none else .error (.backupInconsistent .managerMissing)
  | .ok (some (bytes, version)) =>
    if stack.byteLength bytes < 32 then .error (.validationFailed (.managerTooSmall (stack.byteLength bytes)))
    else .ok (some (bytes, version))

def downloadAndValidate (transport : Transport) (stack : Stack) (manifest : Option (List String × Nat)) :
    Except RestoreError RestorePlan := do
  let manifestKeys := (manifest.map Prod.fst).getD []
  let cm ← downloadManager transport stack manifestKeys
  let monitors ← downloadMonitors transport stack 0 manifestKeys
  let peers ← downloadPeers transport
  return ⟨manifest.map Prod.snd, cm, monitors, peers⟩

/-- A listed monitor wins over an adopted one with the same local key. -/
def mergeAdoptedMonitors (plan : RestorePlan) (adopted : List ValidatedMonitor) :
    Except RestoreError (RestorePlan × Nat) :=
  let planned := plan.monitors.map (·.localKey)
  let new := adopted.filter fun monitor => monitor.localKey ∉ planned
  let merged := { plan with monitors := plan.monitors ++ new }
  if !merged.monitors.isEmpty && merged.cm.isNone then .error (.backupInconsistent .managerMissing)
  else .ok (merged, new.length)

/-- Everything up to the first write, in the order that both doors use. -/
def preparePlan (transport : Transport) (stack : Stack) (listing : List (String × Nat)) :
    Except RestoreError (RestorePlan × Nat) := do
  let manifest ← fetchManifest transport
  let manifestKeys := (manifest.map Prod.fst).getD []
  let adopted ← adoptUnexplainedMonitors transport stack listing manifestKeys
  let plan ← downloadAndValidate transport stack manifest
  mergeAdoptedMonitors plan adopted

/-! ## Where the plan's monitors come from -/

theorem bind_ok {ε α β : Type} {x : Except ε α} {f : α → Except ε β} {result : β} (h : x >>= f = .ok result) :
    ∃ value, x = .ok value ∧ f value = .ok result := by
  cases x with
  | error e => cases h
  | ok value => exact ⟨value, rfl, h⟩

/-- A monitor of the plan was fetched under its own key, which the manifest lists, or under a stored key of
the listing that nothing explained. -/
inductive Downloaded (transport : Transport) (stack : Stack) (listing : List (String × Nat))
    (monitor : ValidatedMonitor) : Prop
  | listed (manifest : Bytes) (manifestVersion : Nat) (keys : List String) (parsed : DeserializedMonitor)
    (hManifest : transport.get monitorManifestKey = .ok (some (manifest, manifestVersion)))
    (hKeys : parseMonitorManifest manifest = .ok keys) (hKey : monitor.vssKey ∈ keys)
    (hGet : transport.get monitor.vssKey = .ok (some (monitor.bytes, monitor.version)))
    (hParsed : stack.deserializeMonitor monitor.bytes = some parsed) (hLocal : monitor.localKey = parsed.localKey)
    (hVerified : monitor.keyVerified = true)
  | adopted (storedKey : String) (parsed : DeserializedMonitor) (hStored : storedKey ∈ listing.map Prod.fst)
    (hGet : transport.getByStoredKey storedKey = .ok (some (monitor.bytes, monitor.version)))
    (hParsed : stack.deserializeMonitor monitor.bytes = some parsed) (hLocal : monitor.localKey = parsed.localKey)
    (hKey : monitor.vssKey = parsed.derivedVssKey)
    (hVerified : monitor.keyVerified = (transport.obfuscate parsed.derivedVssKey == storedKey))

section Downloads

variable {transport : Transport} {stack : Stack} {listing : List (String × Nat)}

theorem fetchManifest_some {keys : List String} {version : Nat}
    (h : fetchManifest transport = .ok (some (keys, version))) :
    ∃ bytes, transport.get monitorManifestKey = .ok (some (bytes, version)) ∧
      parseMonitorManifest bytes = .ok keys := by
  rw [fetchManifest] at h
  split at h
  · cases h
  · cases h
  · rename_i bytes version' hGet
    split at h
    · rename_i keys' hKeys
      cases h
      exact ⟨bytes, hGet, hKeys⟩
    · cases h

theorem verifyUnexplainedKey_adopted {verdict verdict' : UnexplainedKeyVerdict} {storedKey : String}
    (h : verifyUnexplainedKey transport stack verdict storedKey = .ok verdict')
    (hStored : storedKey ∈ listing.map Prod.fst)
    (hAdopted : ∀ monitor ∈ verdict.adopted, Downloaded transport stack listing monitor) :
    ∀ monitor ∈ verdict'.adopted, Downloaded transport stack listing monitor := by
  rw [verifyUnexplainedKey] at h
  split at h
  · cases h
    exact hAdopted
  · cases h
    exact hAdopted
  · cases h
  · rename_i bytes version hGet
    split at h
    · cases h
      exact hAdopted
    · rename_i parsed hParsed
      cases h
      intro monitor hMonitor
      rw [List.mem_append, List.mem_singleton] at hMonitor
      obtain hMonitor | rfl := hMonitor
      · exact hAdopted monitor hMonitor
      · exact .adopted storedKey parsed hStored hGet hParsed rfl rfl rfl

theorem verifyUnexplainedKeys_adopted {index : Nat} {verdict verdict' : UnexplainedKeyVerdict} {keys : List String}
    (h : verifyUnexplainedKeys transport stack index verdict keys = .ok verdict')
    (hStored : ∀ key ∈ keys, key ∈ listing.map Prod.fst)
    (hAdopted : ∀ monitor ∈ verdict.adopted, Downloaded transport stack listing monitor) :
    ∀ monitor ∈ verdict'.adopted, Downloaded transport stack listing monitor := by
  induction keys generalizing index verdict with
  | nil =>
    cases h
    exact hAdopted
  | cons storedKey rest ih =>
    rw [verifyUnexplainedKeys] at h
    split at h
    · cases h
    · obtain ⟨next, hNext, hRest⟩ := bind_ok h
      exact ih hRest (fun key hKey => hStored key (List.mem_cons_of_mem _ hKey))
        (verifyUnexplainedKey_adopted hNext (hStored storedKey List.mem_cons_self) hAdopted)

theorem adoptUnexplainedMonitors_downloaded {manifestKeys : List String} {adopted : List ValidatedMonitor}
    (h : adoptUnexplainedMonitors transport stack listing manifestKeys = .ok adopted) :
    ∀ monitor ∈ adopted, Downloaded transport stack listing monitor := by
  rw [adoptUnexplainedMonitors] at h
  split at h
  · cases h
  · rename_i verdict hVerdict
    split at h
    · cases h
      refine verifyUnexplainedKeys_adopted hVerdict ?_ (by simp)
      intro key hKey
      rw [unexplainedRemoteKeys] at hKey
      exact (List.filter_sublist.map Prod.fst).mem hKey
    · cases h

theorem downloadMonitor_key {vssKey : String} {monitor : ValidatedMonitor}
    (h : downloadMonitor transport stack vssKey = .ok monitor) : monitor.vssKey = vssKey := by
  rw [downloadMonitor] at h
  split at h
  · cases h
  · cases h
  · split at h <;> cases h
    rfl

theorem downloadMonitors_cons {index : Nat} {vssKey : String} {rest : List String} {monitors : List ValidatedMonitor}
    (h : downloadMonitors transport stack index (vssKey :: rest) = .ok monitors) :
    ∃ first others, monitors = first :: others ∧ first.vssKey = vssKey ∧
      downloadMonitor transport stack vssKey = .ok first ∧
      downloadMonitors transport stack (index + 1) rest = .ok others := by
  rw [downloadMonitors] at h
  split at h
  · cases h
  · obtain ⟨first, hFirst, h⟩ := bind_ok h
    obtain ⟨others, hOthers, h⟩ := bind_ok h
    cases h
    exact ⟨first, others, rfl, downloadMonitor_key hFirst, hFirst, hOthers⟩

theorem downloadMonitors_mem {index : Nat} {keys : List String} {monitors : List ValidatedMonitor}
    (h : downloadMonitors transport stack index keys = .ok monitors) :
    ∀ monitor ∈ monitors, monitor.vssKey ∈ keys ∧
      downloadMonitor transport stack monitor.vssKey = .ok monitor := by
  induction keys generalizing index monitors with
  | nil =>
    cases h
    simp
  | cons vssKey rest ih =>
    obtain ⟨first, others, rfl, hKey, hFirst, hOthers⟩ := downloadMonitors_cons h
    intro monitor hMonitor
    rw [List.mem_cons] at hMonitor
    obtain rfl | hMonitor := hMonitor
    · rw [hKey]
      exact ⟨List.mem_cons_self, hFirst⟩
    · obtain ⟨hMem, hDownload⟩ := ih hOthers monitor hMonitor
      exact ⟨List.mem_cons_of_mem _ hMem, hDownload⟩

theorem downloadAndValidate_downloaded {manifest : Option (List String × Nat)} {plan : RestorePlan}
    (hManifest : fetchManifest transport = .ok manifest)
    (h : downloadAndValidate transport stack manifest = .ok plan) :
    ∀ monitor ∈ plan.monitors, Downloaded transport stack listing monitor := by
  obtain ⟨cm, -, h⟩ := bind_ok h
  obtain ⟨monitors, hMonitors, h⟩ := bind_ok h
  obtain ⟨peers, -, h⟩ := bind_ok h
  cases h
  intro monitor hMonitor
  obtain ⟨hKey, hDownload⟩ := downloadMonitors_mem hMonitors monitor hMonitor
  cases manifest with
  | none => cases hKey
  | some manifest =>
    obtain ⟨keys, version⟩ := manifest
    obtain ⟨bytes, hBytes, hKeys⟩ := fetchManifest_some hManifest
    rw [downloadMonitor] at hDownload
    split at hDownload
    · cases hDownload
    · cases hDownload
    · rename_i blob blobVersion hGet
      split at hDownload
      · cases hDownload
      · rename_i parsed hParsed
        obtain ⟨_, _, _, _, _⟩ := monitor
        cases hDownload
        exact .listed bytes version keys parsed hBytes hKeys hKey hGet hParsed rfl rfl

/-- Every monitor of a prepared plan was downloaded under a key of its own or of the listing. -/
theorem preparePlan_downloaded {plan : RestorePlan} {adoptedCount : Nat}
    (h : preparePlan transport stack listing = .ok (plan, adoptedCount)) :
    ∀ monitor ∈ plan.monitors, Downloaded transport stack listing monitor := by
  obtain ⟨manifest, hManifest, h⟩ := bind_ok h
  obtain ⟨adopted, hAdopted, h⟩ := bind_ok h
  obtain ⟨downloaded, hDownloaded, h⟩ := bind_ok h
  rw [mergeAdoptedMonitors] at h
  split at h
  · cases h
  · cases h
    intro monitor hMonitor
    rw [List.mem_append] at hMonitor
    obtain hMonitor | hMonitor := hMonitor
    · exact downloadAndValidate_downloaded hManifest hDownloaded monitor hMonitor
    · exact adoptUnexplainedMonitors_downloaded hAdopted monitor (List.mem_of_mem_filter hMonitor)

theorem preparePlan_cm {plan : RestorePlan} {adoptedCount : Nat} {cm : Bytes × Nat}
    (h : preparePlan transport stack listing = .ok (plan, adoptedCount)) (hCm : plan.cm = some cm) :
    transport.get channelManagerVssKey = .ok (some cm) := by
  obtain ⟨manifest, -, h⟩ := bind_ok h
  obtain ⟨adopted, -, h⟩ := bind_ok h
  obtain ⟨downloaded, hDownloaded, h⟩ := bind_ok h
  obtain ⟨cm', hManager, hDownloaded⟩ := bind_ok hDownloaded
  obtain ⟨monitors, -, hDownloaded⟩ := bind_ok hDownloaded
  obtain ⟨peers, -, hDownloaded⟩ := bind_ok hDownloaded
  cases hDownloaded
  rw [mergeAdoptedMonitors] at h
  split at h
  · cases h
  · cases h
    cases hCm
    rw [downloadManager] at hManager
    split at hManager
    · cases hManager
    · split at hManager <;> cases hManager
    · rename_i hGet
      split at hManager
      · cases hManager
      · cases hManager
        exact hGet

theorem Downloaded.valid {monitor : ValidatedMonitor} (h : Downloaded transport stack listing monitor) :
    isValidMonitorKey monitor.vssKey = true := by
  cases h with
  | listed manifest manifestVersion keys parsed hManifest hKeys hKey =>
    exact parseMonitorManifest_valid hKeys _ hKey
  | adopted storedKey parsed hStored hGet hParsed hLocal hKey =>
    rw [hKey]
    exact isValidMonitorKey_monitorVssKey parsed.funding

end Downloads

/-! ## Publishing the plan's keys -/

/-- A manifest put: the keys it was built from, and what goes to the server. -/
structure ManifestPut where
  keys : List String
  payload : Bytes
  version : Nat

def ManifestPut.of (keys : Finset String) (version : Nat) : ManifestPut :=
  ⟨ascending keys, manifestPayload (ascending keys), version⟩

/-- The puts of the best-effort backfill: one, and one more with the server's keys after a conflict. -/
def backfillManifest (transport : Transport) (monitorKeys : Finset String) (knownVersion : Nat) :
    List ManifestPut :=
  if monitorKeys = ∅ then []
  else
    let first := ManifestPut.of monitorKeys knownVersion
    match transport.putManifest with
    | .error .conflict =>
      match transport.refetchManifest with
      | .ok (some (remoteBytes, remoteVersion)) =>
        let keys := match parseMonitorManifest remoteBytes with
          | .ok remoteKeys => monitorKeys ∪ remoteKeys.toFinset
          | .error _ => monitorKeys
        [first, .of keys remoteVersion]
      | _ => [first]
    | _ => [first]

end WalletCore.Restore
