import WalletCore.Peers.Store

/-! # A saved peer survives

Once a peer is saved, calls for other peers and reloads leave it a target to reconnect to, as it was dialled. An
IPv6 address is saved without the brackets it is read with, and is lost.
-/

namespace WalletCore.Peers

open Lib
open Restore (KnownPeer parseKnownPeers serializeKnownPeers readKnownPeer readPort)

/-! ## Runs -/

inductive StoreOp where
  | upsert (pubkey host : String) (port : UInt16) (write : Except String Unit)
  | remove (pubkey : String) (write : Except String Unit)
  | reload (readable : Bool)

def StoreOp.apply (store : KnownPeersStore) : StoreOp → KnownPeersStore
  | .upsert pubkey host port write => (store.upsert pubkey host port write).2
  | .remove pubkey write => (store.remove pubkey write).2
  | .reload readable => store.load readable

def KnownPeersStore.run (store : KnownPeersStore) (ops : List StoreOp) : KnownPeersStore := ops.foldl StoreOp.apply store

def StoreOp.reachesFile : StoreOp → Bool
  | .upsert _ _ _ write | .remove _ write => write.isOk
  | .reload readable => readable

/-- The file reads as the map in memory. -/
def KnownPeersStore.Mirrored (store : KnownPeersStore) : Prop :=
  ∃ bytes, store.file = some bytes ∧ parseKnownPeers bytes = some store.map

/-- A call for a peer of another key. -/
def StoreOp.Other {κ : Type} (keys : PublicKeys κ) (pubkey : κ) : StoreOp → Prop
  | .upsert other _ _ _ => keys.fromStr other.toList ≠ some pubkey
  | .remove other _ => other ≠ .ofList (keys.toString pubkey)
  | .reload _ => True

/-- A key is written in one way. -/
def OneSpelling {κ : Type} (keys : PublicKeys κ) (pubkey : κ) (map : StringMap KnownPeer) : Prop :=
  ∀ other ∈ map, keys.fromStr other.toList = some pubkey → other = .ofList (keys.toString pubkey)

/-- What is left of a saved peer after some calls. The file is compared where the last call reached it. -/
structure Survives {κ : Type} (keys : PublicKeys κ) (pubkey : κ) (socketAddr : SocketAddr) (saved : KnownPeersStore)
    (ops : List StoreOp) : Prop where
  target : ⟨pubkey, socketAddr⟩ ∈ (saved.run ops).reconnectTargets keys
  alone : OneSpelling keys pubkey saved.map →
    ∀ target ∈ (saved.run ops).reconnectTargets keys, target.nodeId = pubkey → target.address = socketAddr
  mirrored : (∀ op ∈ ops.getLast?, op.reachesFile = true) → (saved.run ops).Mirrored
  queued : (saved.run ops).queued.getLast? = (saved.run ops).file
  shown : ∀ connected channelCounts, ∃ view ∈ buildPeerViews (saved.run ops).map connected channelCounts,
    view.pubkey = .ofList (keys.toString pubkey) ∧ ∃ text, view.address = some text ∧
      parsePeerAddress keys (view.pubkey.toList ++ '@' :: text.toList) = .ok (pubkey, socketAddr)

/-! ## The codec -/

theorem readKnownPeer_serialized (peer : KnownPeer) :
    readKnownPeer (.object [("host", .string peer.host), ("port", .ofU64 peer.port.toUInt64)]) = some peer := by
  have hFits : peer.port.toUInt64.toNat < UInt16.size := by
    rw [UInt16.toNat_toUInt64]
    exact peer.port.toNat_lt
  have hPort : readPort (.ofU64 peer.port.toUInt64) = some peer.port := by
    rw [readPort, Json.asU64_ofU64, Option.bind_some, if_pos hFits, UInt16.toUInt16_toUInt64]
  rw [readKnownPeer, StringMap.ofPairs, StringMap.insertAll_cons, StringMap.insertAll_cons, StringMap.insertAll_nil]
  dsimp only
  rw [StringMap.lookup_insert_eq, if_neg (by decide), StringMap.lookup_insert_eq, if_pos rfl, Option.bind_some,
    StringMap.lookup_insert_eq, if_pos rfl, Option.bind_some, Json.asStr_string, Option.bind_some, hPort, Option.map_some]

theorem parseKnownPeers_serialize (map : StringMap KnownPeer) : parseKnownPeers (serializeKnownPeers map) = some map := by
  rw [parseKnownPeers, serializeKnownPeers, Bytes.fromSlice_ofJson, Option.bind_some, Json.asObject, Option.map_some]
  congr 1
  apply Finmap.ext_lookup
  intro pubkey
  rw [StringMap.lookup_ofPairs_filterMap, StringMap.lookup_ofPairs_map fun peer : KnownPeer =>
    Json.object [("host", .string peer.host), ("port", .ofU64 peer.port.toUInt64)], StringMap.ofPairs_toPairs]
  cases map.lookup pubkey with
  | none => rfl
  | some peer => rw [Option.map_some, Option.bind_some, readKnownPeer_serialized]

/-! ## What a call leaves -/

section

variable {κ : Type} {keys : PublicKeys κ} {pubkey : κ} {peer : KnownPeer}

/-- A map that holds a peer, under no second spelling of its key unless `spelled` allows it. -/
structure Holds (keys : PublicKeys κ) (pubkey : κ) (peer : KnownPeer) (spelled : Prop) (map : StringMap KnownPeer) : Prop where
  kept : map.lookup (.ofList (keys.toString pubkey)) = some peer
  alone : spelled → OneSpelling keys pubkey map

/-- A peer is held in memory and by the file, and the file was queued last. -/
structure Kept (keys : PublicKeys κ) (pubkey : κ) (peer : KnownPeer) (spelled : Prop) (store : KnownPeersStore) : Prop where
  memory : Holds keys pubkey peer spelled store.map
  file : ∃ bytes map, store.file = some bytes ∧ parseKnownPeers bytes = some map ∧ Holds keys pubkey peer spelled map
  queued : store.queued.getLast? = store.file

variable {spelled : Prop} {map : StringMap KnownPeer} {store : KnownPeersStore}

theorem Holds.insert (hKeys : keys.Lawful) (h : Holds keys pubkey peer spelled map) {other : String} (added : KnownPeer)
    (hOther : keys.fromStr other.toList ≠ some pubkey) : Holds keys pubkey peer spelled (map.insert other added) := by
  have hDifferent : String.ofList (keys.toString pubkey) ≠ other := by
    rintro rfl
    rw [String.toList_ofList, hKeys.read_shown] at hOther
    exact hOther rfl
  constructor
  · rw [StringMap.lookup_insert_eq, if_neg hDifferent, h.kept]
  · intro hSpelled key hMem hKey
    obtain rfl | hOld := Finmap.mem_insert.mp hMem
    · exact absurd hKey hOther
    · exact h.alone hSpelled key hOld hKey

theorem Holds.erase (h : Holds keys pubkey peer spelled map) {other : String} (hOther : other ≠ .ofList (keys.toString pubkey)) :
    Holds keys pubkey peer spelled (map.erase other) := by
  constructor
  · rw [StringMap.lookup_erase_eq, if_neg hOther.symm, h.kept]
  · intro hSpelled key hMem hKey
    exact h.alone hSpelled key (Finmap.mem_erase.mp hMem).2 hKey

/-- Writing a map that holds the peer keeps it, and so does a write that fails. -/
theorem Kept.persist (h : Kept keys pubkey peer spelled store) (hMap : Holds keys pubkey peer spelled map)
    (write : Except String Unit) :
    Kept keys pubkey peer spelled ({ store with map }.persist (serializeKnownPeers map) write).2 := by
  cases write with
  | ok written => exact ⟨hMap, ⟨_, map, rfl, parseKnownPeers_serialize map, hMap⟩, List.getLast?_concat⟩
  | error detail => exact ⟨hMap, h.file, h.queued⟩

theorem Kept.apply (hKeys : keys.Lawful) (h : Kept keys pubkey peer spelled store) {op : StoreOp} (hOther : op.Other keys pubkey)
    (hRead : op ≠ .reload false) : Kept keys pubkey peer spelled (op.apply store) := by
  cases op with
  | upsert other host port write => exact h.persist (h.memory.insert hKeys { host, port } hOther) write
  | remove other write => exact h.persist (h.memory.erase hOther) write
  | reload readable =>
    cases readable with
    | false => exact absurd rfl hRead
    | true =>
      obtain ⟨bytes, map, hFile, hMap, hHolds⟩ := h.file
      refine ⟨?_, h.file, h.queued⟩
      rw [StoreOp.apply, KnownPeersStore.load, if_pos rfl, readLocalKnownPeers, hFile, Option.bind_some, hMap, Option.getD_some]
      exact hHolds

theorem Kept.run (hKeys : keys.Lawful) (h : Kept keys pubkey peer spelled store) {ops : List StoreOp}
    (hOther : ∀ op ∈ ops, op.Other keys pubkey) (hRead : ∀ op ∈ ops, op ≠ .reload false) :
    Kept keys pubkey peer spelled (store.run ops) := by
  induction ops generalizing store with
  | nil => exact h
  | cons op ops ih =>
    obtain ⟨hOp, hOps⟩ := List.forall_mem_cons.mp hOther
    obtain ⟨hReadOp, hReadOps⟩ := List.forall_mem_cons.mp hRead
    exact ih (h.apply hKeys hOp hReadOp) hOps hReadOps

/-! ## What the file holds -/

theorem Kept.mirrors {op : StoreOp} (h : Kept keys pubkey peer spelled store) (hReaches : op.reachesFile = true) :
    (op.apply store).Mirrored := by
  cases op with
  | upsert other host port write =>
    cases write with
    | ok written => exact ⟨_, rfl, parseKnownPeers_serialize _⟩
    | error detail => cases hReaches
  | remove other write =>
    cases write with
    | ok written => exact ⟨_, rfl, parseKnownPeers_serialize _⟩
    | error detail => cases hReaches
  | reload readable =>
    obtain ⟨bytes, map, hFile, hMap, -⟩ := h.file
    cases readable with
    | false => cases hReaches
    | true =>
      refine ⟨bytes, hFile, ?_⟩
      rw [StoreOp.apply, KnownPeersStore.load, if_pos rfl, readLocalKnownPeers, hFile, Option.bind_some, hMap, Option.getD_some]

theorem Kept.mirrors_run (hKeys : keys.Lawful) (h : Kept keys pubkey peer spelled store) (hStart : store.Mirrored)
    {ops : List StoreOp} (hOther : ∀ op ∈ ops, op.Other keys pubkey) (hRead : ∀ op ∈ ops, op ≠ .reload false)
    (hReaches : ∀ op ∈ ops.getLast?, op.reachesFile = true) : (store.run ops).Mirrored := by
  obtain rfl | ⟨before, op, rfl⟩ := List.eq_nil_or_concat' ops
  · exact hStart
  · have hBefore := h.run hKeys (fun op hop => hOther op (List.mem_append_left _ hop))
      (fun op hop => hRead op (List.mem_append_left _ hop))
    rw [KnownPeersStore.run, List.foldl_concat]
    exact hBefore.mirrors (hReaches op List.getLast?_concat)

/-! ## Targets and rows -/

theorem Holds.target (hKeys : keys.Lawful) (h : Holds keys pubkey peer spelled store.map) {socketAddr : SocketAddr}
    (hAddress : SocketAddr.fromStr (hostPort peer) = some socketAddr) :
    ⟨pubkey, socketAddr⟩ ∈ store.reconnectTargets keys ∧
      (spelled → ∀ target ∈ store.reconnectTargets keys, target.nodeId = pubkey → target.address = socketAddr) := by
  constructor
  · refine List.mem_filterMap.mpr ⟨(.ofList (keys.toString pubkey), peer), (StringMap.mem_toPairs ..).mpr h.kept, ?_⟩
    rw [reconnectTarget, String.toList_ofList, hKeys.read_shown, Option.bind_some, hAddress, Option.map_some]
  · intro hSpelled target hTarget hSame
    obtain ⟨⟨other, saved⟩, hEntry, hRead⟩ := List.mem_filterMap.mp hTarget
    obtain ⟨nodeId, hKey, hRead⟩ := Option.bind_eq_some_iff.mp hRead
    obtain ⟨address, hFound, rfl⟩ := Option.map_eq_some_iff.mp hRead
    have hLookup := (StringMap.mem_toPairs ..).mp hEntry
    have hOwn : other = .ofList (keys.toString pubkey) :=
      h.alone hSpelled other (Finmap.mem_of_lookup_eq_some hLookup) (hSame ▸ hKey)
    rw [hOwn, h.kept] at hLookup
    cases hLookup
    rw [hAddress] at hFound
    exact (Option.some.inj hFound).symm

theorem mem_buildPeerViews {known : StringMap KnownPeer} {connected : Finset String} {channelCounts : StringMap UInt32}
    {view : PeerView} : view ∈ buildPeerViews known connected channelCounts ↔
      (view.pubkey ∈ known ∨ view.pubkey ∈ connected) ∧ view = peerView known connected channelCounts view.pubkey := by
  rw [buildPeerViews, List.mem_mergeSort, List.mem_map]
  constructor
  · rintro ⟨other, hOther, rfl⟩
    refine ⟨?_, rfl⟩
    obtain hKnown | hConnected := List.mem_append.mp hOther
    · exact .inl (Finmap.mem_keys.mp ((Finset.mem_sort _).mp hKnown))
    · exact .inr ((Finset.mem_sort _).mp (List.mem_filter.mp hConnected).1)
  · rintro ⟨hListed, hView⟩
    refine ⟨view.pubkey, ?_, hView.symm⟩
    by_cases hKnown : view.pubkey ∈ known
    · exact List.mem_append_left _ ((Finset.mem_sort _).mpr (Finmap.mem_keys.mpr hKnown))
    · apply List.mem_append_right
      refine List.mem_filter.mpr ⟨(Finset.mem_sort _).mpr (hListed.resolve_left hKnown), ?_⟩
      exact decide_eq_true hKnown

/-- The row of a saved peer is read as what is read in the saved host and port. -/
theorem Holds.shown (hKeys : keys.Lawful) (h : Holds keys pubkey peer spelled store.map) (hPort : 1 ≤ peer.port.toNat)
    {socketAddr : SocketAddr} (connected : Finset String) (channelCounts : StringMap UInt32) :
    (∃ view ∈ buildPeerViews store.map connected channelCounts, view.pubkey = .ofList (keys.toString pubkey) ∧
      ∃ text, view.address = some text ∧
        parsePeerAddress keys (view.pubkey.toList ++ '@' :: text.toList) = .ok (pubkey, socketAddr)) ↔
      SocketAddr.fromStr (hostPort peer) = some socketAddr := by
  have hAddress : (peerView store.map connected channelCounts (.ofList (keys.toString pubkey))).address =
      some (.ofList (hostPort peer)) := by
    rw [peerView]
    dsimp only
    rw [h.kept, Option.map_some]
  have hParse : parsePeerAddress keys ((String.ofList (keys.toString pubkey)).toList ++
      '@' :: (String.ofList (hostPort peer)).toList) = .ok (pubkey, socketAddr) ↔
        SocketAddr.fromStr (hostPort peer) = some socketAddr := by
    rw [String.toList_ofList, String.toList_ofList, hostPort]
    exact parsePeerAddress_shown hKeys hPort
  constructor
  · rintro ⟨view, hView, hPubkey, text, hText, hRead⟩
    rw [(mem_buildPeerViews.mp hView).2, hPubkey, hAddress] at hText
    cases hText
    rw [hPubkey] at hRead
    exact hParse.mp hRead
  · intro hFound
    refine ⟨_, mem_buildPeerViews.mpr ⟨.inl ?_, rfl⟩, rfl, _, hAddress, hParse.mpr hFound⟩
    exact Finmap.mem_of_lookup_eq_some h.kept

end

/-! ## Saving -/

section

variable {κ : Type} {keys : PublicKeys κ} {pubkey : κ} {socketAddr : SocketAddr}

/-- The record that a reached peer is saved as. -/
def savedPeer (socketAddr : SocketAddr) : KnownPeer := ⟨.ofList socketAddr.ip.display, socketAddr.port⟩

theorem kept_of_save (start : KnownPeersStore) (pubkey : κ) (socketAddr : SocketAddr) {saved : KnownPeersStore}
    (hSaved : saved = (start.upsert (.ofList (keys.toString pubkey)) (.ofList socketAddr.ip.display) socketAddr.port
      (.ok ())).2) : Kept keys pubkey (savedPeer socketAddr) (OneSpelling keys pubkey saved.map) saved ∧ saved.Mirrored := by
  have hHolds : Holds keys pubkey (savedPeer socketAddr) (OneSpelling keys pubkey saved.map) saved.map := by
    constructor
    · rw [hSaved]
      exact Finmap.lookup_insert _
    · exact id
  have hFile : saved.file = some (serializeKnownPeers saved.map) := by
    rw [hSaved]
    rfl
  have hQueued : saved.queued.getLast? = saved.file := by
    rw [hSaved]
    exact List.getLast?_concat
  have hRead := parseKnownPeers_serialize saved.map
  exact ⟨⟨hHolds, ⟨_, saved.map, hFile, hRead, hHolds⟩, hQueued⟩, ⟨_, hFile, hRead⟩⟩

/-- Without its brackets the address is not read back. -/
theorem fromStr_savedPeer_v6 (ip : Ipv6Addr) (port : UInt16) (flowinfo scopeId : UInt32) :
    SocketAddr.fromStr (hostPort (savedPeer (.v6 ip port flowinfo scopeId))) = none := by
  rw [hostPort, savedPeer, String.toList_ofList]
  exact SocketAddr.fromStr_ipv6 ip _

theorem fromStr_savedPeer :
    SocketAddr.fromStr (hostPort (savedPeer socketAddr)) = some socketAddr ↔ socketAddr.isIpv4 = true := by
  cases socketAddr with
  | v4 ip port =>
    apply iff_of_true
    · rw [hostPort, savedPeer, String.toList_ofList]
      exact SocketAddr.fromStr_ipv4 ip port
    · rfl
  | v6 ip port flowinfo scopeId =>
    apply iff_of_false
    · rw [fromStr_savedPeer_v6]
      exact (Option.some_ne_none _).symm
    · exact Bool.false_ne_true

variable [DecidableEq κ] {network : Network κ}

theorem connectPeer_ok {running : Bool} {start saved : KnownPeersStore} {address : List Char} {write : Except String Unit}
    {shown : String} (hParse : parsePeerAddress keys address = .ok (pubkey, socketAddr))
    (hConnect : connectPeer keys network running start address write = (.ok shown, saved)) :
    saved = (start.upsert (.ofList (keys.toString pubkey)) (.ofList socketAddr.ip.display) socketAddr.port (.ok ())).2 := by
  rw [connectPeer, hParse] at hConnect
  dsimp only at hConnect
  split_ifs at hConnect
  · rw [dialAndPersist] at hConnect
    split at hConnect
    · cases hConnect
    · cases write with
      | ok written =>
        cases hConnect
        rfl
      | error detail => cases hConnect
  · cases hConnect

/-- A saved peer survives other calls and reloads exactly if it was dialled at an IPv4 address. -/
theorem saved_peer_survives_iff (hKeys : keys.Lawful) {running : Bool} {start saved : KnownPeersStore} {address : List Char}
    {write : Except String Unit} {shown : String} {ops : List StoreOp}
    (hParse : parsePeerAddress keys address = .ok (pubkey, socketAddr))
    (hConnect : connectPeer keys network running start address write = (.ok shown, saved))
    (hOther : ∀ op ∈ ops, op.Other keys pubkey) (hRead : ∀ op ∈ ops, op ≠ .reload false) :
    Survives keys pubkey socketAddr saved ops ↔ socketAddr.isIpv4 = true := by
  have hSaved := kept_of_save start pubkey socketAddr (connectPeer_ok hParse hConnect)
  have hKept := hSaved.1.run hKeys hOther hRead
  have hShown (connected : Finset String) (channelCounts : StringMap UInt32) : _ ↔ _ = some socketAddr :=
    hKept.memory.shown hKeys (port_pos hParse) connected channelCounts
  constructor
  · intro hSurvives
    rw [← fromStr_savedPeer, ← hShown ∅ ∅]
    exact hSurvives.shown ∅ ∅
  · intro hIpv4
    have hFound := fromStr_savedPeer.mpr hIpv4
    obtain ⟨hTarget, hAlone⟩ := hKept.memory.target hKeys hFound
    constructor
    · exact hTarget
    · exact hAlone
    · exact hSaved.1.mirrors_run hKeys hSaved.2 hOther hRead
    · exact hKept.queued
    · exact fun connected channelCounts => (hShown connected channelCounts).mpr hFound

end

/-! ## Two peers -/

abbrev HexKey := { text : List Char // text.length = 66 ∧ ∀ c ∈ text, isLowerHex c = true }

def hexKeys : PublicKeys HexKey where
  fromStr text := if h : text.length = 66 ∧ ∀ c ∈ text, isLowerHex c = true then some ⟨text, h⟩ else none
  toString := Subtype.val

theorem hexKeys_lawful : hexKeys.Lawful := by
  constructor
  · intro key
    exact dif_pos key.property
  · exact fun key => key.property.1
  · exact fun key => key.property.2

def lspKey : HexKey :=
  ⟨["034066e29e402d9cf55af1ae1026cc5ad", "f92eed1e0e421785442f53717ad1453b0"].flatMap String.toList, by decide +kernel⟩

def otherKey : HexKey :=
  ⟨["02eec7245d6b7d2ccb30380bfbe2a3648", "cd7a942653f5aa340edcea1f283686619"].flatMap String.toList, by decide +kernel⟩

def reachable : Network HexKey where
  lspNodeId := lspKey
  ensureLspConnected := some (.ok ())
  dialPeer _ _ := some (.ok ())

def noPeers : KnownPeersStore where
  map := ∅
  file := none
  queued := []

def ipv4Address : List Char := lspKey.val ++ "@64.23.159.177:9735".toList

def ipv6Address : List Char := lspKey.val ++ "@[2001:db8::1]:9735".toList

theorem ipv4Address_parsed :
    parsePeerAddress hexKeys ipv4Address = .ok (lspKey, .v4 ⟨64, 23, 159, 177⟩ 9735) := by decide +kernel

theorem ipv6Address_parsed :
    parsePeerAddress hexKeys ipv6Address = .ok (lspKey, .v6 #v[0x2001, 0xdb8, 0, 0, 0, 0, 0, 1] 9735 0 0) := by decide +kernel

def afterConnect (address : List Char) : Except ChannelsError String × KnownPeersStore :=
  connectPeer hexKeys reachable true noPeers address (.ok ())

theorem ipv4_peer_survives : Survives hexKeys lspKey (.v4 ⟨64, 23, 159, 177⟩ 9735) (afterConnect ipv4Address).2
    [.upsert (.ofList otherKey.val) "10.0.0.7" 9735 (.ok ()), .reload true, .remove (.ofList otherKey.val) (.error "disk full"),
      .reload true] := by
  have hConnect : afterConnect ipv4Address = (.ok (.ofList lspKey.val), (afterConnect ipv4Address).2) := by
    apply Prod.ext
    · rw [afterConnect, connectPeer, ipv4Address_parsed]
      rfl
    · rfl
  have hDifferent : otherKey ≠ lspKey := by decide +kernel
  have hOther : hexKeys.fromStr (String.ofList otherKey.val).toList ≠ some lspKey := by
    rw [String.toList_ofList]
    intro hSame
    exact hDifferent (Option.some.inj ((hexKeys_lawful.read_shown otherKey).symm.trans hSame))
  apply (saved_peer_survives_iff hexKeys_lawful ipv4Address_parsed hConnect ?_ ?_).mpr rfl
  · simp only [List.forall_mem_cons, List.not_mem_nil, false_imp_iff, implies_true, and_true]
    refine ⟨hOther, trivial, ?_, trivial⟩
    intro hSame
    exact hDifferent (Subtype.ext (String.ofList_injective hSame))
  · simp only [List.forall_mem_cons, List.not_mem_nil, false_imp_iff, implies_true, and_true, ne_eq, StoreOp.reload.injEq,
      Bool.true_eq_false, not_false_eq_true, reduceCtorEq]

/-- A peer that was dialled at an IPv6 address is saved, and is no target to reconnect to. -/
theorem ipv6_peer_lost :
    parsePeerAddress hexKeys ipv6Address = .ok (lspKey, .v6 #v[0x2001, 0xdb8, 0, 0, 0, 0, 0, 1] 9735 0 0) ∧
    (afterConnect ipv6Address).1 = .ok (.ofList lspKey.val) ∧
    (afterConnect ipv6Address).2.reconnectTargets hexKeys = [] ∧
    ¬ Survives hexKeys lspKey (.v6 #v[0x2001, 0xdb8, 0, 0, 0, 0, 0, 1] 9735 0 0) (afterConnect ipv6Address).2 [] := by
  have hMap : (afterConnect ipv6Address).2.map =
      Finmap.insert (.ofList lspKey.val) (savedPeer (.v6 #v[0x2001, 0xdb8, 0, 0, 0, 0, 0, 1] 9735 0 0)) ∅ := by
    rw [afterConnect, connectPeer, ipv6Address_parsed]
    rfl
  have hTargets : (afterConnect ipv6Address).2.reconnectTargets hexKeys = [] := by
    apply List.filterMap_eq_nil_iff.mpr
    rintro ⟨pubkey, peer⟩ hEntry
    have hLookup := (StringMap.mem_toPairs ..).mp hEntry
    rw [hMap, StringMap.lookup_insert_eq] at hLookup
    split_ifs at hLookup
    · cases hLookup
      rw [reconnectTarget, fromStr_savedPeer_v6]
      cases hexKeys.fromStr pubkey.toList <;> rfl
    · cases hLookup
  refine ⟨ipv6Address_parsed, ?_, hTargets, ?_⟩
  · rw [afterConnect, connectPeer, ipv6Address_parsed]
    rfl
  · intro hSurvives
    have hTarget := hSurvives.target
    rw [KnownPeersStore.run, List.foldl_nil, hTargets] at hTarget
    cases hTarget

end WalletCore.Peers
