import WalletCore.Peers.Address
import WalletCore.Restore.Plan

/-! # The store of known peers

Saved peers are kept in memory, mirrored to a file, and handed to the remote store. Calls run one after another;
what the network, the file system and the remote answer is given to each call.
-/

namespace WalletCore.Peers

open Lib
open Restore (KnownPeer parseKnownPeers serializeKnownPeers readKnownPeer)

/-! ## The store -/

/-- `queued` holds the maps that were handed to the remote store. -/
structure KnownPeersStore where
  map : StringMap KnownPeer
  file : Option Bytes
  queued : List Bytes

def readLocalKnownPeers (file : Option Bytes) : StringMap KnownPeer := (file.bind parseKnownPeers).getD ∅

namespace KnownPeersStore

def load (store : KnownPeersStore) (readable : Bool) : KnownPeersStore :=
  { store with map := readLocalKnownPeers (if readable then store.file else none) }

/-- A write that fails leaves the file as it was, and nothing is queued. -/
def persist (store : KnownPeersStore) (bytes : Bytes) (write : Except String Unit) : Except String Unit × KnownPeersStore :=
  match write with
  | .ok () => (.ok (), { store with file := some bytes, queued := store.queued ++ [bytes] })
  | .error detail => (.error detail, store)

def upsert (store : KnownPeersStore) (pubkey host : String) (port : UInt16) (write : Except String Unit) :
    Except String Unit × KnownPeersStore :=
  let map := store.map.insert pubkey { host, port }
  persist { store with map } (serializeKnownPeers map) write

def remove (store : KnownPeersStore) (pubkey : String) (write : Except String Unit) : Except String Unit × KnownPeersStore :=
  let map := store.map.erase pubkey
  persist { store with map } (serializeKnownPeers map) write

end KnownPeersStore

/-! ## Reconnecting -/

structure PeerInfo (κ : Type) where
  nodeId : κ
  address : SocketAddr

section

variable {κ : Type} (keys : PublicKeys κ)

def hostPort (peer : KnownPeer) : List Char := peer.host.toList ++ ':' :: Nat.toDigits 10 peer.port.toNat

def reconnectTarget (pubkey : String) (peer : KnownPeer) : Option (PeerInfo κ) :=
  (keys.fromStr pubkey.toList).bind fun nodeId => (SocketAddr.fromStr (hostPort peer)).map fun address => { nodeId, address }

def KnownPeersStore.reconnectTargets (store : KnownPeersStore) : List (PeerInfo κ) :=
  store.map.toPairs.filterMap fun entry => reconnectTarget keys entry.1 entry.2

/-! ## Connecting -/

inductive ChannelsError where
  | notRunning
  | invalidAddress (error : PeerAddressError)
  | connectFailed (detail : String)
  | persistFailed (detail : String)
deriving DecidableEq

def ChannelsError.display : ChannelsError → String
  | .notRunning => "the node is not running"
  | .invalidAddress error => error.display
  | .connectFailed detail => "Failed to connect to peer: " ++ detail
  | .persistFailed detail => "Failed to persist known peer: " ++ detail

/-- What dialling comes to, which is `none` when the node is shut down meanwhile. The provider is dialled through
its own connection. -/
structure Network (κ : Type) where
  lspNodeId : κ
  ensureLspConnected : Option (Except String Unit)
  dialPeer : κ → SocketAddr → Option (Except String Unit)

variable [DecidableEq κ] (network : Network κ)

/-- A peer is saved under its key once it has been reached. -/
def dialAndPersist (store : KnownPeersStore) (nodeId : κ) (socketAddr : SocketAddr) (write : Except String Unit) :
    Except ChannelsError Unit × KnownPeersStore :=
  let result := if nodeId = network.lspNodeId then network.ensureLspConnected else network.dialPeer nodeId socketAddr
  match result.getD (.error "the node is shutting down") with
  | .error detail => (.error (.connectFailed detail), store)
  | .ok () =>
    let (saved, store) :=
      store.upsert (.ofList (keys.toString nodeId)) (.ofList socketAddr.ip.display) socketAddr.port write
    (saved.mapError .persistFailed, store)

def connectPeer (running : Bool) (store : KnownPeersStore) (address : List Char) (write : Except String Unit) :
    Except ChannelsError String × KnownPeersStore :=
  match parsePeerAddress keys address with
  | .error error => (.error (.invalidAddress error), store)
  | .ok (nodeId, socketAddr) =>
    if running then
      let (connected, store) := dialAndPersist keys network store nodeId socketAddr write
      (connected.map fun _ => .ofList (keys.toString nodeId), store)
    else (.error .notRunning, store)

end

/-! ## Rows -/

structure PeerView where
  pubkey : String
  address : Option String
  connected : Bool
  known : Bool
  channelCount : UInt32
deriving DecidableEq

def peerView (known : StringMap KnownPeer) (connected : Finset String) (channelCounts : StringMap UInt32) (pubkey : String) :
    PeerView :=
  let peer := known.lookup pubkey
  { pubkey
    address := peer.map fun peer => .ofList (hostPort peer)
    connected := pubkey ∈ connected
    known := peer.isSome
    channelCount := (channelCounts.lookup pubkey).getD 0 }

/-- Connected peers come first, then the order is that of the keys. -/
def PeerView.before (a b : PeerView) : Bool :=
  if a.connected = b.connected then a.pubkey ≤ b.pubkey else a.connected

def buildPeerViews (known : StringMap KnownPeer) (connected : Finset String) (channelCounts : StringMap UInt32) :
    List PeerView :=
  let pubkeys := ascending known.keys ++ (ascending connected).filter (· ∉ known)
  (pubkeys.map (peerView known connected channelCounts)).mergeSort PeerView.before

end WalletCore.Peers
