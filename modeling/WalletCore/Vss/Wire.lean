import WalletCore.Lib.Retry
import WalletCore.Sweep.Descriptor
import WalletCore.Vss.Listing
import WalletCore.Vss.System

/-! # Objects on the wire

The server holds ciphertexts under names it cannot read. A call of the wire client is one HTTP request,
sent again after a failure that may pass, while other devices write between two transmissions. What the
store relies on is less: one request that takes effect at one moment, and its answer.
-/

namespace WalletCore.Vss

open Lib
open Restore (hexStr)

/-! ## Names and blobs -/

def nonceLen : Nat := 12

def tagLen : Nat := 16

abbrev Nonce := Vector UInt8 nonceLen

inductive CryptoError where
  | blobTooShort
  | decryptFailed
deriving DecidableEq

/-- HMAC-SHA256 and ChaCha20-Poly1305 under the wallet's encryption key. -/
structure Cipher where
  hmac : String → List UInt8
  encrypt : Nonce → List UInt8 → List UInt8
  decrypt : Nonce → List UInt8 → Option (List UInt8)
  decrypt_encrypt : ∀ nonce plaintext, decrypt nonce (encrypt nonce plaintext) = some plaintext
  tagLen_le : ∀ nonce plaintext, tagLen ≤ (encrypt nonce plaintext).length

namespace Crypto

variable (cipher : Cipher)

def obfuscateKey (plaintextKey : String) : String := hexStr (cipher.hmac plaintextKey)

def encryptWithNonce (nonce : Nonce) (plaintext : List UInt8) : List UInt8 := nonce.toList ++ cipher.encrypt nonce plaintext

def decrypt (blob : List UInt8) : Except CryptoError (List UInt8) :=
  if h : blob.length < nonceLen + tagLen then .error .blobTooShort
  else
    have hNonce : (blob.take nonceLen).length = nonceLen := by
      rw [List.length_take]
      omega
    match cipher.decrypt ⟨⟨blob.take nonceLen⟩, hNonce⟩ (blob.drop nonceLen) with
    | some plaintext => .ok plaintext
    | none => .error .decryptFailed

variable {cipher}

theorem decrypt_encryptWithNonce (nonce : Nonce) (plaintext : List UInt8) :
    decrypt cipher (encryptWithNonce cipher nonce plaintext) = .ok plaintext := by
  have hTag := cipher.tagLen_le nonce plaintext
  have hLength : nonce.toList.length = nonceLen := Vector.length_toList
  have hTake : (encryptWithNonce cipher nonce plaintext).take nonceLen = nonce.toList :=
    List.take_left' hLength
  have hDrop : (encryptWithNonce cipher nonce plaintext).drop nonceLen = cipher.encrypt nonce plaintext :=
    List.drop_left' hLength
  have hLong : ¬ (encryptWithNonce cipher nonce plaintext).length < nonceLen + tagLen := by
    rw [encryptWithNonce, List.length_append]
    omega
  have hNonce : ∀ h, (⟨⟨(encryptWithNonce cipher nonce plaintext).take nonceLen⟩, h⟩ : Nonce) = nonce := by
    intro h
    apply Vector.toList_inj.mp
    exact hTake
  rw [decrypt, dif_neg hLong]
  dsimp only
  rw [hNonce, hDrop, cipher.decrypt_encrypt]

/-- Names collide where their HMACs do. -/
theorem obfuscateKey_injOn {keys : Set String} (h : Set.InjOn cipher.hmac keys) :
    Set.InjOn (obfuscateKey cipher) keys := by
  intro key hKey other hOther hSame
  refine h hKey hOther ?_
  have hBytes := Sweep.decodeHex_hexStr (cipher.hmac key)
  rw [show hexStr (cipher.hmac key) = hexStr (cipher.hmac other) from hSame, Sweep.decodeHex_hexStr] at hBytes
  injection hBytes with hBytes
  exact hBytes.symm

end Crypto

/-! ## Messages -/

structure GetObjectRequest where
  storeId : String
  key : String
deriving DecidableEq

structure GetObjectResponse where
  value : Option KeyValue
deriving DecidableEq

structure PutObjectRequest where
  storeId : String
  globalVersion : Option Int64
  transactionItems : List KeyValue
  deleteItems : List KeyValue
deriving DecidableEq

structure DeleteObjectRequest where
  storeId : String
  keyValue : Option KeyValue
deriving DecidableEq

inductive ObjectRequest where
  | getObject (request : GetObjectRequest)
  | putObjects (request : PutObjectRequest)
  | deleteObject (request : DeleteObjectRequest)
deriving DecidableEq

/-- The messages about objects: what one side encodes the other one reads. -/
structure ObjectFormat extends WireFormat where
  encodeGetObjectResponse : GetObjectResponse → List UInt8
  encodeErrorResponse : ErrorResponse → List UInt8
  decodeGetObjectResponse : List UInt8 → Except String GetObjectResponse
  decode_getObjectResponse : ∀ response, decodeGetObjectResponse (encodeGetObjectResponse response) = .ok response
  decode_errorResponse : ∀ response, decodeErrorResponse (encodeErrorResponse response) = some response

/-! ## The server -/

/-- One namespace: ciphertexts and their versions. -/
abbrev WireStore := String → Option (List UInt8 × Int64)

namespace WireStore

def version (store : WireStore) (key : String) : Int64 :=
  match store key with
  | some (_, version) => version
  | none => 0

/-- A transaction: every item is current, and all are written, or none is. -/
def transact (store : WireStore) (items : List KeyValue) : WireStore × Bool :=
  if items.all fun kv => store.version kv.key == kv.version then
    (items.foldl (fun store kv => Function.update store kv.key (some (kv.value, kv.version + 1))) store, true)
  else (store, false)

def handle (format : ObjectFormat) (store : WireStore) : ObjectRequest → WireStore × (UInt16 × List UInt8)
  | .getObject request =>
    match store request.key with
    | some (value, version) =>
      (store, 200, format.encodeGetObjectResponse ⟨some ⟨request.key, version, value⟩⟩)
    | none => (store, 404, format.encodeErrorResponse ⟨.noSuchKeyException, "no such key"⟩)
  | .putObjects request =>
    match store.transact request.transactionItems with
    | (store, true) => (store, 200, [])
    | (store, false) => (store, 409, format.encodeErrorResponse ⟨.conflictException, "version conflict"⟩)
  | .deleteObject request =>
    match request.keyValue with
    | none => (store, 400, format.encodeErrorResponse ⟨.invalidRequestException, "no key"⟩)
    | some kv =>
      match store kv.key with
      | none => (store, 200, [])
      | some (_, version) =>
        if version = kv.version then (Function.update store kv.key none, 200, [])
        else (store, 409, format.encodeErrorResponse ⟨.conflictException, "version conflict"⟩)

end WireStore

/-! ## The network -/

/-- Another device's write of a key, or its removal. -/
structure Change where
  key : String
  value : Option (List UInt8 × Nonce)

/-- What becomes of one transmission. A proxy may turn it down before or after the server has seen it. -/
inductive Transmission where
  | answered
  | dropped (reason : String)
  | lost (reason : String)
  | turnedDown (reached : Bool) (status : UInt16) (payload : List UInt8)

/-- What the others do before a transmission, and what becomes of it. -/
structure Moment where
  changes : List Change
  transmission : Transmission

/-- The server, and what is to come; after that the network is down. -/
structure Net where
  store : WireStore
  moments : List Moment

section

variable (cipher : Cipher) (format : ObjectFormat)

def WireStore.change (store : WireStore) (change : Change) : WireStore :=
  let key := Crypto.obfuscateKey cipher change.key
  Function.update store key (change.value.map fun value =>
    (Crypto.encryptWithNonce cipher value.2 value.1, store.version key + 1))

def Net.post (net : Net) (request : ObjectRequest) : Except String (UInt16 × List UInt8) × Net :=
  match net.moments with
  | [] => (.error "network unreachable", net)
  | moment :: moments =>
    let store := moment.changes.foldl (WireStore.change cipher) net.store
    let handled := store.handle format request
    match moment.transmission with
    | .answered => (.ok handled.2, ⟨handled.1, moments⟩)
    | .dropped reason => (.error reason, ⟨store, moments⟩)
    | .lost reason => (.error reason, ⟨handled.1, moments⟩)
    | .turnedDown reached status payload =>
      (.ok (status, payload), ⟨if reached then handled.1 else store, moments⟩)

end

/-! ## The client -/

inductive GetObjectError where
  | wire (e : VssError)
  | crypto (e : CryptoError)
deriving DecidableEq

namespace VssWireClient

section

variable (client : VssWireClient) (cipher : Cipher) (format : ObjectFormat)

def postObjectOnce (url : String) (request : ObjectRequest) (net : Net) :
    Except VssError (UInt16 × List UInt8) × Net :=
  let (answer, net) := net.post cipher format request
  (answer.mapError fun e => .network (url ++ ": " ++ e), net)

/-- The first attempt is made in any case. -/
def postObject (endpoint : String) (request : ObjectRequest) (net : Net) : Except VssError (UInt16 × List UInt8) × Net :=
  Lib.retry (postObjectOnce cipher format (client.baseUrl ++ "/" ++ endpoint) request) isTransient
    (client.retry.maxAttempts - 1) net

/-- The listing's requests are sent by the same loop. -/
theorem postAttempts_eq {σ : Type} (server : HttpServer σ) (url : String) (body : ListKeyVersionsRequest) (retries : Nat)
    (s : σ) : postAttempts server url body retries s = Lib.retry (postOnce server url body) isTransient retries s := by
  induction retries generalizing s with
  | zero => rfl
  | succ retries ih =>
    rw [postAttempts, Lib.retry]
    dsimp only
    rw [ih]

def decodeGetObjectResponse (status : UInt16) (payload : List UInt8) : Except VssError GetObjectResponse :=
  (format.decodeGetObjectResponse payload).mapError fun e => .http status ("undecodable response body: " ++ e)

/-- The status 404 is looked at before anything is decoded. -/
def readObject (status : UInt16) (payload : List UInt8) : Except GetObjectError (Option (List UInt8 × Int64)) :=
  if status = 404 then .ok none
  else if !isSuccess status then .error (.wire (parseError format.toWireFormat status payload))
  else
    match decodeGetObjectResponse format status payload with
    | .error e => .error (.wire e)
    | .ok response =>
      match response.value with
      | none => .ok none
      | some kv =>
        match Crypto.decrypt cipher kv.value with
        | .error e => .error (.crypto e)
        | .ok plaintext => .ok (some (plaintext, kv.version))

def readWritten (status : UInt16) (payload : List UInt8) : Except VssError Unit :=
  if !isSuccess status then .error (parseError format.toWireFormat status payload) else .ok ()

def getByWireKey (wireKey : String) (net : Net) : Except GetObjectError (Option (List UInt8 × Int64)) × Net :=
  match client.postObject cipher format "getObject" (.getObject ⟨client.storeId, wireKey⟩) net with
  | (.error e, net) => (.error (.wire e), net)
  | (.ok (status, payload), net) => (readObject cipher format status payload, net)

def getObject (plaintextKey : String) (net : Net) : Except GetObjectError (Option (List UInt8 × Int64)) × Net :=
  client.getByWireKey cipher format (Crypto.obfuscateKey cipher plaintextKey) net

def getObjectByStoredKey (storedKey : String) (net : Net) : Except GetObjectError (Option (List UInt8 × Int64)) × Net :=
  client.getByWireKey cipher format storedKey net

def keyValue (nonce : Nonce) (plaintextKey : String) (value : List UInt8) (version : Int64) : KeyValue :=
  ⟨Crypto.obfuscateKey cipher plaintextKey, version, Crypto.encryptWithNonce cipher nonce value⟩

/-- The value is encrypted once, whatever the number of attempts. -/
def putObject (nonce : Nonce) (plaintextKey : String) (value : List UInt8) (version : Int64) (net : Net) :
    Except VssError Int64 × Net :=
  match client.postObject cipher format "putObjects"
    (.putObjects ⟨client.storeId, none, [keyValue cipher nonce plaintextKey value version], []⟩) net with
  | (.error e, net) => (.error e, net)
  | (.ok (status, payload), net) => ((readWritten format status payload).map fun _ => version + 1, net)

def putObjects (items : List (Nonce × String × List UInt8 × Int64)) (net : Net) : Except VssError Unit × Net :=
  match client.postObject cipher format "putObjects"
    (.putObjects ⟨client.storeId, none,
      items.map fun (nonce, plaintextKey, value, version) => keyValue cipher nonce plaintextKey value version, []⟩) net with
  | (.error e, net) => (.error e, net)
  | (.ok (status, payload), net) => (readWritten format status payload, net)

def deleteObject (plaintextKey : String) (version : Int64) (net : Net) : Except VssError Unit × Net :=
  match client.postObject cipher format "deleteObject"
    (.deleteObject ⟨client.storeId, some ⟨Crypto.obfuscateKey cipher plaintextKey, version, []⟩⟩) net with
  | (.error e, net) => (.error e, net)
  | (.ok (status, payload), net) => (readWritten format status payload, net)

end

end VssWireClient

/-! ## What the store makes of the results -/

def Answer.ofPut : Except VssError Int64 → Answer
  | .ok version => .putOk version.toNatClampNeg
  | .error (.conflict _) => .conflict
  | .error _ => .failed

def Answer.ofGet (view : List UInt8 → Bytes) : Except GetObjectError (Option (List UInt8 × Int64)) → Answer
  | .ok (some (plaintext, version)) => .found (view plaintext) version.toNatClampNeg
  | .ok none => .missing
  | .error _ => .failed

def Answer.ofDelete : Except VssError Unit → Answer
  | .ok () => .deleteOk
  | .error (.conflict _) => .conflict
  | .error _ => .failed

/-- A request of the store, on byte strings. -/
inductive ObjectCall where
  | put (key : String) (value : List UInt8) (version : Nat)
  | get (key : String)
  | delete (key : String) (version : Nat)
deriving DecidableEq

namespace ObjectCall

def key : ObjectCall → String
  | .put key .. | .get key | .delete key _ => key

def version : ObjectCall → Nat
  | .put _ _ version | .delete _ version => version
  | .get _ => 0

/-- The request as the store sees it, which tells byte strings apart by how they read. -/
def plain (view : List UInt8 → Bytes) : ObjectCall → Request
  | .put key value version => .put key (view value) version
  | .get key => .get key
  | .delete key version => .delete key version

end ObjectCall

def VssWireClient.perform (client : VssWireClient) (cipher : Cipher) (format : ObjectFormat) (view : List UInt8 → Bytes)
    (nonce : Nonce) (call : ObjectCall) (net : Net) : Answer × Net :=
  match call with
  | .put key value version =>
    let (result, net) := client.putObject cipher format nonce key value (.ofNat version) net
    (.ofPut result, net)
  | .get key =>
    let (result, net) := client.getObject cipher format key net
    (.ofGet view result, net)
  | .delete key version =>
    let (result, net) := client.deleteObject cipher format key (.ofNat version) net
    (.ofDelete result, net)

end WalletCore.Vss
