import Mathlib.Data.Set.Defs
import WalletCore.Lib.Paging

/-! # The listing of the server's keys

The wire client asks for one page of keys after the other, each with the token of the one before, and
sends a request again while the failure may pass. The server may answer every request as it likes.
-/

namespace WalletCore.Vss

open Lib

/-! ## Messages -/

structure ListKeyVersionsRequest where
  storeId : String
  keyPrefix : Option String
  pageSize : Option Int32
  pageToken : Option String
deriving DecidableEq

structure KeyValue where
  key : String
  version : Int64
  value : List UInt8
deriving DecidableEq

structure ListKeyVersionsResponse where
  keyVersions : List KeyValue
  nextPageToken : Option String
  globalVersion : Option Int64
deriving DecidableEq

inductive ErrorCode where
  | unknown
  | conflictException
  | invalidRequestException
  | internalServerException
  | noSuchKeyException
  | authException
deriving DecidableEq

structure ErrorResponse where
  errorCode : ErrorCode
  message : String
deriving DecidableEq

/-- The decoders of the protocol's messages. -/
structure WireFormat where
  decodeListKeyVersionsResponse : List UInt8 → Except String ListKeyVersionsResponse
  decodeErrorResponse : List UInt8 → Option ErrorResponse

inductive VssError where
  | conflict (message : String)
  | invalidRequest (message : String)
  | auth (message : String)
  | noSuchKey (message : String)
  | internalServer (message : String)
  | http (status : UInt16) (message : String)
  | network (message : String)
  | tooManyListPages
deriving DecidableEq

def maxListPages : Nat := 100

/-- A server with a state of its own. An answer is a status with a body, or the reason why there is none. -/
structure HttpServer (σ : Type) where
  post : σ → String → ListKeyVersionsRequest → Except String (UInt16 × List UInt8) × σ

/-- The pauses between the attempts change no answer. -/
structure VssRetryPolicy where
  maxAttempts : Nat

def VssRetryPolicy.default : VssRetryPolicy := ⟨3⟩

structure VssWireClient where
  baseUrl : String
  storeId : String
  retry : VssRetryPolicy

def isSuccess (status : UInt16) : Bool := 200 ≤ status && status < 300

/-- An error that can be read names its kind; otherwise the status has to do. -/
def parseError (wire : WireFormat) (status : UInt16) (payload : List UInt8) : VssError :=
  let fallback :=
    if status = 409 then .conflict ("HTTP " ++ Nat.repr status.toNat ++ " without a decodable ErrorResponse")
    else .http status "response body is not a decodable ErrorResponse"
  match wire.decodeErrorResponse payload with
  | none => fallback
  | some response =>
    match response.errorCode with
    | .conflictException => .conflict response.message
    | .invalidRequestException => .invalidRequest response.message
    | .authException => .auth response.message
    | .noSuchKeyException => .noSuchKey response.message
    | .internalServerException => .internalServer response.message
    | .unknown => fallback

def decodeResponse (wire : WireFormat) (status : UInt16) (payload : List UInt8) :
    Except VssError ListKeyVersionsResponse :=
  (wire.decodeListKeyVersionsResponse payload).mapError fun e => .http status ("undecodable response body: " ++ e)

/-! ## Requests -/

namespace VssWireClient

section

variable {σ : Type} (wire : WireFormat) (server : HttpServer σ) (client : VssWireClient)

def postOnce (url : String) (body : ListKeyVersionsRequest) (s : σ) : Except VssError (UInt16 × List UInt8) × σ :=
  let (answer, s) := server.post s url body
  (answer.mapError fun e => .network (url ++ ": " ++ e), s)

def isTransient : Except VssError (UInt16 × List UInt8) → Bool
  | .ok (status, _) => 500 ≤ status
  | .error (.network _) => true
  | .error _ => false

def postAttempts (url : String) (body : ListKeyVersionsRequest) : Nat → σ → Except VssError (UInt16 × List UInt8) × σ
  | 0, s => postOnce server url body s
  | retries + 1, s =>
    let (outcome, s) := postOnce server url body s
    if isTransient outcome then postAttempts url body retries s else (outcome, s)

/-- The first attempt is made in any case. -/
def post (endpoint : String) (body : ListKeyVersionsRequest) (s : σ) : Except VssError (UInt16 × List UInt8) × σ :=
  postAttempts server (client.baseUrl ++ "/" ++ endpoint) body (client.retry.maxAttempts - 1) s

/-- The loop, with the number of pages that may still come. -/
def listPages : Nat → List (String × Int64) → Option String → σ → Except VssError (List (String × Int64)) × σ
  | 0, _, _, s => (.error .tooManyListPages, s)
  | pages + 1, results, pageToken, s =>
    match client.post server "listKeyVersions" ⟨client.storeId, none, none, pageToken⟩ s with
    | (.error e, s) => (.error e, s)
    | (.ok (status, payload), s) =>
      if !isSuccess status then (.error (parseError wire status payload), s)
      else
        match decodeResponse wire status payload with
        | .error e => (.error e, s)
        | .ok response =>
          let results := results ++ response.keyVersions.map fun kv => (kv.key, kv.version)
          match response.nextPageToken.filter (· ≠ "") with
          | none => (.ok results, s)
          | some token => listPages pages results (some token) s

def listKeyVersions (s : σ) : Except VssError (List (String × Int64)) × σ :=
  client.listPages wire server maxListPages [] none s

/-- What the server has under a token, as the client gets to see it. -/
def fetchPage : Fetch σ String (String × Int64) VssError := fun s pageToken =>
  match client.post server "listKeyVersions" ⟨client.storeId, none, none, pageToken⟩ s with
  | (.error e, s) => (.error e, s)
  | (.ok (status, payload), s) =>
    if !isSuccess status then (.error (parseError wire status payload), s)
    else
      ((decodeResponse wire status payload).map fun response =>
        ⟨response.keyVersions.map fun kv => (kv.key, kv.version), response.nextPageToken.filter (· ≠ "")⟩, s)

theorem listPages_eq (pages : Nat) (results : List (String × Int64)) (pageToken : Option String) (s : σ) :
    client.listPages wire server pages results pageToken s =
      readPages (client.fetchPage wire server) .tooManyListPages pages results pageToken s := by
  induction pages generalizing results pageToken s with
  | zero => rfl
  | succ pages ih =>
    rw [listPages, readPages, fetchPage]
    rcases client.post server "listKeyVersions" ⟨client.storeId, none, none, pageToken⟩ s with ⟨e | ⟨status, payload⟩, s'⟩
    · rfl
    · dsimp only
      split
      · rfl
      · rcases decodeResponse wire status payload with e | response
        · rfl
        · dsimp only [Except.map]
          cases response.nextPageToken.filter (· ≠ "") with
          | none => rfl
          | some token => exact ih _ _ _

/-! ## What a listing is good for -/

variable {wire server client}

theorem listKeyVersions_eq (s : σ) :
    client.listKeyVersions wire server s =
      readPages (client.fetchPage wire server) .tooManyListPages maxListPages [] none s :=
  listPages_eq wire server client maxListPages [] none s

theorem listKeyVersions_ends (s : σ) :
    Ends (client.fetchPage wire server) .tooManyListPages maxListPages s none (client.listKeyVersions wire server s) := by
  rw [listKeyVersions_eq]
  exact readPages_ends _ _ _ _

theorem listKeyVersions_ok_iff {s last : σ} {listing : List (String × Int64)} :
    client.listKeyVersions wire server s = (.ok listing, last) ↔
      ∃ pages, Listing (client.fetchPage wire server) s none pages last ∧ pages.length ≤ maxListPages ∧
        listing = pages.flatMap Page.items := by
  rw [listKeyVersions_eq]
  exact readPages_eq_ok_iff maxListPages

section

variable {requests : σ → Nat}

theorem postAttempts_requests (hCounts : ∀ s url body, requests (server.post s url body).2 ≤ requests s + 1)
    (url : String) (body : ListKeyVersionsRequest) (retries : Nat) (s : σ) :
    requests (postAttempts server url body retries s).2 ≤ requests s + (retries + 1) := by
  induction retries generalizing s with
  | zero => exact hCounts s url body
  | succ retries ih =>
    have hOne : requests (postOnce server url body s).2 ≤ requests s + 1 := hCounts s url body
    rw [postAttempts]
    dsimp only
    split
    · have hRest := ih (postOnce server url body s).2
      omega
    · exact Nat.le_trans hOne (by omega)

theorem fetchPage_requests (hCounts : ∀ s url body, requests (server.post s url body).2 ≤ requests s + 1)
    (s : σ) (token : Option String) :
    requests (client.fetchPage wire server s token).2 ≤ requests s + max 1 client.retry.maxAttempts := by
  have hPost := postAttempts_requests hCounts (client.baseUrl ++ "/" ++ "listKeyVersions")
    ⟨client.storeId, none, none, token⟩ (client.retry.maxAttempts - 1) s
  have hAttempts : client.retry.maxAttempts - 1 + 1 = max 1 client.retry.maxAttempts := by omega
  rw [hAttempts] at hPost
  rw [fetchPage, post]
  generalize postAttempts server (client.baseUrl ++ "/" ++ "listKeyVersions") ⟨client.storeId, none, none, token⟩
    (client.retry.maxAttempts - 1) s = answer at hPost ⊢
  obtain ⟨e | ⟨status, payload⟩, s'⟩ := answer
  · exact hPost
  · dsimp only
    split <;> exact hPost

theorem listKeyVersions_requests (hCounts : ∀ s url body, requests (server.post s url body).2 ≤ requests s + 1)
    (s : σ) :
    requests (client.listKeyVersions wire server s).2 ≤ requests s + maxListPages * max 1 client.retry.maxAttempts := by
  rw [listKeyVersions_eq]
  exact readPages_cost (fetchPage_requests hCounts) [] maxListPages none s

end

/-- Whatever pages a whole listing takes, every key is on one of them, and on one only. -/
def Partitions (fetch : Fetch σ String (String × Int64) VssError) (s : σ) (keys : Set String) : Prop :=
  ∀ pages last, Listing fetch s none pages last →
    (pages.flatMap fun page => page.items.map Prod.fst).Nodup ∧
      ∀ key, key ∈ keys ↔ key ∈ pages.flatMap fun page => page.items.map Prod.fst

/-- Then a listing that comes back names exactly the server's keys. -/
theorem listKeyVersions_keys {s : σ} {keys : Set String} (hKeys : Partitions (client.fetchPage wire server) s keys)
    {listing : List (String × Int64)} (hListing : (client.listKeyVersions wire server s).1 = .ok listing) :
    (listing.map Prod.fst).Nodup ∧ ∀ key, key ∈ keys ↔ key ∈ listing.map Prod.fst := by
  obtain ⟨pages, hPages, -, rfl⟩ := listKeyVersions_ok_iff.mp (Prod.ext hListing rfl)
  rw [List.map_flatMap]
  exact hKeys pages _ hPages

end

end VssWireClient

end WalletCore.Vss
