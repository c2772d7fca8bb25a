import WalletCore.Vss.Schema

/-! # A call is one request

What the store knows of the server are plaintexts and versions, and a request that takes effect at one
moment or never. A call of the wire client keeps to that: its transmissions, and whatever the others
write between them, come to the same as one delivery at one place among the others' writes.
-/

namespace WalletCore.Vss

open Lib

/-! ## Requests sent again, in plain -/

namespace Server

/-- Another device's write of a key, or its removal. -/
def foreign (server : Server) (change : String × Option Bytes) : Server :=
  Function.update server change.1 (change.2.map fun bytes => (bytes, server.version change.1 + 1))

def putItem (server : Server) (item : String × Bytes × Nat) : Server :=
  Function.update server item.1 (some (item.2.1, item.2.2 + 1))

/-- All the items are current, and all are written, or none is. -/
def putMany (server : Server) (items : List (String × Bytes × Nat)) : Server × Bool :=
  if items.all fun item => server.version item.1 == item.2.2 then (items.foldl putItem server, true)
  else (server, false)

theorem foreign_version_le (server : Server) (change : String × Option Bytes) (key : String) :
    (server.foreign change).version key ≤ server.version key + 1 := by
  rw [foreign, version_update]
  split
  · next hKey =>
    subst hKey
    cases change.2 with
    | none => exact Nat.zero_le _
    | some bytes => exact le_rfl
  · exact Nat.le_succ _

theorem once_version_le (server : Server) (request : Request) (key : String) :
    (server.once request).1.version key ≤ server.version key + 1 := by
  have hEffect := server.once_effect request
  generalize (server.once request).1 = after at hEffect ⊢
  cases hEffect with
  | none => exact Nat.le_succ _
  | put other value version hVersion =>
    rw [version_update]
    split
    · next hKey =>
      subst hKey
      exact Nat.succ_le_succ hVersion.ge
    · exact Nat.le_succ _
  | delete other value version hEntry =>
    rw [version_update]
    split
    · exact Nat.zero_le _
    · exact Nat.le_succ _

end Server

/-- What the others may do meanwhile: nobody removes a key that is being put, and nobody touches one
that is being deleted. -/
def Request.Allows : Request → String × Option Bytes → Prop
  | .put key _ _, change => change.1 = key → change.2.isSome = true
  | .get _, _ => True
  | .delete key _, change => change.1 ≠ key

theorem version_foreign_lt {server : Server} {key : String} {version : Nat} {change : String × Option Bytes}
    (h : version < server.version key) (hAllowed : change.1 = key → change.2.isSome = true) :
    version < (server.foreign change).version key := by
  rw [Server.foreign, Server.version_update]
  split
  · next hKey =>
    subst hKey
    obtain ⟨bytes, hSome⟩ := Option.isSome_iff_exists.mp (hAllowed rfl)
    rw [hSome]
    exact h.trans (Nat.lt_succ_self _)
  · exact h

/-- A put that was accepted is out of date from then on; what was deleted stays so. -/
theorem oneShot_once (request : Request) :
    OneShot (fun server : Server => server.once request) Server.foreign request.Allows := by
  intro server
  dsimp only
  cases request with
  | put key value version =>
    by_cases hVersion : server.version key = version
    · refine .inr ⟨.conflict, settled_of_inv (P := fun server => version < server.version key) ?_ ?_ ?_⟩
      · intro server hStale
        rw [Server.once, if_neg hStale.ne']
      · exact fun server change hStale hAllowed => version_foreign_lt hStale hAllowed
      · rw [Server.once, if_pos hVersion, Server.version_update, if_pos rfl]
        exact Nat.lt_succ_self _
    · left
      rw [Server.once, if_neg hVersion]
  | get key =>
    left
    rw [Server.once.eq_def]
    dsimp only
    split <;> rfl
  | delete key version =>
    cases hEntry : server key with
    | none =>
      left
      simp [Server.once, hEntry]
    | some entry =>
      by_cases hVersion : entry.2 = version
      · refine .inr ⟨.deleteOk, settled_of_inv (P := fun server => server key = none) ?_ ?_ ?_⟩
        · intro server hGone
          simp [Server.once, hGone]
        · exact fun server change hGone hAllowed => (Function.update_of_ne (Ne.symm hAllowed) ..).trans hGone
        · simp [Server.once, hEntry, hVersion]
      · left
        simp [Server.once, hEntry, hVersion]

/-- Nobody removes a key of the transaction. -/
def allowsItems (items : List (String × Bytes × Nat)) (change : String × Option Bytes) : Prop :=
  change.1 ∈ items.map Prod.fst → change.2.isSome = true

theorem version_putItems_lt {key : String} {version : Nat} (items : List (String × Bytes × Nat)) {server : Server}
    (hItems : ∀ item ∈ items, item.1 = key → item.2.2 = version)
    (h : version < server.version key ∨ key ∈ items.map Prod.fst) :
    version < (items.foldl Server.putItem server).version key := by
  induction items generalizing server with
  | nil => exact h.resolve_right (by simp)
  | cons item rest ih =>
    obtain ⟨hHere, hRest⟩ := List.forall_mem_cons.mp hItems
    refine ih hRest ?_
    by_cases hKey : item.1 = key
    · left
      rw [Server.putItem, Server.version_update, if_pos hKey.symm]
      exact Nat.lt_succ_of_le (hHere hKey).ge
    · rw [Server.putItem, Server.version_update, if_neg (Ne.symm hKey)]
      refine h.imp_right fun hMem => ?_
      rw [List.map_cons, List.mem_cons] at hMem
      exact hMem.resolve_left (Ne.symm hKey)

/-- An accepted transaction has a first item, which is out of date from then on; one without items is
always accepted. -/
theorem oneShot_putMany (items : List (String × Bytes × Nat)) :
    OneShot (fun server : Server => server.putMany items) Server.foreign (allowsItems items) := by
  intro server
  dsimp only
  by_cases hCurrent : (items.all fun item => server.version item.1 == item.2.2) = true
  · rw [Server.putMany, if_pos hCurrent]
    cases items with
    | nil => exact .inl rfl
    | cons first rest =>
      have hVersions : ∀ item ∈ first :: rest, item.1 = first.1 → item.2.2 = first.2.2 := by
        intro item hItem hKey
        have hAll := fun item hItem => beq_iff_eq.mp (List.all_eq_true.mp hCurrent item hItem)
        rw [← hAll item hItem, ← hAll first List.mem_cons_self, hKey]
      refine .inr ⟨false, settled_of_inv (P := fun server => first.2.2 < server.version first.1) ?_ ?_ ?_⟩
      · intro server hStale
        have hNot : ¬ ((first :: rest).all fun item => server.version item.1 == item.2.2) = true := by
          rw [List.all_eq_true]
          exact fun hAll => hStale.ne' (beq_iff_eq.mp (hAll first List.mem_cons_self))
        rw [Server.putMany, if_neg hNot]
      · refine fun server change hStale hAllowed => version_foreign_lt hStale fun hKey => hAllowed ?_
        rw [hKey]
        exact List.mem_cons_self
      · exact version_putItems_lt _ hVersions (.inr List.mem_cons_self)
  · left
    rw [Server.putMany, if_neg hCurrent]

theorem deliver_of_handled {server after : Server} {request : Request} {answer : Option Answer}
    (h : Handled (fun server : Server => server.once request) server after answer) :
    ∃ delivery, server.deliver request delivery = (after, answer.getD .failed) := by
  cases h with
  | unheard => exact ⟨.failed, rfl⟩
  | lost => exact ⟨.lost, rfl⟩
  | answered => exact ⟨.ok, rfl⟩
  | repeated => exact ⟨.resent, rfl⟩

/-! ## Ciphertexts for plaintexts -/

section

variable (cipher : Cipher) (view : List UInt8 → Bytes)

def Change.plain (change : Change) : String × Option Bytes :=
  (change.key, change.value.map fun value => view value.1)

/-- A ciphertext of the value, at its version. -/
inductive Sealed : Option (Bytes × Nat) → Option (List UInt8 × Int64) → Prop
  | absent : Sealed none none
  | held (nonce : Nonce) (text : List UInt8) (version : Nat) :
    Sealed (some (view text, version)) (some (Crypto.encryptWithNonce cipher nonce text, .ofNat version))

/-- The ciphertexts of the server's values, as far as these keys go. -/
def Represents (keys : Set String) (server : Server) (store : WireStore) : Prop :=
  ∀ key ∈ keys, Sealed cipher view (server key) (store (Crypto.obfuscateKey cipher key))

/-- So many more versions fit into a signed 64-bit number. -/
def Room (keys : Set String) (steps : Nat) (server : Server) : Prop :=
  ∀ key ∈ keys, server.version key + steps < 2 ^ 63

end

theorem ofNat_inj {a b : Nat} (ha : a < 2 ^ 63) (hb : b < 2 ^ 63) : Int64.ofNat a = Int64.ofNat b ↔ a = b := by
  constructor
  · intro h
    have hInt := congrArg Int64.toInt h
    rw [Int64.toInt_ofNat_of_lt ha, Int64.toInt_ofNat_of_lt hb] at hInt
    exact Int.ofNat.inj hInt
  · exact congrArg _

section

variable {cipher : Cipher} {view : List UInt8 → Bytes} {keys : Set String} {server : Server} {store : WireStore}
  {key : String}

theorem Represents.version (h : Represents cipher view keys server store) (hKey : key ∈ keys) :
    store.version (Crypto.obfuscateKey cipher key) = .ofNat (server.version key) := by
  have hSealed := h key hKey
  rw [WireStore.version, Server.version]
  generalize server key = entry at hSealed
  generalize store (Crypto.obfuscateKey cipher key) = blob at hSealed
  cases hSealed <;> rfl

theorem Represents.update (h : Represents cipher view keys server store) (hKeys : Set.InjOn cipher.hmac keys) (hKey : key ∈ keys)
    {entry : Option (Bytes × Nat)} {blob : Option (List UInt8 × Int64)} (hSealed : Sealed cipher view entry blob) :
    Represents cipher view keys (Function.update server key entry)
      (Function.update store (Crypto.obfuscateKey cipher key) blob) := by
  intro other hOther
  by_cases hSame : other = key
  · subst hSame
    rw [Function.update_self, Function.update_self]
    exact hSealed
  · have hName : Crypto.obfuscateKey cipher other ≠ Crypto.obfuscateKey cipher key :=
      fun hName => hSame (Crypto.obfuscateKey_injOn hKeys hOther hKey hName)
    rw [Function.update_of_ne hSame, Function.update_of_ne hName]
    exact h other hOther

theorem Represents.change (h : Represents cipher view keys server store) (hKeys : Set.InjOn cipher.hmac keys) (change : Change)
    (hKey : change.key ∈ keys) :
    Represents cipher view keys (server.foreign (change.plain view)) (store.change cipher change) := by
  refine h.update hKeys hKey ?_
  rw [Change.plain]
  cases change.value with
  | none => exact .absent
  | some value =>
    have hVersion : store.version (Crypto.obfuscateKey cipher change.key) + 1 =
        .ofNat (server.version change.key + 1) := by
      rw [h.version hKey, Int64.ofNat_add]
      rfl
    rw [Option.map_some, Option.map_some, Option.map_some, hVersion]
    exact .held ..

theorem Represents.changes (h : Represents cipher view keys server store) (hKeys : Set.InjOn cipher.hmac keys)
    (changes : List Change) (hChanges : ∀ change ∈ changes, change.key ∈ keys) :
    Represents cipher view keys ((changes.map (Change.plain view)).foldl Server.foreign server)
      (changes.foldl (WireStore.change cipher) store) := by
  induction changes generalizing server store with
  | nil => exact h
  | cons change rest ih =>
    obtain ⟨hHere, hRest⟩ := List.forall_mem_cons.mp hChanges
    exact ih (h.change hKeys change hHere) hRest

theorem Room.changes {steps : Nat} (changes : List (String × Option Bytes))
    (h : Room keys (changes.length + steps) server) : Room keys steps (changes.foldl Server.foreign server) := by
  induction changes generalizing server with
  | nil => simpa using h
  | cons change rest ih =>
    refine ih fun key hKey => ?_
    have hRoom := h key hKey
    have hOne := server.foreign_version_le change key
    rw [List.length_cons] at hRoom
    omega

end

/-! ## One call -/

/-- An answer that says nothing about the request. -/
def Silent (format : ObjectFormat) : Except VssError (UInt16 × List UInt8) → Prop
  | .ok (status, payload) =>
    isSuccess status = false ∧ status ≠ 404 ∧ ∀ message, parseError format.toWireFormat status payload ≠ .conflict message
  | .error e => ∃ message, e = .network message

/-- A proxy that turns a request down does not pretend to be the server. -/
def Transmission.Honest (format : ObjectFormat) : Transmission → Prop
  | .turnedDown _ status payload => Silent format (.ok (status, payload))
  | _ => True

section

variable (cipher : Cipher) (format : ObjectFormat) (view : List UInt8 → Bytes) (keys : Set String)

/-- The request does to the ciphertexts what the operation does to the plaintexts, and its answer reads
as the operation's. -/
structure Carries {ρ : Type} (op : Server → Server × ρ) (request : ObjectRequest)
    (read : Except VssError (UInt16 × List UInt8) → Option ρ) : Prop where
  handled : ∀ server store, Represents cipher view keys server store → Room keys 1 server →
    Represents cipher view keys (op server).1 (store.handle format request).1 ∧
      read (.ok (store.handle format request).2) = some (op server).2
  silent : ∀ outcome, Silent format outcome → read outcome = none
  version_le : ∀ server key, (op server).1.version key ≤ server.version key + 1

def plainChanges (moments : List Moment) : List (String × Option Bytes) :=
  moments.flatMap fun moment => moment.changes.map (Change.plain view)

/-- The versions that may be used up. -/
def steps (moments : List Moment) : Nat := (moments.map fun moment => moment.changes.length + 1).sum

end

section

variable {cipher : Cipher} {format : ObjectFormat} {view : List UInt8 → Bytes} {keys : Set String} {ρ : Type}
  {op : Server → Server × ρ} {request : ObjectRequest} {read : Except VssError (UInt16 × List UInt8) → Option ρ}
  {allowed : String × Option Bytes → Prop}

/-- What the attempts so far have come to. -/
def Sent (cipher : Cipher) (view : List UInt8 → Bytes) (keys : Set String) (op : Server → Server × ρ)
    (allowed : String × Option Bytes → Prop) (server : Server) (moments : List Moment) (made : Nat) (net : Net) : Prop :=
  ∃ seen now, moments = seen ++ net.moments ∧ seen.length ≤ made ∧
    Progress op Server.foreign allowed server (plainChanges view seen) now ∧ Represents cipher view keys now net.store ∧
    Room keys (steps net.moments) now

/-- What the call has come to. -/
def Comes (cipher : Cipher) (view : List UInt8 → Bytes) (keys : Set String) (op : Server → Server × ρ)
    (server : Server) (moments : List Moment) (made : Nat) (answer : Option ρ) (net : Net) : Prop :=
  ∃ seen now, moments = seen ++ net.moments ∧ seen.length ≤ made ∧
    Placed op Server.foreign server (plainChanges view seen) now answer ∧ Represents cipher view keys now net.store

/-- The others keep to the keys and to what is allowed, and the proxies are honest. -/
def Fair (format : ObjectFormat) (view : List UInt8 → Bytes) (keys : Set String)
    (allowed : String × Option Bytes → Prop) (moments : List Moment) : Prop :=
  ∀ moment ∈ moments, moment.transmission.Honest format ∧
    ∀ change ∈ moment.changes, change.key ∈ keys ∧ allowed (change.plain view)

theorem Fair.plainChanges {moments seen rest : List Moment} (h : Fair format view keys allowed moments)
    (hSplit : moments = seen ++ rest) : ∀ c ∈ plainChanges view seen, allowed c := by
  intro c hMem
  obtain ⟨moment, hMoment, hPlain⟩ := List.mem_flatMap.mp hMem
  obtain ⟨change, hChange, rfl⟩ := List.mem_map.mp hPlain
  refine ((h moment ?_).2 change hChange).2
  rw [hSplit]
  exact List.mem_append_left _ hMoment

theorem Sent.attempt (hCarries : Carries cipher format view keys op request read)
    (hOnce : OneShot op Server.foreign allowed) (hKeys : Set.InjOn cipher.hmac keys) {server : Server}
    {moments : List Moment} (hFair : Fair format view keys allowed moments) {made : Nat} {net : Net}
    (h : Sent cipher view keys op allowed server moments made net) (url : String) :
    Comes cipher view keys op server moments (made + 1)
        (read (VssWireClient.postObjectOnce cipher format url request net).1)
        (VssWireClient.postObjectOnce cipher format url request net).2 ∧
      Sent cipher view keys op allowed server moments (made + 1)
        (VssWireClient.postObjectOnce cipher format url request net).2 := by
  obtain ⟨store, rest⟩ := net
  obtain ⟨seen, now, hSplit, hSeen, hProgress, hRepresents, hRoom⟩ := h
  have hSilent : ∀ reason, read ((Except.error reason : Except String (UInt16 × List UInt8)).mapError
      fun e => .network (url ++ ": " ++ e)) = none := fun reason => hCarries.silent _ ⟨_, rfl⟩
  cases rest with
  | nil =>
    rw [VssWireClient.postObjectOnce, Net.post]
    refine ⟨⟨seen, now, hSplit, Nat.le_succ_of_le hSeen, ?_, hRepresents⟩,
      ⟨seen, now, hSplit, Nat.le_succ_of_le hSeen, hProgress, hRepresents, hRoom⟩⟩
    rw [hSilent]
    exact hProgress.unanswered
  | cons moment rest =>
    obtain ⟨changes, transmission⟩ := moment
    have hMoment := hFair ⟨changes, transmission⟩ (hSplit ▸ List.mem_append_right _ List.mem_cons_self)
    have hSplit' : moments = (seen ++ [⟨changes, transmission⟩]) ++ rest := by
      rw [hSplit, List.append_assoc]
      rfl
    have hLength : (seen ++ [(⟨changes, transmission⟩ : Moment)]).length ≤ made + 1 := by
      rw [List.length_append, List.length_singleton]
      omega
    have hAllowed := hFair.plainChanges hSplit'
    have hPlain : plainChanges view (seen ++ [⟨changes, transmission⟩]) =
        plainChanges view seen ++ changes.map (Change.plain view) := by
      rw [plainChanges, List.flatMap_append, List.flatMap_singleton]
      rfl
    -- the others' writes come first
    have hMoved := hProgress.others (changes.map (Change.plain view))
    rw [← hPlain] at hMoved
    have hRepresents' := hRepresents.changes hKeys changes fun change hChange => (hMoment.2 change hChange).1
    have hRoom' : Room keys (1 + steps rest) ((changes.map (Change.plain view)).foldl Server.foreign now) := by
      refine Room.changes _ fun key hKey => ?_
      have hAll := hRoom key hKey
      simp only [steps, List.map_cons, List.sum_cons] at hAll
      rw [List.length_map, steps]
      omega
    generalize (changes.map (Change.plain view)).foldl Server.foreign now = now at hMoved hRepresents' hRoom'
    generalize hStore : changes.foldl (WireStore.change cipher) store = store' at hRepresents'
    obtain ⟨hAfter, hRead⟩ := hCarries.handled now store' hRepresents' fun key hKey => by
      have := hRoom' key hKey
      omega
    have hRest : Room keys (steps rest) now := fun key hKey => by
      have := hRoom' key hKey
      omega
    have hRestAfter : Room keys (steps rest) (op now).1 := fun key hKey => by
      have := hRoom' key hKey
      have := hCarries.version_le now key
      omega
    have hReached := hMoved.reach hOnce hAllowed
    rw [VssWireClient.postObjectOnce, Net.post]
    dsimp only
    rw [hStore]
    cases transmission with
    | answered =>
      refine ⟨⟨_, _, hSplit', hLength, ?_, hAfter⟩, ⟨_, _, hSplit', hLength, hReached, hAfter, hRestAfter⟩⟩
      rw [show read (Except.mapError _ (.ok (store'.handle format request).2)) = some (op now).2 from hRead]
      exact hMoved.answered hAllowed
    | dropped reason =>
      refine ⟨⟨_, _, hSplit', hLength, ?_, hRepresents'⟩, ⟨_, _, hSplit', hLength, hMoved, hRepresents', hRest⟩⟩
      rw [hSilent]
      exact hMoved.unanswered
    | lost reason =>
      refine ⟨⟨_, _, hSplit', hLength, ?_, hAfter⟩, ⟨_, _, hSplit', hLength, hReached, hAfter, hRestAfter⟩⟩
      rw [hSilent]
      exact hReached.unanswered
    | turnedDown reached status payload =>
      have hNone : read (.ok (status, payload)) = none := hCarries.silent _ hMoment.1
      cases reached with
      | false =>
        refine ⟨⟨_, _, hSplit', hLength, ?_, hRepresents'⟩, ⟨_, _, hSplit', hLength, hMoved, hRepresents', hRest⟩⟩
        rw [show read (Except.mapError _ (.ok (status, payload))) = none from hNone]
        exact hMoved.unanswered
      | true =>
        refine ⟨⟨_, _, hSplit', hLength, ?_, hAfter⟩, ⟨_, _, hSplit', hLength, hReached, hAfter, hRestAfter⟩⟩
        rw [show read (Except.mapError _ (.ok (status, payload))) = none from hNone]
        exact hReached.unanswered

/-- All the transmissions of a call, and the others' writes between them, come to one operation at one
place among these writes. -/
theorem postObject_comes (client : VssWireClient) (hCarries : Carries cipher format view keys op request read)
    (hOnce : OneShot op Server.foreign allowed) (hKeys : Set.InjOn cipher.hmac keys) {server : Server} {net : Net}
    (hRepresents : Represents cipher view keys server net.store) (hFair : Fair format view keys allowed net.moments)
    (hRoom : Room keys (steps net.moments) server) (endpoint : String) :
    Comes cipher view keys op server net.moments (max 1 client.retry.maxAttempts)
      (read (client.postObject cipher format endpoint request net).1)
      (client.postObject cipher format endpoint request net).2 := by
  obtain ⟨total, -, hTotal, hEnd⟩ := retry_rule
    (I := Sent cipher view keys op allowed server net.moments)
    (Q := fun made outcome after => Comes cipher view keys op server net.moments made (read outcome) after)
    (fun made after h => (h.attempt hCarries hOnce hKeys hFair _).imp_right fun hSent _ => hSent)
    (client.retry.maxAttempts - 1) 0 net
    ⟨[], server, rfl, le_rfl, .start_self server, hRepresents, hRoom⟩
  obtain ⟨seen, now, hSplit, hSeen, hPlaced, hAfter⟩ := hEnd
  exact ⟨seen, now, hSplit, by omega, hPlaced, hAfter⟩

end

/-! ## The store's requests -/

namespace ObjectCall

section

variable (client : VssWireClient) (cipher : Cipher) (format : ObjectFormat) (view : List UInt8 → Bytes) (nonce : Nonce)

def endpoint : ObjectCall → String
  | .put .. => "putObjects"
  | .get _ => "getObject"
  | .delete .. => "deleteObject"

def request : ObjectCall → ObjectRequest
  | .put key value version =>
    .putObjects ⟨client.storeId, none, [VssWireClient.keyValue cipher nonce key value (.ofNat version)], []⟩
  | .get key => .getObject ⟨client.storeId, Crypto.obfuscateKey cipher key⟩
  | .delete key version => .deleteObject ⟨client.storeId, some ⟨Crypto.obfuscateKey cipher key, .ofNat version, []⟩⟩

def read : ObjectCall → Except VssError (UInt16 × List UInt8) → Answer
  | .put _ _ version, .ok (status, payload) =>
    .ofPut ((VssWireClient.readWritten format status payload).map fun _ => .ofNat version + 1)
  | .put .., .error e => .ofPut (.error e)
  | .get _, .ok (status, payload) => .ofGet view (VssWireClient.readObject cipher format status payload)
  | .get _, .error e => .ofGet view (.error (.wire e))
  | .delete .., .ok (status, payload) => .ofDelete (VssWireClient.readWritten format status payload)
  | .delete .., .error e => .ofDelete (.error e)

theorem perform_eq (call : ObjectCall) (net : Net) :
    client.perform cipher format view nonce call net =
      (call.read cipher format view
        (client.postObject cipher format call.endpoint (call.request client cipher nonce) net).1,
       (client.postObject cipher format call.endpoint (call.request client cipher nonce) net).2) := by
  cases call with
  | put key value version =>
    rw [VssWireClient.perform, VssWireClient.putObject, endpoint, request]
    rcases client.postObject cipher format "putObjects" _ net with ⟨e | ⟨status, payload⟩, after⟩ <;> rfl
  | get key =>
    rw [VssWireClient.perform, VssWireClient.getObject, VssWireClient.getByWireKey, endpoint, request]
    rcases client.postObject cipher format "getObject" _ net with ⟨e | ⟨status, payload⟩, after⟩ <;> rfl
  | delete key version =>
    rw [VssWireClient.perform, VssWireClient.deleteObject, endpoint, request]
    rcases client.postObject cipher format "deleteObject" _ net with ⟨e | ⟨status, payload⟩, after⟩ <;> rfl

end

end ObjectCall

/-- An answer other than a failure. -/
def Answer.heard : Answer → Option Answer
  | .failed => none
  | answer => some answer

theorem Answer.getD_heard (answer : Answer) : answer.heard.getD .failed = answer := by
  cases answer <;> rfl

theorem isSuccess_ok : isSuccess 200 = true := by decide

theorem parseError_encoded (format : ObjectFormat) (status : UInt16) (message : String) :
    parseError format.toWireFormat status (format.encodeErrorResponse ⟨.conflictException, message⟩) =
      .conflict message := by
  rw [parseError, format.decode_errorResponse]

theorem ofPut_silent {e : VssError} (h : ∀ message, e ≠ .conflict message) : (Answer.ofPut (.error e)).heard = none := by
  cases e with
  | conflict message => exact absurd rfl (h message)
  | invalidRequest | auth | noSuchKey | internalServer | http | network | tooManyListPages => rfl

theorem ofDelete_silent {e : VssError} (h : ∀ message, e ≠ .conflict message) :
    (Answer.ofDelete (.error e)).heard = none := by
  cases e with
  | conflict message => exact absurd rfl (h message)
  | invalidRequest | auth | noSuchKey | internalServer | http | network | tooManyListPages => rfl

section

variable {cipher : Cipher} {view : List UInt8 → Bytes} {keys : Set String} (client : VssWireClient)
  (format : ObjectFormat) (nonce : Nonce)

theorem read_silent (call : ObjectCall) {outcome : Except VssError (UInt16 × List UInt8)} (h : Silent format outcome) :
    (call.read cipher format view outcome).heard = none := by
  rcases outcome with e | ⟨status, payload⟩
  · obtain ⟨message, rfl⟩ := h
    cases call <;> rfl
  · obtain ⟨hFailed, hThere, hOther⟩ := h
    cases call with
    | put key value version =>
      rw [ObjectCall.read, VssWireClient.readWritten, hFailed]
      exact ofPut_silent hOther
    | get key =>
      rw [ObjectCall.read, VssWireClient.readObject, if_neg hThere, hFailed]
      rfl
    | delete key version =>
      rw [ObjectCall.read, VssWireClient.readWritten, hFailed]
      exact ofDelete_silent hOther

theorem current_eq {server : Server} {store : WireStore} (hRepresents : Represents cipher view keys server store)
    (hRoom : Room keys 1 server) {key : String} (hKey : key ∈ keys) {version : Nat} (hVersion : version < 2 ^ 63) :
    (store.version (Crypto.obfuscateKey cipher key) == Int64.ofNat version) = (server.version key == version) := by
  rw [hRepresents.version hKey]
  have hBound := hRoom key hKey
  by_cases hSame : server.version key = version
  · simp [hSame]
  · have hNe : Int64.ofNat (server.version key) ≠ Int64.ofNat version :=
      fun h => hSame ((ofNat_inj (by omega) hVersion).mp h)
    simp [hSame, hNe]

theorem transact_single {server : Server} {store : WireStore} (hRepresents : Represents cipher view keys server store)
    (hRoom : Room keys 1 server) {key : String} (hKey : key ∈ keys) (value : List UInt8) {version : Nat}
    (hVersion : version < 2 ^ 63) :
    store.transact [VssWireClient.keyValue cipher nonce key value (.ofNat version)] =
      if server.version key = version then
        (Function.update store (Crypto.obfuscateKey cipher key)
          (some (Crypto.encryptWithNonce cipher nonce value, .ofNat (version + 1))), true)
      else (store, false) := by
  rw [WireStore.transact, VssWireClient.keyValue]
  simp only [List.all_cons, List.all_nil, Bool.and_true, current_eq hRepresents hRoom hKey hVersion, beq_iff_eq,
    List.foldl_cons, List.foldl_nil]
  rw [Int64.ofNat_add]
  rfl

theorem toNat_succ {version : Nat} (h : version + 1 < 2 ^ 63) : (Int64.ofNat version + 1).toNatClampNeg = version + 1 := by
  have hSucc : Int64.ofNat version + 1 = Int64.ofNat (version + 1) := by
    rw [Int64.ofNat_add]
    rfl
  rw [hSucc, Int64.toNatClampNeg_ofNat_of_lt h]

theorem handled_put (hKeys : Set.InjOn cipher.hmac keys) {server : Server} {store : WireStore}
    (hRepresents : Represents cipher view keys server store) (hRoom : Room keys 1 server) {key : String} (hKey : key ∈ keys)
    (value : List UInt8) {version : Nat} (hVersion : version < 2 ^ 63) :
    Represents cipher view keys (server.once ((ObjectCall.put key value version).plain view)).1
        (store.handle format ((ObjectCall.put key value version).request client cipher nonce)).1 ∧
      (ObjectCall.put key value version).read cipher format view
        (.ok (store.handle format ((ObjectCall.put key value version).request client cipher nonce)).2) =
          (server.once ((ObjectCall.put key value version).plain view)).2 := by
  have hBound := hRoom key hKey
  rw [ObjectCall.plain, ObjectCall.request, WireStore.handle, transact_single nonce hRepresents hRoom hKey value hVersion,
    Server.once]
  by_cases hSame : server.version key = version
  · rw [if_pos hSame, if_pos hSame]
    refine ⟨hRepresents.update hKeys hKey (.held ..), ?_⟩
    rw [ObjectCall.read, VssWireClient.readWritten, isSuccess_ok]
    exact congrArg Answer.putOk (toNat_succ (by omega))
  · rw [if_neg hSame, if_neg hSame]
    refine ⟨hRepresents, ?_⟩
    rw [ObjectCall.read, VssWireClient.readWritten, parseError_encoded]
    rfl

theorem handled_get {server : Server} {store : WireStore} (hRepresents : Represents cipher view keys server store)
    (hRoom : Room keys 1 server) {key : String} (hKey : key ∈ keys) :
    Represents cipher view keys (server.once ((ObjectCall.get key).plain view)).1
        (store.handle format ((ObjectCall.get key).request client cipher nonce)).1 ∧
      (ObjectCall.get key).read cipher format view
        (.ok (store.handle format ((ObjectCall.get key).request client cipher nonce)).2) =
          (server.once ((ObjectCall.get key).plain view)).2 := by
  have hSealed := hRepresents key hKey
  have hBound := hRoom key hKey
  rw [ObjectCall.plain, ObjectCall.request, WireStore.handle, Server.once]
  rw [Server.version] at hBound
  generalize hEntry : server key = entry at hSealed hBound
  generalize hBlob : store (Crypto.obfuscateKey cipher key) = blob at hSealed
  cases hSealed with
  | absent => exact ⟨hRepresents, rfl⟩
  | held nonce' text version =>
    dsimp only at hBound
    refine ⟨hRepresents, ?_⟩
    simp only [ObjectCall.read, VssWireClient.readObject, isSuccess_ok, VssWireClient.decodeGetObjectResponse,
      format.decode_getObjectResponse, Except.mapError, Crypto.decrypt_encryptWithNonce]
    rw [if_neg (by decide)]
    exact congrArg (Answer.found _) (Int64.toNatClampNeg_ofNat_of_lt (by omega))

theorem handled_delete (hKeys : Set.InjOn cipher.hmac keys) {server : Server} {store : WireStore}
    (hRepresents : Represents cipher view keys server store) (hRoom : Room keys 1 server) {key : String} (hKey : key ∈ keys)
    {version : Nat} (hVersion : version < 2 ^ 63) :
    Represents cipher view keys (server.once ((ObjectCall.delete key version).plain view)).1
        (store.handle format ((ObjectCall.delete key version).request client cipher nonce)).1 ∧
      (ObjectCall.delete key version).read cipher format view
        (.ok (store.handle format ((ObjectCall.delete key version).request client cipher nonce)).2) =
          (server.once ((ObjectCall.delete key version).plain view)).2 := by
  have hSealed := hRepresents key hKey
  have hBound := hRoom key hKey
  rw [ObjectCall.plain, ObjectCall.request, WireStore.handle, Server.once]
  rw [Server.version] at hBound
  dsimp only
  generalize hEntry : server key = entry at hSealed hBound
  generalize hBlob : store (Crypto.obfuscateKey cipher key) = blob at hSealed
  cases hSealed with
  | absent => exact ⟨hRepresents, rfl⟩
  | held nonce' text current =>
    dsimp only at hBound ⊢
    by_cases hSame : current = version
    · rw [if_pos hSame, if_pos (congrArg Int64.ofNat hSame)]
      exact ⟨hRepresents.update hKeys hKey .absent, rfl⟩
    · rw [if_neg hSame, if_neg fun h => hSame ((ofNat_inj (by omega) hVersion).mp h)]
      refine ⟨hRepresents, ?_⟩
      rw [ObjectCall.read, VssWireClient.readWritten, parseError_encoded]
      rfl

theorem Server.once_heard (server : Server) (request : Request) :
    (server.once request).2.heard = some (server.once request).2 := by
  cases hAnswer : (server.once request).2 with
  | failed =>
    cases request with
    | put key value version =>
      rw [Server.once] at hAnswer
      split at hAnswer <;> cases hAnswer
    | get key =>
      rw [Server.once.eq_def] at hAnswer
      dsimp only at hAnswer
      split at hAnswer <;> cases hAnswer
    | delete key version =>
      rw [Server.once.eq_def] at hAnswer
      dsimp only at hAnswer
      split at hAnswer
      · split at hAnswer <;> cases hAnswer
      · cases hAnswer
  | putOk | deleteOk | found | missing | conflict => rfl

theorem carries_call (hKeys : Set.InjOn cipher.hmac keys) (call : ObjectCall) (hKey : call.key ∈ keys)
    (hVersion : call.version < 2 ^ 63) :
    Carries cipher format view keys (fun server => server.once (call.plain view)) (call.request client cipher nonce)
      (fun outcome => (call.read cipher format view outcome).heard) where
  silent outcome h := read_silent format call h
  version_le server key := server.once_version_le _ key
  handled server store hRepresents hRoom := by
    have hHandled : Represents cipher view keys (server.once (call.plain view)).1
          (store.handle format (call.request client cipher nonce)).1 ∧
        call.read cipher format view (.ok (store.handle format (call.request client cipher nonce)).2) =
          (server.once (call.plain view)).2 := by
      cases call with
      | put key value version => exact handled_put client format nonce hKeys hRepresents hRoom hKey value hVersion
      | get key => exact handled_get client format nonce hRepresents hRoom hKey
      | delete key version => exact handled_delete client format nonce hKeys hRepresents hRoom hKey hVersion
    refine ⟨hHandled.1, ?_⟩
    rw [hHandled.2]
    exact server.once_heard _

/-- A call of the wire client, with its retries and with whatever other devices write meanwhile, is one
request of the store: what the server has in the end are the ciphertexts of what it would have, had the
request been delivered at one moment, and the answer is the one given then. -/
theorem perform_refines (view : List UInt8 → Bytes) (keys : Set String) (hKeys : Set.InjOn cipher.hmac keys)
    (server : Server) (net : Net) (hRepresents : Represents cipher view keys server net.store) (call : ObjectCall)
    (hKey : call.key ∈ keys) (hVersion : call.version < 2 ^ 63)
    (hFair : Fair format view keys (call.plain view).Allows net.moments)
    (hRoom : Room keys (steps net.moments) server) :
    ∃ seen before after delivery,
      net.moments = seen ++ (client.perform cipher format view nonce call net).2.moments ∧
      seen.length ≤ max 1 client.retry.maxAttempts ∧
      plainChanges view seen = before ++ after ∧
      (client.perform cipher format view nonce call net).1 =
        ((before.foldl Server.foreign server).deliver (call.plain view) delivery).2 ∧
      Represents cipher view keys
        (after.foldl Server.foreign ((before.foldl Server.foreign server).deliver (call.plain view) delivery).1)
        (client.perform cipher format view nonce call net).2.store := by
  rw [ObjectCall.perform_eq]
  obtain ⟨seen, now, hSplit, hSeen, ⟨before, after, mid, hChanges, hHandled, rfl⟩, hAfter⟩ :=
    postObject_comes client (carries_call client format nonce hKeys call hKey hVersion) (oneShot_once _) hKeys hRepresents
      hFair hRoom call.endpoint
  obtain ⟨delivery, hDelivery⟩ := deliver_of_handled hHandled
  refine ⟨seen, before, after, delivery, hSplit, hSeen, hChanges, ?_, ?_⟩
  · rw [hDelivery]
    exact (Answer.getD_heard _).symm
  · rw [hDelivery]
    exact hAfter

end

/-! ## Transactions -/

theorem Server.putMany_version_le (server : Server) (items : List (String × Bytes × Nat)) (key : String) :
    (server.putMany items).1.version key ≤ server.version key + 1 := by
  rw [Server.putMany]
  split
  · next hCurrent =>
    have hAll : ∀ item ∈ items, server.version item.1 = item.2.2 :=
      fun item hItem => beq_iff_eq.mp (List.all_eq_true.mp hCurrent item hItem)
    clear hCurrent
    generalize hLimit : server.version key + 1 = limit
    have hStart : server.version key ≤ limit := by omega
    have hItems : ∀ item ∈ items, item.1 = key → item.2.2 + 1 ≤ limit := by
      rintro item hItem rfl
      rw [← hAll item hItem, hLimit]
    clear hAll hLimit
    induction items generalizing server with
    | nil => exact hStart
    | cons item rest ih =>
      obtain ⟨hHere, hRest⟩ := List.forall_mem_cons.mp hItems
      refine ih (server.putItem item) ?_ hRest
      rw [Server.putItem, Server.version_update]
      split
      · next hKey => exact hHere hKey.symm
      · exact hStart
  · exact Nat.le_succ _

/-- An item of a transaction, with the nonce it is encrypted under. -/
structure PutItem where
  nonce : Nonce
  key : String
  value : List UInt8
  version : Nat

def PutItem.plain (view : List UInt8 → Bytes) (item : PutItem) : String × Bytes × Nat :=
  (item.key, view item.value, item.version)

def PutItem.wire (item : PutItem) : Nonce × String × List UInt8 × Int64 :=
  (item.nonce, item.key, item.value, .ofNat item.version)

/-- Whether the transaction was accepted, where the result tells. -/
def acceptedOf : Except VssError Unit → Option Bool
  | .ok () => some true
  | .error (.conflict _) => some false
  | .error _ => none

section

variable {cipher : Cipher} {view : List UInt8 → Bytes} {keys : Set String} (client : VssWireClient)
  (format : ObjectFormat)

def itemsRequest (cipher : Cipher) (items : List PutItem) : ObjectRequest :=
  .putObjects ⟨client.storeId, none, (items.map PutItem.wire).map fun (nonce, plaintextKey, value, version) =>
    VssWireClient.keyValue cipher nonce plaintextKey value version, []⟩

def readItems : Except VssError (UInt16 × List UInt8) → Except VssError Unit
  | .ok (status, payload) => VssWireClient.readWritten format status payload
  | .error e => .error e

theorem putObjects_eq (items : List PutItem) (net : Net) :
    client.putObjects cipher format (items.map PutItem.wire) net =
      (readItems format (client.postObject cipher format "putObjects" (itemsRequest client cipher items) net).1,
       (client.postObject cipher format "putObjects" (itemsRequest client cipher items) net).2) := by
  rw [VssWireClient.putObjects, itemsRequest]
  rcases client.postObject cipher format "putObjects" _ net with ⟨e | ⟨status, payload⟩, after⟩ <;> rfl

theorem transact_items (hKeys : Set.InjOn cipher.hmac keys) {server : Server} {store : WireStore}
    (hRepresents : Represents cipher view keys server store) (hRoom : Room keys 1 server) (items : List PutItem)
    (hItems : ∀ item ∈ items, item.key ∈ keys ∧ item.version < 2 ^ 63) :
    Represents cipher view keys (server.putMany (items.map (PutItem.plain view))).1
        (store.transact ((items.map PutItem.wire).map fun (nonce, plaintextKey, value, version) =>
          VssWireClient.keyValue cipher nonce plaintextKey value version)).1 ∧
      (store.transact ((items.map PutItem.wire).map fun (nonce, plaintextKey, value, version) =>
        VssWireClient.keyValue cipher nonce plaintextKey value version)).2 =
          (server.putMany (items.map (PutItem.plain view))).2 := by
  have hAll : (((items.map PutItem.wire).map fun (nonce, plaintextKey, value, version) =>
      VssWireClient.keyValue cipher nonce plaintextKey value version).all fun kv => store.version kv.key == kv.version) =
        (items.map (PutItem.plain view)).all fun item => server.version item.1 == item.2.2 := by
    induction items with
    | nil => rfl
    | cons item rest ih =>
      obtain ⟨⟨hKey, hVersion⟩, hRest⟩ := List.forall_mem_cons.mp hItems
      rw [List.map_cons, List.map_cons, List.map_cons, List.all_cons, List.all_cons, ih hRest]
      exact congrArg (· && _) (current_eq hRepresents hRoom hKey hVersion)
  rw [WireStore.transact, Server.putMany, hAll]
  split
  · refine ⟨?_, rfl⟩
    clear * - hKeys hRepresents hItems
    induction items generalizing server store with
    | nil => exact hRepresents
    | cons item rest ih =>
      obtain ⟨⟨hKey, -⟩, hRest⟩ := List.forall_mem_cons.mp hItems
      refine ih (hRepresents.update hKeys hKey ?_) hRest
      have hVersion : Int64.ofNat item.version + 1 = Int64.ofNat (item.version + 1) := by
        rw [Int64.ofNat_add]
        rfl
      change Sealed cipher view (some (view item.value, item.version + 1))
        (some (Crypto.encryptWithNonce cipher item.nonce item.value, Int64.ofNat item.version + 1))
      rw [hVersion]
      exact .held ..
  · exact ⟨hRepresents, rfl⟩

theorem carries_items (hKeys : Set.InjOn cipher.hmac keys) (items : List PutItem)
    (hItems : ∀ item ∈ items, item.key ∈ keys ∧ item.version < 2 ^ 63) :
    Carries cipher format view keys (fun server => server.putMany (items.map (PutItem.plain view)))
      (itemsRequest client cipher items) (fun outcome => acceptedOf (readItems format outcome)) where
  version_le server key := server.putMany_version_le _ key
  silent outcome h := by
    rcases outcome with e | ⟨status, payload⟩
    · obtain ⟨message, rfl⟩ := h
      rfl
    · obtain ⟨hFailed, -, hOther⟩ := h
      rw [readItems, VssWireClient.readWritten, hFailed]
      cases hError : parseError format.toWireFormat status payload with
      | conflict message => exact absurd hError (hOther message)
      | invalidRequest | auth | noSuchKey | internalServer | http | network | tooManyListPages => rfl
  handled server store hRepresents hRoom := by
    obtain ⟨hAfter, hAnswer⟩ := transact_items hKeys hRepresents hRoom items hItems
    rw [itemsRequest, WireStore.handle]
    dsimp only
    rw [← hAnswer]
    generalize store.transact ((items.map PutItem.wire).map fun (nonce, plaintextKey, value, version) =>
      VssWireClient.keyValue cipher nonce plaintextKey value version) = transacted at hAfter
    obtain ⟨after, accepted⟩ := transacted
    cases accepted with
    | true =>
      refine ⟨hAfter, ?_⟩
      rw [readItems, VssWireClient.readWritten, isSuccess_ok]
      rfl
    | false =>
      refine ⟨hAfter, ?_⟩
      rw [readItems, VssWireClient.readWritten, parseError_encoded]
      rfl

theorem putMany_handled {items : List (String × Bytes × Nat)} {server after : Server} {accepted : Option Bool}
    (h : Handled (fun server : Server => server.putMany items) server after accepted) :
    after = server ∧ accepted = none ∨
      after = (server.putMany items).1 ∧ (accepted = some true → (server.putMany items).2 = true) := by
  cases h with
  | unheard => exact .inl ⟨rfl, rfl⟩
  | lost => exact .inr ⟨rfl, nofun⟩
  | answered => exact .inr ⟨rfl, Option.some.inj⟩
  | repeated =>
    right
    by_cases hCurrent : (items.all fun item => server.version item.1 == item.2.2) = true
    · have hAccepted : (server.putMany items).2 = true := by rw [Server.putMany, if_pos hCurrent]
      refine ⟨?_, fun _ => hAccepted⟩
      rcases oneShot_putMany items server with hSame | ⟨later, hSettled⟩
      · exact congrArg (fun server : Server => (server.putMany items).1) hSame
      · have hNow := congrArg Prod.fst hSettled.now
        exact hNow
    · have hSame : server.putMany items = (server, false) := by rw [Server.putMany, if_neg hCurrent]
      have hAgain : (server.putMany items).1.putMany items = server.putMany items :=
        congrArg (fun result => Server.putMany result.1 items) hSame
      rw [hAgain]
      exact ⟨rfl, Option.some.inj⟩

/-- The migration's batch, with its retries and with whatever other devices write meanwhile, lands as a
whole at one moment or not at all, and a success is only reported for one that has landed. -/
theorem putObjects_atomic (view : List UInt8 → Bytes) (keys : Set String) (hKeys : Set.InjOn cipher.hmac keys)
    (server : Server) (net : Net) (hRepresents : Represents cipher view keys server net.store) (items : List PutItem)
    (hItems : ∀ item ∈ items, item.key ∈ keys ∧ item.version < 2 ^ 63)
    (hFair : Fair format view keys (allowsItems (items.map (PutItem.plain view))) net.moments)
    (hRoom : Room keys (steps net.moments) server) :
    ∃ seen before after start,
      net.moments = seen ++ (client.putObjects cipher format (items.map PutItem.wire) net).2.moments ∧
      seen.length ≤ max 1 client.retry.maxAttempts ∧
      plainChanges view seen = before ++ after ∧ start = before.foldl Server.foreign server ∧
      ((Represents cipher view keys (after.foldl Server.foreign start)
          (client.putObjects cipher format (items.map PutItem.wire) net).2.store ∧
        (client.putObjects cipher format (items.map PutItem.wire) net).1 ≠ .ok ()) ∨
       (Represents cipher view keys (after.foldl Server.foreign (start.putMany (items.map (PutItem.plain view))).1)
          (client.putObjects cipher format (items.map PutItem.wire) net).2.store ∧
        ((client.putObjects cipher format (items.map PutItem.wire) net).1 = .ok () →
          (start.putMany (items.map (PutItem.plain view))).2 = true))) := by
  rw [putObjects_eq]
  obtain ⟨seen, now, hSplit, hSeen, ⟨before, after, mid, hChanges, hHandled, rfl⟩, hAfter⟩ :=
    postObject_comes client (carries_items client format hKeys items hItems) (oneShot_putMany _) hKeys hRepresents hFair
      hRoom "putObjects"
  refine ⟨seen, before, after, _, hSplit, hSeen, hChanges, rfl, ?_⟩
  rcases putMany_handled hHandled with ⟨rfl, hNone⟩ | ⟨rfl, hTrue⟩
  · refine .inl ⟨hAfter, fun hOk => ?_⟩
    dsimp only at hOk
    rw [hOk] at hNone
    cases hNone
  · refine .inr ⟨hAfter, fun hOk => hTrue ?_⟩
    dsimp only at hOk
    rw [hOk]
    rfl

end

/-! ## Inputs of the examples -/

/-- A cipher that hides nothing: the tag is all zeros, and the HMAC is the name. -/
def plainCipher : Cipher where
  hmac key := utf8 key.toList
  encrypt _ plaintext := plaintext ++ List.replicate tagLen 0
  decrypt _ blob := some (blob.take (blob.length - tagLen))
  decrypt_encrypt _ plaintext := by simp
  tagLen_le _ plaintext := by simp

def sampleNonce : Nonce := Vector.replicate nonceLen 7

def sampleClient : VssWireClient := ⟨"https://zinqq.app/api/vss-proxy", "store", .default⟩

/-- An answer is lost, another device writes the key, and the second transmission is answered. -/
def contestedNet : Net where
  store := fun _ => none
  moments := [⟨[], .lost "timed out"⟩, ⟨[⟨channelManagerVssKey, some ([9], sampleNonce)⟩], .answered⟩]

theorem holds_empty (keys : Set String) : Represents plainCipher Bytes.raw keys (fun _ => none) fun _ => none :=
  fun _ _ => .absent

theorem room_contestedNet : Room {channelManagerVssKey} (steps contestedNet.moments) fun _ => none := by
  intro key _
  change 0 + steps contestedNet.moments < 2 ^ 63
  decide

theorem perform_refines_contestedNet :
    ∃ seen before after delivery,
      contestedNet.moments = seen ++ (sampleClient.perform plainCipher vssFormat .raw sampleNonce
        (.put channelManagerVssKey [1] 0) contestedNet).2.moments ∧
      seen.length ≤ 3 ∧
      plainChanges .raw seen = before ++ after ∧
      (sampleClient.perform plainCipher vssFormat .raw sampleNonce (.put channelManagerVssKey [1] 0) contestedNet).1 =
        ((before.foldl Server.foreign (fun _ => none)).deliver (.put channelManagerVssKey (.raw [1]) 0) delivery).2 ∧
      Represents plainCipher .raw {channelManagerVssKey}
        (after.foldl Server.foreign
          ((before.foldl Server.foreign (fun _ => none)).deliver (.put channelManagerVssKey (.raw [1]) 0) delivery).1)
        (sampleClient.perform plainCipher vssFormat .raw sampleNonce (.put channelManagerVssKey [1] 0)
          contestedNet).2.store := by
  refine perform_refines sampleClient vssFormat sampleNonce .raw {channelManagerVssKey} (Set.injOn_singleton _ _)
    (fun _ => none) contestedNet (holds_empty _) (.put channelManagerVssKey [1] 0) rfl (by decide) ?_ room_contestedNet
  intro moment hMoment
  simp only [contestedNet, List.mem_cons, List.not_mem_nil, or_false] at hMoment
  rcases hMoment with rfl | rfl
  · exact ⟨trivial, nofun⟩
  · refine ⟨trivial, fun change hChange => ?_⟩
    rw [List.mem_singleton.mp hChange]
    exact ⟨rfl, fun _ => rfl⟩

/-- The manager is on the server, and not yet the list of peers. -/
def landingServer : Server :=
  Function.update (fun _ => none) channelManagerVssKey (some (.raw [5], 2))

/-- An answer is lost, another device writes the manager, and the second transmission finds the versions that the
batch names. -/
def landingNet : Net where
  store := Function.update (fun _ => none) (Crypto.obfuscateKey plainCipher channelManagerVssKey)
    (some (Crypto.encryptWithNonce plainCipher sampleNonce [5], 2))
  moments := [⟨[], .lost "timed out"⟩, ⟨[⟨channelManagerVssKey, some ([9], sampleNonce)⟩], .answered⟩]

def landingItems : List PutItem :=
  [⟨sampleNonce, channelManagerVssKey, [1], 3⟩, ⟨sampleNonce, knownPeersVssKey, [2], 0⟩]

theorem represents_landingNet :
    Represents plainCipher .raw {channelManagerVssKey, knownPeersVssKey} landingServer landingNet.store := by
  rintro key (rfl | rfl)
  · exact .held sampleNonce [5] 2
  · exact .absent

theorem fair_landingNet :
    Fair vssFormat .raw {channelManagerVssKey, knownPeersVssKey} (allowsItems (landingItems.map (PutItem.plain .raw)))
      landingNet.moments := by
  intro moment hMoment
  simp only [landingNet, List.mem_cons, List.not_mem_nil, or_false] at hMoment
  rcases hMoment with rfl | rfl
  · exact ⟨trivial, nofun⟩
  · refine ⟨trivial, fun change hChange => ?_⟩
    rw [List.mem_singleton.mp hChange]
    exact ⟨.inl rfl, fun _ => rfl⟩

theorem room_landingNet : Room {channelManagerVssKey, knownPeersVssKey} (steps landingNet.moments) landingServer := by
  rintro key (rfl | rfl)
  · change 2 + steps landingNet.moments < 2 ^ 63
    decide
  · change 0 + steps landingNet.moments < 2 ^ 63
    decide

theorem putObjects_atomic_landingNet :
    (sampleClient.putObjects plainCipher vssFormat (landingItems.map PutItem.wire) landingNet).1 = .ok () ∧
    ∃ seen before after start,
      landingNet.moments =
        seen ++ (sampleClient.putObjects plainCipher vssFormat (landingItems.map PutItem.wire) landingNet).2.moments ∧
      seen.length ≤ 3 ∧ plainChanges .raw seen = before ++ after ∧ start = before.foldl Server.foreign landingServer ∧
      Represents plainCipher .raw {channelManagerVssKey, knownPeersVssKey}
        (after.foldl Server.foreign (start.putMany (landingItems.map (PutItem.plain .raw))).1)
        (sampleClient.putObjects plainCipher vssFormat (landingItems.map PutItem.wire) landingNet).2.store ∧
      (start.putMany (landingItems.map (PutItem.plain .raw))).2 = true := by
  have hOk : (sampleClient.putObjects plainCipher vssFormat (landingItems.map PutItem.wire) landingNet).1 = .ok () := rfl
  have hKeys : Set.InjOn plainCipher.hmac {channelManagerVssKey, knownPeersVssKey} :=
    Set.injOn_pair.mpr fun hSame => absurd hSame (by decide)
  have hItems : ∀ item ∈ landingItems,
      item.key ∈ ({channelManagerVssKey, knownPeersVssKey} : Set String) ∧ item.version < 2 ^ 63 := by
    intro item hItem
    simp only [landingItems, List.mem_cons, List.not_mem_nil, or_false] at hItem
    rcases hItem with rfl | rfl
    · exact ⟨.inl rfl, by decide⟩
    · exact ⟨.inr rfl, by decide⟩
  obtain ⟨seen, before, after, start, hSplit, hSeen, hChanges, hStart, hNone | ⟨hLanded, hAll⟩⟩ :=
    putObjects_atomic sampleClient vssFormat .raw {channelManagerVssKey, knownPeersVssKey} hKeys landingServer landingNet
      represents_landingNet landingItems hItems fair_landingNet room_landingNet
  · exact absurd hOk hNone.2
  · exact ⟨hOk, seen, before, after, start, hSplit, hSeen, hChanges, hStart, hLanded, hAll hOk⟩

end WalletCore.Vss
