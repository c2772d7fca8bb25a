import Mathlib.Logic.Function.Basic
import WalletCore.Lib.Json

/-! # The remote store

One namespace of the server: a value and a version under each key, an absent key counting
as version 0. A put or a delete takes effect when the version it names is the current one.
A request takes effect before its answer is seen, or never.
-/

namespace WalletCore.Vss

open Lib

abbrev Server := String → Option (Bytes × Nat)

def Server.version (server : Server) (key : String) : Nat :=
  match server key with
  | some (_, version) => version
  | none => 0

inductive Request where
  | put (key : String) (value : Bytes) (version : Nat)
  | get (key : String)
  | delete (key : String) (version : Nat)
deriving DecidableEq

def Request.key : Request → String
  | .put key .. | .get key | .delete key _ => key

def Request.isWrite : Request → Bool
  | .get _ => false
  | _ => true

inductive Answer where
  | putOk (version : Nat)
  | deleteOk
  | found (value : Bytes) (version : Nat)
  | missing
  | conflict
  | failed
deriving DecidableEq

/-- What becomes of a request: `resent` is a first transmission whose answer is lost,
followed by the wire client's own retry of the same request. -/
inductive Delivery where
  | ok
  | failed
  | lost
  | resent
deriving DecidableEq

namespace Server

def once (server : Server) : Request → Server × Answer
  | .put key value version =>
    if server.version key = version then
      (Function.update server key (some (value, version + 1)), .putOk (version + 1))
    else (server, .conflict)
  | .get key =>
    match server key with
    | some (value, version) => (server, .found value version)
    | none => (server, .missing)
  | .delete key version =>
    match server key with
    | some (_, current) =>
      if current = version then (Function.update server key none, .deleteOk) else (server, .conflict)
    | none => (server, .deleteOk)

def deliver (server : Server) (request : Request) : Delivery → Server × Answer
  | .ok => server.once request
  | .failed => (server, .failed)
  | .lost => ((server.once request).1, .failed)
  | .resent => (server.once request).1.once request

/-! ## What a request can do -/

theorem version_update (server : Server) (key : String) (entry : Option (Bytes × Nat)) (key' : String) :
    version (Function.update server key entry) key' =
      if key' = key then (entry.map Prod.snd).getD 0 else server.version key' := by
  by_cases h : key' = key
  · subst h
    rw [version, Function.update_self, if_pos rfl]
    cases entry <;> rfl
  · rw [version, Function.update_of_ne h, if_neg h, version]

theorem version_of_some {server : Server} {key : String} {value : Bytes} {version : Nat}
    (h : server key = some (value, version)) : server.version key = version := by
  rw [Server.version, h]

/-- The one change a request can make to the server. -/
inductive Effect (server : Server) : Request → Server → Prop
  | none (request : Request) : Effect server request server
  | put (key : String) (value : Bytes) (version : Nat) (hVersion : server.version key = version) :
    Effect server (.put key value version) (Function.update server key (some (value, version + 1)))
  | delete (key : String) (value : Bytes) (version : Nat) (hEntry : server key = some (value, version)) :
    Effect server (.delete key version) (Function.update server key none)

theorem once_effect (server : Server) (request : Request) : Effect server request (server.once request).1 := by
  cases request with
  | put key value version =>
    rw [once]
    split
    · exact .put key value version (by assumption)
    · exact .none _
  | get key =>
    rw [once]
    split <;> exact .none _
  | delete key version =>
    rw [once]
    split
    · rename_i value current hEntry
      split
      · rename_i hCurrent
        subst hCurrent
        exact .delete key value current hEntry
      · exact .none _
    · exact .none _

/-- A second transmission of the same request changes nothing more. -/
theorem once_once (server : Server) (request : Request) :
    ((server.once request).1.once request).1 = (server.once request).1 := by
  cases request with
  | put key value version =>
    by_cases h : server.version key = version
    · simp [once, h, version_update]
    · simp [once, h]
  | get key => cases h : server key <;> simp [once, h]
  | delete key version =>
    cases h : server key with
    | none => simp [once, h]
    | some entry =>
      by_cases hVersion : entry.2 = version
      · simp [once, h, hVersion]
      · simp [once, h, hVersion]

theorem deliver_effect (server : Server) (request : Request) (delivery : Delivery) :
    Effect server request (server.deliver request delivery).1 := by
  cases delivery with
  | ok => exact once_effect server request
  | failed => exact .none request
  | lost => exact once_effect server request
  | resent =>
    rw [deliver, once_once]
    exact once_effect server request

theorem deliver_other (server : Server) {request : Request} {key : String} (hKey : key ≠ request.key)
    (delivery : Delivery) : (server.deliver request delivery).1 key = server key := by
  have hEffect := server.deliver_effect request delivery
  generalize (server.deliver request delivery).1 = after at hEffect ⊢
  cases hEffect with
  | none => rfl
  | put => exact Function.update_of_ne hKey ..
  | delete => exact Function.update_of_ne hKey ..

/-- What an answer says about the server it leaves behind. -/
def Answered (server : Server) : Request → Answer → Prop
  | .put key value version, .putOk new => new = version + 1 ∧ server key = some (value, new)
  | .put key _ version, .conflict => server.version key ≠ version
  | .put .., .failed => True
  | .get key, .found value version => server key = some (value, version)
  | .get key, .missing => server key = none
  | .get _, .failed => True
  | .delete key _, .deleteOk => server key = none
  | .delete .., .conflict => True
  | .delete .., .failed => True
  | _, _ => False

theorem once_answered (server : Server) (request : Request) :
    Answered (server.once request).1 request (server.once request).2 := by
  cases request with
  | put key value version =>
    by_cases h : server.version key = version
    · simp [once, h, Answered]
    · simp [once, h, Answered]
  | get key => cases h : server key <;> simp [once, h, Answered]
  | delete key version =>
    cases h : server key with
    | none => simp [once, h, Answered]
    | some entry =>
      by_cases hVersion : entry.2 = version
      · simp [once, h, hVersion, Answered]
      · simp [once, h, hVersion, Answered]

theorem deliver_answered (server : Server) (request : Request) (delivery : Delivery) :
    Answered (server.deliver request delivery).1 request (server.deliver request delivery).2 := by
  have hFailed : ∀ server : Server, Answered server request .failed := by
    intro server
    cases request <;> trivial
  cases delivery with
  | ok => exact once_answered server request
  | failed => exact hFailed _
  | lost => exact hFailed _
  | resent => exact once_answered _ request

end Server

end WalletCore.Vss
