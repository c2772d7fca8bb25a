import Mathlib.Data.List.Infix
import WalletCore.Wallet.Bdk

/-! # Broadcasting

A broadcast either goes through, or the server answers with an error. Some error texts are taken to
mean that the network knows the transaction already.
-/

namespace WalletCore.Sweep

open Wallet

/-! ## Error texts -/

/-- Two letters outside ASCII have ASCII in their lower case. The others stay outside it and are left
alone here: no text below has one. -/
def lowerChar (c : Char) : List Char :=
  if c = '\u212A' then ['k'] else if c = '\u0130' then ['i', '\u0307'] else [c.toLower]

def toLowercase (message : String) : List Char := message.toList.flatMap lowerChar

def benignTexts : List String := [
  "already in mempool",
  "already in the mempool",
  "already in block chain",
  "already known",
  "already confirmed",
  "insufficient fee, rejecting replacement",
  "outputs already in utxo set",
  "bad txns inputs missingorspent"]

/-- The two RPC codes are looked for before the hyphens are replaced. -/
def broadcastErrorIsBenign (message : String) : Bool :=
  let raw := toLowercase message
  let words := raw.map fun c => if c = '-' then ' ' else c
  benignTexts.any (fun benign => benign.toList <:+: words) || "-25".toList <:+: raw || "-27".toList <:+: raw

/-! ## Outcomes -/

/-- What the server answers; an error's `display` is the text it is logged with. -/
inductive BroadcastAnswer where
  | ok
  | httpResponse (message display : String)
  | otherError (display : String)
  | timeout (display : String)
deriving DecidableEq

inductive BroadcastOutcome where
  | accepted
  | alreadyKnown
  | failed (detail : String)
deriving DecidableEq

def BroadcastAnswer.benign : BroadcastAnswer → Bool
  | .httpResponse message _ => broadcastErrorIsBenign message
  | _ => false

def broadcastTransaction : BroadcastAnswer → BroadcastOutcome
  | .ok => .accepted
  | .httpResponse message display => if broadcastErrorIsBenign message then .alreadyKnown else .failed display
  | .otherError display => .failed display
  | .timeout display => .failed ("timed out: " ++ display)

theorem broadcastTransaction_accepted {answer : BroadcastAnswer} (h : broadcastTransaction answer = .accepted) :
    answer = .ok := by
  cases answer with
  | ok => rfl
  | httpResponse message display =>
    rw [broadcastTransaction] at h
    split at h <;> cases h
  | otherError display => cases h
  | timeout display => cases h

theorem broadcastTransaction_alreadyKnown {answer : BroadcastAnswer} :
    broadcastTransaction answer = .alreadyKnown ↔ answer.benign = true := by
  cases answer with
  | httpResponse message display =>
    rw [broadcastTransaction, BroadcastAnswer.benign]
    split <;> simp_all
  | _ => simp [broadcastTransaction, BroadcastAnswer.benign]

/-! ## Fee sanity -/

def feeSanityMultiplier : Nat := 5

/-- The ceiling for an estimate of the three-block rate. -/
def feeSanityMaxSatPerKw (urgentSatPerKw : Nat) : Nat := urgentSatPerKw * feeSanityMultiplier

structure FeeSanityError where
  effectiveSatPerKw : Nat
  maxSatPerKw : Nat
deriving DecidableEq

def FeeSanityError.display (e : FeeSanityError) : String :=
  "fee-sanity refusal: effective rate " ++ Nat.repr e.effectiveSatPerKw ++
    " sat/kW exceeds the 5x-of-3-block ceiling " ++ Nat.repr e.maxSatPerKw ++ " sat/kW"

/-- The product saturates; a transaction without weight passes. -/
def checkFeeSanity (feeSats txWeightWu maxSatPerKw : Nat) : Except FeeSanityError Unit :=
  if txWeightWu = 0 then .ok ()
  else
    let effectiveSatPerKw := min (feeSats * 1000) (2 ^ 64 - 1) / txWeightWu
    if maxSatPerKw < effectiveSatPerKw then .error ⟨effectiveSatPerKw, maxSatPerKw⟩ else .ok ()

end WalletCore.Sweep
