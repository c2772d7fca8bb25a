import Mathlib.Algebra.Ring.Nat
import WalletCore.Restore.Plan
import WalletCore.Wallet.Onchain

/-! # Spendable outputs

A descriptor says how an output of a closed channel is spent. It is stored as the hex of its
serialization. The libraries that read, spend and sign are parameters.
-/

namespace WalletCore.Sweep

open Restore (hexStr hexByte)
open Wallet hiding Psbt

/-! ## Hex -/

/-- A text that is cut inside a character ends the program. -/
inductive DecodedHex where
  | bytes (bytes : List UInt8)
  | invalid
  | panics
deriving DecidableEq

def hexDigit (c : Char) : Option Nat :=
  if '0' ≤ c ∧ c ≤ '9' then some (c.toNat - '0'.toNat)
  else if 'a' ≤ c ∧ c ≤ 'f' then some (c.toNat - 'a'.toNat + 10)
  else if 'A' ≤ c ∧ c ≤ 'F' then some (c.toNat - 'A'.toNat + 10)
  else none

/-- A number of two places may also be one digit after a plus. -/
def hexPair (first second : Char) : Option UInt8 := do
  let low ← hexDigit second
  if first = '+' then return .ofNat low
  let high ← hexDigit first
  return .ofNat (high * 16 + low)

/-- Two bytes of the text at a time, up to the first that are no number. -/
def decodePairs : List Char → DecodedHex
  | [] => .bytes []
  | [c] => if c.utf8Size = 2 then .invalid else .panics
  | first :: second :: rest =>
    if first.utf8Size = 2 then .invalid
    else if first.utf8Size ≠ 1 ∨ second.utf8Size ≠ 1 then .panics
    else
      match hexPair first second with
      | none => .invalid
      | some byte =>
        match decodePairs rest with
        | .bytes bytes => .bytes (byte :: bytes)
        | failure => failure

def decodeHex (hex : String) : DecodedHex :=
  if (hex.toList.map Char.utf8Size).sum % 2 = 1 then .invalid else decodePairs hex.toList

theorem hexDigit_digitChar {n : Nat} (h : n < 16) :
    hexDigit (Nat.digitChar n) = some n ∧ Nat.digitChar n ≠ '+' ∧ (Nat.digitChar n).utf8Size = 1 := by
  have hAll : ∀ n < 16, hexDigit (Nat.digitChar n) = some n ∧ Nat.digitChar n ≠ '+' ∧
      (Nat.digitChar n).utf8Size = 1 := by decide
  exact hAll n h

theorem decodePairs_hexBytes (bytes : List UInt8) : decodePairs (bytes.flatMap hexByte) = .bytes bytes := by
  induction bytes with
  | nil => rfl
  | cons byte rest ih =>
    have hByte := byte.toNat_lt
    obtain ⟨hHigh, hPlus, hHighSize⟩ := hexDigit_digitChar (show byte.toNat / 16 < 16 by omega)
    obtain ⟨hLow, -, hLowSize⟩ := hexDigit_digitChar (show byte.toNat % 16 < 16 by omega)
    have hPair : hexPair (Nat.digitChar (byte.toNat / 16)) (Nat.digitChar (byte.toNat % 16)) = some byte := by
      simp only [hexPair, hHigh, hLow, Option.bind_eq_bind, Option.bind_some, if_neg hPlus]
      rw [show byte.toNat / 16 * 16 + byte.toNat % 16 = byte.toNat by omega, UInt8.ofNat_toNat]
      rfl
    rw [List.flatMap_cons]
    change decodePairs (_ :: _ :: rest.flatMap hexByte) = _
    simp [decodePairs, hHighSize, hLowSize, hPair, ih]

theorem even_sum_utf8Size (bytes : List UInt8) : ((bytes.flatMap hexByte).map Char.utf8Size).sum % 2 = 0 := by
  induction bytes with
  | nil => rfl
  | cons byte rest ih =>
    have hByte := byte.toNat_lt
    obtain ⟨-, -, hHighSize⟩ := hexDigit_digitChar (show byte.toNat / 16 < 16 by omega)
    obtain ⟨-, -, hLowSize⟩ := hexDigit_digitChar (show byte.toNat % 16 < 16 by omega)
    rw [List.flatMap_cons, List.map_append, List.sum_append]
    simp only [hexByte, List.map_cons, List.map_nil, hHighSize, hLowSize]
    change (2 + _) % 2 = 0
    omega

theorem decodeHex_hexStr (bytes : List UInt8) : decodeHex (hexStr bytes) = .bytes bytes := by
  rw [decodeHex, hexStr, String.toList_ofList, even_sum_utf8Size, if_neg (by decide)]
  exact decodePairs_hexBytes bytes

/-! ## Descriptors -/

structure LdkOutPoint where
  txid : String
  index : UInt16
deriving DecidableEq

def LdkOutPoint.intoBitcoinOutpoint (outpoint : LdkOutPoint) : OutPoint := ⟨outpoint.txid, outpoint.index.toNat⟩

/-- `signing` holds the fields that only the signer reads. -/
inductive SpendableOutputDescriptor where
  | staticOutput (outpoint : LdkOutPoint) (output : TxOut) (channelKeysId : Option ChannelKeysId)
  | delayedPaymentOutput (outpoint : LdkOutPoint) (output : TxOut) (toSelfDelay : UInt16) (signing : List UInt8)
  | staticPaymentOutput (outpoint : LdkOutPoint) (output : TxOut) (needsCsv1ForSpend : Bool) (signing : List UInt8)
deriving DecidableEq

namespace SpendableOutputDescriptor

def spendableOutpoint : SpendableOutputDescriptor → LdkOutPoint
  | staticOutput outpoint .. | delayedPaymentOutput outpoint .. | staticPaymentOutput outpoint .. => outpoint

def output : SpendableOutputDescriptor → TxOut
  | staticOutput _ output _ | delayedPaymentOutput _ output .. | staticPaymentOutput _ output .. => output

def previousOutput (descriptor : SpendableOutputDescriptor) : OutPoint := descriptor.spendableOutpoint.intoBitcoinOutpoint

end SpendableOutputDescriptor

def outpointKey (outpoint : LdkOutPoint) : String := outpoint.txid ++ ":" ++ Nat.repr outpoint.index.toNat

def descriptorValueSats (descriptor : SpendableOutputDescriptor) : Nat := descriptor.output.value

def descriptorProbeSequence : SpendableOutputDescriptor → Nat
  | .staticOutput .. => 0
  | .delayedPaymentOutput _ _ toSelfDelay _ => toSelfDelay.toNat
  | .staticPaymentOutput _ _ needsCsv1ForSpend _ => if needsCsv1ForSpend then 1 else 0

/-! ## Partially signed transactions -/

structure PsbtInput where
  previousOutput : OutPoint
  sequence : Nat
  witnessUtxo : Option TxOut
deriving DecidableEq

structure SweepPsbt where
  inputs : List PsbtInput
  outputs : List TxOut
deriving DecidableEq

namespace SweepPsbt

def outpoints (psbt : SweepPsbt) : List OutPoint := psbt.inputs.map (·.previousOutput)

def outputSats (psbt : SweepPsbt) : Nat := (psbt.outputs.map (·.value)).sum

/-- Readable when every input carries its output and no more is paid than comes in. -/
def fee (psbt : SweepPsbt) : Option Nat := do
  let funding ← psbt.inputs.mapM (·.witnessUtxo)
  let inputSats := (funding.map (·.value)).sum
  if psbt.outputSats ≤ inputSats then some (inputSats - psbt.outputSats) else none

end SweepPsbt

/-- The libraries that serialize, build, sign and extract. -/
structure Signer where
  read : List UInt8 → Option SpendableOutputDescriptor
  encode : SpendableOutputDescriptor → List UInt8
  spendSpendableOutputs : List SpendableOutputDescriptor → Script → Nat → Option Transaction
  createSpendableOutputsPsbt : List SpendableOutputDescriptor → Script → Nat → Option (SweepPsbt × Nat)
  signSpendableOutputsPsbt : List SpendableOutputDescriptor → SweepPsbt → Option SweepPsbt
  signPsbtTrusted : SweepPsbt → Except String (Bool × SweepPsbt)
  extractTx : SweepPsbt → Option Transaction
  weight : Transaction → Nat

/-- A spend of descriptors spends the output of each of them and nothing else, and signing changes
neither inputs nor outputs. -/
structure Signer.Lawful (signer : Signer) : Prop where
  spends {descriptors : List SpendableOutputDescriptor} {destination : Script} {rate : Nat} {tx : Transaction}
    (h : signer.spendSpendableOutputs descriptors destination rate = some tx) :
    ∀ outpoint, outpoint ∈ tx.inputs ↔ outpoint ∈ descriptors.map (·.previousOutput)
  creates {descriptors : List SpendableOutputDescriptor} {destination : Script} {rate : Nat} {psbt : SweepPsbt}
    {weight : Nat} (h : signer.createSpendableOutputsPsbt descriptors destination rate = some (psbt, weight)) :
    ∀ outpoint, outpoint ∈ psbt.outpoints ↔ outpoint ∈ descriptors.map (·.previousOutput)
  signs {descriptors : List SpendableOutputDescriptor} {psbt signed : SweepPsbt}
    (h : signer.signSpendableOutputsPsbt descriptors psbt = some signed) :
    signed.outpoints = psbt.outpoints ∧ signed.outputs = psbt.outputs
  signsTrusted {psbt signed : SweepPsbt} {finalized : Bool} (h : signer.signPsbtTrusted psbt = .ok (finalized, signed)) :
    signed.outpoints = psbt.outpoints ∧ signed.outputs = psbt.outputs
  extracts {psbt : SweepPsbt} {tx : Transaction} (h : signer.extractTx psbt = some tx) :
    tx.inputs = psbt.outpoints ∧ tx.outputs = psbt.outputs

namespace Signer

variable (signer : Signer)

/-- What spends the whole value to a script, with the sequence the signer expects. -/
def probe (descriptor : SpendableOutputDescriptor) (probeScript : Script) : SweepPsbt where
  inputs := [⟨descriptor.previousOutput, descriptorProbeSequence descriptor, some descriptor.output⟩]
  outputs := [⟨descriptorValueSats descriptor, probeScript⟩]

def descriptorIsUnsignable (descriptor : SpendableOutputDescriptor) (probeScript : Script) : Bool :=
  (signer.signSpendableOutputsPsbt [descriptor] (probe descriptor probeScript)).isNone

/-- The probe never fails for it, wherever it pays. -/
def Signable (descriptor : SpendableOutputDescriptor) : Prop :=
  ∀ probeScript, signer.descriptorIsUnsignable descriptor probeScript = false

def descriptorOf (hex : String) : Option SpendableOutputDescriptor :=
  match decodeHex hex with
  | .bytes bytes => signer.read bytes
  | _ => none

end Signer

/-- One byte stands for a delayed output, two for an output that cannot be signed. -/
def demoSigner : Signer where
  read
    | [n] => some (.delayedPaymentOutput ⟨Nat.repr n.toNat, 0⟩ ⟨100000, [n]⟩ 144 [])
    | [n, m] => some (.staticPaymentOutput ⟨Nat.repr n.toNat, 1⟩ ⟨100000, [n, m]⟩ true [])
    | _ => none
  encode descriptor := descriptor.output.scriptPubkey
  spendSpendableOutputs descriptors destination _ :=
    if descriptors = [] ∨ descriptors.any (·.output.scriptPubkey.length ≠ 1) then none
    else some ⟨"sweep", descriptors.map (·.previousOutput), [⟨99000, destination⟩]⟩
  createSpendableOutputsPsbt descriptors destination _ :=
    some (⟨descriptors.map fun d => ⟨d.previousOutput, descriptorProbeSequence d, some d.output⟩,
      [⟨99000, destination⟩]⟩, 400)
  signSpendableOutputsPsbt descriptors psbt :=
    if descriptors.any (·.output.scriptPubkey.length ≠ 1) then none else some psbt
  signPsbtTrusted psbt := .ok (true, psbt)
  extractTx psbt := some ⟨"subsidized", psbt.outpoints, psbt.outputs⟩
  weight _ := 400

theorem demoSigner_lawful : demoSigner.Lawful where
  spends h := by
    simp only [demoSigner] at h
    split at h
    · cases h
    · cases h
      exact fun _ => Iff.rfl
  creates h := by
    cases h
    intro outpoint
    simp [SweepPsbt.outpoints]
  signs h := by
    simp only [demoSigner] at h
    split at h
    · cases h
    · cases h
      exact ⟨rfl, rfl⟩
  signsTrusted h := by
    cases h
    exact ⟨rfl, rfl⟩
  extracts h := by
    cases h
    exact ⟨rfl, rfl⟩

end WalletCore.Sweep
