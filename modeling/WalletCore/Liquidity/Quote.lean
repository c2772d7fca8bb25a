import Mathlib.Data.List.MinMax
import WalletCore.Lib.StringMap
import WalletCore.Payments.Handlers
import WalletCore.Wallet.Send

/-! # Quotes for a channel on the fly

The provider offers a menu of fees, each entry valid until a time of its own. A quote takes the cheapest
entry the amount fits into; accepting it buys the entry and wraps an invoice around the answer. The invoice
should die before the quote does, since the provider fails what arrives later.
-/

namespace WalletCore.Liquidity

open Lib

/-! ## Errors -/

inductive Lsps2Error where
  | notRunning
  | shutdown
  | connectFailed
  | requestTimeout (phase : String)
  | getInfoFailed (reason : String)
  | buyFailed (reason : String)
  | emptyMenu
  | allParamsExpired
  | amountBelowMinimum (amountMsat minPaymentSizeMsat : UInt64)
  | amountAboveMaximum (amountMsat maxPaymentSizeMsat : UInt64)
  | openingFeeExceedsAmount (openingFeeMsat amountMsat : UInt64)
  | invoiceCreationFailed
  | quoteNotFound
  | quoteAmountMismatch (quotedMsat requestedMsat : UInt64)
  | quoteExpired
deriving DecidableEq

/-! ## Selection -/

structure OpeningFeeParams where
  minFeeMsat : UInt64
  proportional : UInt32
  validUntil : Nat
  minLifetime : UInt32
  maxClientToSelfDelay : UInt32
  minPaymentSizeMsat : UInt64
  maxPaymentSizeMsat : UInt64
  promise : String
deriving DecidableEq

/-- The fee an entry asks for an amount, by the protocol library. -/
abbrev FeeRule := UInt64 → UInt64 → UInt32 → Option UInt64

def tightestMin (valid : List OpeningFeeParams) : Option UInt64 := (valid.map (·.minPaymentSizeMsat)).min?

def widestMax (valid : List OpeningFeeParams) : Option UInt64 := (valid.map (·.maxPaymentSizeMsat)).max?

/-- The entries that are valid and that the amount fits into, with their fees. -/
def candidates (feeRule : FeeRule) (valid : List OpeningFeeParams) (amountMsat : UInt64) :
    List (UInt64 × OpeningFeeParams) :=
  valid.filterMap fun params =>
    if amountMsat < params.minPaymentSizeMsat ∨ params.maxPaymentSizeMsat < amountMsat then none
    else (feeRule amountMsat params.minFeeMsat params.proportional).map fun fee => (fee, params)

/-- The first of the cheapest; its fee must leave something. -/
def selectCheapestValidParams (feeRule : FeeRule) (menu : List OpeningFeeParams) (amountMsat : UInt64)
    (nowUnixSecs : Nat) : Except Lsps2Error (UInt64 × OpeningFeeParams) :=
  if menu.isEmpty then .error .emptyMenu
  else
    let valid := menu.filter fun params => nowUnixSecs < params.validUntil
    match (candidates feeRule valid amountMsat).argmin (·.1.toNat) with
    | some (openingFeeMsat, params) =>
      if amountMsat ≤ openingFeeMsat then .error (.openingFeeExceedsAmount openingFeeMsat amountMsat)
      else .ok (openingFeeMsat, params)
    | none =>
      if valid.isEmpty then .error .allParamsExpired
      else
        match (tightestMin valid).filter (amountMsat < ·), (widestMax valid).filter (· < amountMsat) with
        | some least, _ => .error (.amountBelowMinimum amountMsat least)
        | none, some most => .error (.amountAboveMaximum amountMsat most)
        | none, none => .error .emptyMenu

/-! ## Expiry -/

def invoiceMaxExpirySecs : Nat := 3600

def jitInvoiceFlightMarginSecs : Nat := 30

def jitInvoiceMinExpirySecs : Nat := 60

def quoteFreshnessMarginSecs : Nat := 30

def quoteFreshEnough (validUntilUnix nowUnixSecs : Nat) : Bool := nowUnixSecs + quoteFreshnessMarginSecs ≤ validUntilUnix

/-- Clamped to what is left of the quote. -/
def computeJitInvoiceExpirySecs (validUntilUnix nowUnixSecs : Nat) : Except Lsps2Error Nat :=
  let headroomSecs := validUntilUnix - nowUnixSecs - jitInvoiceFlightMarginSecs
  if headroomSecs < jitInvoiceMinExpirySecs then .error .quoteExpired else .ok (min headroomSecs invoiceMaxExpirySecs)

/-- A clamp that succeeds leaves the margin, and more where the cap applies. -/
theorem computeJitInvoiceExpirySecs_ok {validUntilUnix nowUnixSecs expirySecs : Nat}
    (h : computeJitInvoiceExpirySecs validUntilUnix nowUnixSecs = .ok expirySecs) :
    nowUnixSecs + 90 ≤ validUntilUnix ∧ expirySecs = min (validUntilUnix - nowUnixSecs - 30) 3600 := by
  rw [computeJitInvoiceExpirySecs] at h
  split at h
  · cases h
  · rename_i hHeadroom
    cases h
    rw [jitInvoiceFlightMarginSecs, jitInvoiceMinExpirySecs] at hHeadroom
    refine ⟨?_, rfl⟩
    omega

/-! ## Quotes -/

structure StoredJitQuote where
  amountMsat : UInt64
  openingFeeMsat : UInt64
  params : OpeningFeeParams
deriving DecidableEq

structure JitQuote where
  quoteToken : Nat
  amountMsat : UInt64
  openingFeeMsat : UInt64
  receiveMsat : UInt64
  validUntilUnix : Nat
  freshEnough : Bool
deriving DecidableEq

structure PreparedAccept where
  amountMsat : UInt64
  openingFeeMsat : UInt64
  params : OpeningFeeParams
  expirySecs : Nat
  expiresAtUnix : Nat
deriving DecidableEq

/-- Quotes by their tokens, which are counted up from one and never run out. -/
abbrev PendingQuotes := Nat → Option StoredJitQuote

/-- The token is consumed whatever comes of it. -/
def prepareAccept (quotes : PendingQuotes) (quoteToken : Nat) (amountMsat : UInt64) (nowUnixSecs : Nat) :
    PendingQuotes × Except Lsps2Error PreparedAccept :=
  match quotes quoteToken with
  | none => (quotes, .error .quoteNotFound)
  | some stored =>
    (Function.update quotes quoteToken none,
      if stored.amountMsat ≠ amountMsat then .error (.quoteAmountMismatch stored.amountMsat amountMsat)
      else (computeJitInvoiceExpirySecs stored.params.validUntil nowUnixSecs).map fun expirySecs =>
        ⟨amountMsat, stored.openingFeeMsat, stored.params, expirySecs, nowUnixSecs + expirySecs⟩)

theorem prepareAccept_ok {quotes : PendingQuotes} {quoteToken : Nat} {amountMsat : UInt64} {nowUnixSecs : Nat}
    {prepared : PreparedAccept} (h : (prepareAccept quotes quoteToken amountMsat nowUnixSecs).2 = .ok prepared) :
    ∃ expirySecs, quotes quoteToken = some ⟨amountMsat, prepared.openingFeeMsat, prepared.params⟩ ∧
      computeJitInvoiceExpirySecs prepared.params.validUntil nowUnixSecs = .ok expirySecs ∧
      prepared = ⟨amountMsat, prepared.openingFeeMsat, prepared.params, expirySecs, nowUnixSecs + expirySecs⟩ := by
  rw [prepareAccept] at h
  cases hStored : quotes quoteToken with
  | none =>
    rw [hStored] at h
    cases h
  | some stored =>
    rw [hStored] at h
    simp only at h
    split at h
    · cases h
    · rename_i hAmount
      obtain ⟨storedAmount, fee, params⟩ := stored
      cases hExpiry : computeJitInvoiceExpirySecs params.validUntil nowUnixSecs with
      | error e =>
        rw [hExpiry] at h
        cases h
      | ok expirySecs =>
        rw [hExpiry] at h
        cases h
        have hSame : storedAmount = amountMsat := not_not.mp hAmount
        subst hSame
        exact ⟨expirySecs, rfl, hExpiry, rfl⟩

end WalletCore.Liquidity
