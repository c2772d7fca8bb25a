import WalletCore.Liquidity.Quote

/-! # Accepting a quote

The expiry of the invoice is clamped against the clock when the accept starts. The invoice itself is stamped
after the provider is connected and has answered, and waiting for the connection includes waiting for whoever
else is dialing.
-/

namespace WalletCore.Liquidity

open Lib

/-! ## The connection -/

/-- In milliseconds. -/
def lspConnectTimeout : Nat := 10000

def lsps2RequestTimeout : Nat := 5000

/-- What the wait for the handshake sees: whether the provider is connected some milliseconds in, and by how
much a round takes longer than its sleep. -/
structure Handshake where
  connected : Nat → Bool
  lag : Nat → Nat

/-- The rounds of the wait; the result is the time it took. -/
def Handshake.await (handshake : Handshake) : Nat → Nat → Option Nat
  | 0, _ => none
  | rounds + 1, elapsed =>
    if elapsed < lspConnectTimeout then
      if handshake.connected elapsed then some elapsed
      else handshake.await rounds (elapsed + 50 + handshake.lag elapsed)
    else none

theorem Handshake.await_lt {handshake : Handshake} {rounds elapsed took : Nat}
    (h : handshake.await rounds elapsed = some took) : took < lspConnectTimeout := by
  induction rounds generalizing elapsed with
  | zero => cases h
  | succ rounds ih =>
    rw [Handshake.await] at h
    split at h
    · rename_i hTime
      split at h
      · cases h
        exact hTime
      · exact ih h
    · cases h

/-- No round is left out: each takes at least its sleep, so more rounds change nothing. -/
theorem Handshake.await_enough (handshake : Handshake) {rounds elapsed : Nat}
    (h : lspConnectTimeout ≤ elapsed + 50 * rounds) (more : Nat) :
    handshake.await (rounds + more) elapsed = handshake.await rounds elapsed := by
  induction rounds generalizing elapsed with
  | zero =>
    have hLate : ¬ elapsed < lspConnectTimeout := by omega
    cases more with
    | zero => rfl
    | succ more => rw [Nat.zero_add, Handshake.await, Handshake.await, if_neg hLate]
  | succ rounds ih =>
    have hNext : lspConnectTimeout ≤ elapsed + 50 + handshake.lag elapsed + 50 * rounds := by omega
    rw [Nat.succ_add, Handshake.await, Handshake.await, ih hNext]

/-- What one call meets: the provider may be connected already, or once the lock of the other dials is had. -/
structure Connection where
  connected : Bool
  lockWait : Nat
  connectedAfterLock : Bool
  dial : Option Nat
  handshake : Handshake

def ensureLspConnected (connection : Connection) : Except Lsps2Error Nat :=
  if connection.connected then .ok 0
  else if connection.connectedAfterLock then .ok connection.lockWait
  else
    match connection.dial with
    | none => .error .connectFailed
    | some dialed =>
      match connection.handshake.await 200 0 with
      | none => .error .connectFailed
      | some waited => .ok (connection.lockWait + dialed + waited)

/-! ## The invoice -/

structure BuyResponse where
  interceptScid : UInt64
  cltvExpiryDelta : UInt32
deriving DecidableEq

structure JitInvoiceParams where
  lspNodeId : String
  interceptScid : UInt64
  lspCltvExpiryDelta : UInt32
  amountMsat : UInt64
  paymentHash : List UInt8
  paymentSecret : List UInt8
  expirySecs : Nat
  network : Wallet.Network
  description : String

structure RouteHintHop where
  srcNodeId : String
  shortChannelId : UInt64
  baseMsat : UInt32
  proportionalMillionths : UInt32
  cltvExpiryDelta : UInt16
deriving DecidableEq

structure Bolt11Invoice where
  currency : Wallet.Network
  description : String
  paymentHash : List UInt8
  paymentSecret : List UInt8
  timestampSecs : Nat
  minFinalCltvExpiryDelta : Nat
  expirySecs : Nat
  privateRoute : List RouteHintHop
  amountMsat : UInt64
deriving DecidableEq

/-- Two blocks more than the channel manager's own default. -/
def jitMinFinalCltvExpiryDelta (minFinalCltvExpiryDelta : Nat) : Nat := minFinalCltvExpiryDelta + 2

/-- Stamped with the time at hand; the provider's delta is narrowed. -/
def buildJitInvoice (params : JitInvoiceParams) (minFinalCltvExpiryDelta nowUnixSecs : Nat) : Bolt11Invoice where
  currency := params.network
  description := params.description
  paymentHash := params.paymentHash
  paymentSecret := params.paymentSecret
  timestampSecs := nowUnixSecs
  minFinalCltvExpiryDelta := jitMinFinalCltvExpiryDelta minFinalCltvExpiryDelta
  expirySecs := params.expirySecs
  privateRoute := [⟨params.lspNodeId, params.interceptScid, 0, 0, params.lspCltvExpiryDelta.toUInt16⟩]
  amountMsat := params.amountMsat

def jitInvoiceDescription : String := "zinqq wallet"

/-! ## An accept -/

/-- The provider's node id and the network, and the channel manager's default delta. -/
structure LiquidityConfig where
  lspNodeId : String
  network : Wallet.Network
  minFinalCltvExpiryDelta : Nat

/-- What an accept meets, times in milliseconds: the clock at its start, the connection, what the provider
answers and after how long, the hash and the secret, what they take, and whether the invoice can be signed. -/
structure AcceptWorld where
  startMs : Nat
  connection : Connection
  buy : Except Lsps2Error BuyResponse
  buyWait : Nat
  inboundPayment : Option (List UInt8 × List UInt8)
  buildWait : Nat
  signs : Bool

structure Accepted where
  invoice : Bolt11Invoice
  expiresAtUnix : Nat
  openingFeeMsat : UInt64

/-- An answer in time, or none. -/
def AcceptWorld.buyAnswer (world : AcceptWorld) : Except Lsps2Error BuyResponse :=
  if world.buyWait < lsps2RequestTimeout then world.buy else .error (.requestTimeout "buy")

def finishAccept (config : LiquidityConfig) (world : AcceptWorld) (prepared : PreparedAccept) (connectedMs : Nat) :
    Except Lsps2Error Accepted := do
  let buy ← world.buyAnswer
  match world.inboundPayment with
  | none => .error .invoiceCreationFailed
  | some (paymentHash, paymentSecret) =>
    let params : JitInvoiceParams :=
      { lspNodeId := config.lspNodeId
        interceptScid := buy.interceptScid
        lspCltvExpiryDelta := buy.cltvExpiryDelta
        amountMsat := prepared.amountMsat
        paymentHash
        paymentSecret
        expirySecs := prepared.expirySecs
        network := config.network
        description := jitInvoiceDescription }
    if world.signs then
      .ok ⟨buildJitInvoice params config.minFinalCltvExpiryDelta ((connectedMs + world.buyWait + world.buildWait) / 1000),
        prepared.expiresAtUnix, prepared.openingFeeMsat⟩
    else .error .invoiceCreationFailed

def jitAccept (config : LiquidityConfig) (world : AcceptWorld) (quotes : PendingQuotes) (quoteToken : Nat) (amountMsat : UInt64) :
    Except Lsps2Error Accepted := do
  let prepared ← (prepareAccept quotes quoteToken amountMsat (world.startMs / 1000)).2
  let waited ← ensureLspConnected world.connection
  finishAccept config world prepared (world.startMs + waited)

/-! ## How long it takes -/

def Connection.delay (connection : Connection) : Nat :=
  if connection.connected then 0
  else if connection.connectedAfterLock then connection.lockWait
  else connection.lockWait + connection.dial.getD 0 + (connection.handshake.await 200 0).getD 0

theorem ensureLspConnected_ok {connection : Connection} {waited : Nat}
    (h : ensureLspConnected connection = .ok waited) : waited = connection.delay := by
  rw [ensureLspConnected] at h
  rw [Connection.delay]
  split at h
  · rename_i hConnected
    cases h
    rw [if_pos hConnected]
  · rename_i hConnected
    rw [if_neg hConnected]
    split at h
    · rename_i hAfter
      cases h
      rw [if_pos hAfter]
    · rename_i hAfter
      rw [if_neg hAfter]
      cases hDial : connection.dial with
      | none =>
        rw [hDial] at h
        cases h
      | some dialed =>
        rw [hDial] at h
        simp only at h
        split at h
        · cases h
        · rename_i hWait
          cases h
          rw [hWait, Option.getD_some, Option.getD_some]

namespace AcceptWorld

def startSecs (world : AcceptWorld) : Nat := world.startMs / 1000

def stampedSecs (world : AcceptWorld) : Nat :=
  (world.startMs + world.connection.delay + world.buyWait + world.buildWait) / 1000

theorem startSecs_le (world : AcceptWorld) : world.startSecs ≤ world.stampedSecs := by
  refine Nat.div_le_div_right ?_
  omega

end AcceptWorld

theorem finishAccept_ok {config : LiquidityConfig} {world : AcceptWorld} {prepared : PreparedAccept} {connectedMs : Nat}
    {accepted : Accepted} (h : finishAccept config world prepared connectedMs = .ok accepted) :
    ∃ buy, world.buy = .ok buy ∧
      accepted.invoice.timestampSecs = (connectedMs + world.buyWait + world.buildWait) / 1000 ∧
      accepted.invoice.expirySecs = prepared.expirySecs ∧ accepted.expiresAtUnix = prepared.expiresAtUnix ∧
      accepted.invoice.privateRoute =
        [⟨config.lspNodeId, buy.interceptScid, 0, 0, buy.cltvExpiryDelta.toUInt16⟩] := by
  rw [finishAccept] at h
  cases hBuy : world.buyAnswer with
  | error e =>
    rw [hBuy] at h
    cases h
  | ok buy =>
    rw [hBuy] at h
    have hAnswer : world.buy = .ok buy := by
      rw [AcceptWorld.buyAnswer] at hBuy
      split at hBuy
      · exact hBuy
      · cases hBuy
    cases hPayment : world.inboundPayment with
    | none =>
      rw [hPayment] at h
      cases h
    | some payment =>
      rw [hPayment] at h
      cases hSigns : world.signs with
      | false => simp [bind, Except.bind, hSigns] at h
      | true =>
        simp only [bind, Except.bind, hSigns, if_true, Except.ok.injEq] at h
        subst h
        exact ⟨buy, hAnswer, rfl, rfl, rfl, rfl⟩

theorem jitAccept_ok {config : LiquidityConfig} {world : AcceptWorld} {quotes : PendingQuotes}
    {quoteToken : Nat} {amountMsat : UInt64} {accepted : Accepted}
    (h : jitAccept config world quotes quoteToken amountMsat = .ok accepted) :
    ∃ stored buy, quotes quoteToken = some stored ∧ world.buy = .ok buy ∧
      world.startSecs + 90 ≤ stored.params.validUntil ∧
      accepted.invoice.timestampSecs = world.stampedSecs ∧
      accepted.invoice.expirySecs = min (stored.params.validUntil - world.startSecs - 30) 3600 ∧
      accepted.expiresAtUnix = world.startSecs + accepted.invoice.expirySecs ∧
      accepted.invoice.privateRoute =
        [⟨config.lspNodeId, buy.interceptScid, 0, 0, buy.cltvExpiryDelta.toUInt16⟩] := by
  rw [jitAccept] at h
  cases hPrepared : (prepareAccept quotes quoteToken amountMsat (world.startMs / 1000)).2 with
  | error e =>
    rw [hPrepared] at h
    cases h
  | ok prepared =>
    rw [hPrepared] at h
    cases hConnected : ensureLspConnected world.connection with
    | error e =>
      rw [hConnected] at h
      cases h
    | ok waited =>
      rw [hConnected] at h
      obtain ⟨buy, hBuy, hStamp, hExpiry, hReported, hRoute⟩ := finishAccept_ok h
      obtain ⟨expirySecs, hStored, hClamp, hFields⟩ := prepareAccept_ok hPrepared
      obtain ⟨hLeft, hMin⟩ := computeJitInvoiceExpirySecs_ok hClamp
      have hDelay := ensureLspConnected_ok hConnected
      subst hDelay
      rw [hFields] at hExpiry hReported
      refine ⟨_, buy, hStored, hBuy, hLeft, ?_, ?_, ?_, hRoute⟩
      · rw [hStamp, AcceptWorld.stampedSecs]
      · rw [hExpiry, hMin, AcceptWorld.startSecs]
      · rw [hReported, hExpiry, AcceptWorld.startSecs]

/-- The invoice dies within the quote, the reported time is no later than the invoice's, and the hint asks for
what the provider asked for. -/
def Accepted.Outlived (accepted : Accepted) (validUntil : Nat) (lspCltvExpiryDelta : UInt32) : Prop :=
  accepted.invoice.timestampSecs + accepted.invoice.expirySecs ≤ validUntil ∧
    accepted.expiresAtUnix ≤ accepted.invoice.timestampSecs + accepted.invoice.expirySecs ∧
    ∀ hop ∈ accepted.invoice.privateRoute, lspCltvExpiryDelta.toNat ≤ hop.cltvExpiryDelta.toNat

/-- Without a wait for another dial the margin is enough. -/
theorem AcceptWorld.stampedSecs_le {world : AcceptWorld} (hLock : world.connection.lockWait = 0)
    (hDial : world.connection.dial.getD 0 ≤ 10000) (hBuy : world.buyWait < lsps2RequestTimeout)
    (hBuild : world.buildWait ≤ 5000) : world.stampedSecs ≤ world.startSecs + 30 := by
  have hWait : (world.connection.handshake.await 200 0).getD 0 < 10000 := by
    cases hAwait : world.connection.handshake.await 200 0 with
    | none => decide
    | some took => exact Handshake.await_lt hAwait
  have hDelay : world.connection.delay < 20000 := by
    rw [Connection.delay, hLock]
    split
    · decide
    · split
      · decide
      · omega
  rw [lsps2RequestTimeout] at hBuy
  rw [AcceptWorld.stampedSecs, AcceptWorld.startSecs]
  omega

/-- The invoice dies within its quote exactly when it is stamped within the margin, or early enough for the
longest expiry; the hint is the provider's exactly when it fits. -/
theorem accepted_outlived_iff {config : LiquidityConfig} {world : AcceptWorld} {quotes : PendingQuotes}
    {quoteToken : Nat} {amountMsat : UInt64} {accepted : Accepted} {stored : StoredJitQuote} {buy : BuyResponse}
    (hAccepted : jitAccept config world quotes quoteToken amountMsat = .ok accepted)
    (hStored : quotes quoteToken = some stored) (hBuy : world.buy = .ok buy) :
    accepted.Outlived stored.params.validUntil buy.cltvExpiryDelta ↔
      (world.stampedSecs ≤ world.startSecs + 30 ∨ world.stampedSecs + 3600 ≤ stored.params.validUntil) ∧
        buy.cltvExpiryDelta.toNat < 65536 := by
  obtain ⟨stored', buy', hStored', hBuy', hLeft, hStamp, hExpiry, hReported, hRoute⟩ := jitAccept_ok hAccepted
  rw [hStored] at hStored'
  rw [hBuy] at hBuy'
  cases hStored'
  cases hBuy'
  have hLater := world.startSecs_le
  have hTime : accepted.invoice.timestampSecs + accepted.invoice.expirySecs ≤ stored.params.validUntil ↔
      world.stampedSecs ≤ world.startSecs + 30 ∨ world.stampedSecs + 3600 ≤ stored.params.validUntil := by
    rw [hStamp, hExpiry]
    omega
  have hReport : accepted.expiresAtUnix ≤ accepted.invoice.timestampSecs + accepted.invoice.expirySecs := by
    rw [hReported, hStamp]
    omega
  have hHint : (∀ hop ∈ accepted.invoice.privateRoute, buy.cltvExpiryDelta.toNat ≤ hop.cltvExpiryDelta.toNat) ↔
      buy.cltvExpiryDelta.toNat < 65536 := by
    rw [hRoute, List.forall_mem_singleton, UInt32.toNat_toUInt16]
    omega
  rw [Accepted.Outlived, hTime, hHint]
  exact ⟨fun h => ⟨h.1, h.2.2⟩, fun h => ⟨h.1, hReport, h.2⟩⟩

def demoConfig : LiquidityConfig where
  lspNodeId := "034066e29e402d9cf55af1ae1026cc5adf92eed1e0e421785442f53717ad1453b0"
  network := .bitcoin
  minFinalCltvExpiryDelta := 24

/-- A quote for 250000 sats, valid for another 100 seconds. -/
def demoQuote : StoredJitQuote :=
  ⟨250000000, 2500000, ⟨2500000, 10000, 1700000100, 4032, 2016, 10000000, 4000000000, "promise"⟩⟩

def demoQuotes : PendingQuotes := Function.update (fun _ => none) 1 (some demoQuote)

/-- The provider is connected, answers within a second, and asks for a day's delta. -/
def promptWorld : AcceptWorld where
  startMs := 1700000000000
  connection := ⟨true, 0, true, none, ⟨fun _ => true, fun _ => 0⟩⟩
  buy := .ok ⟨0x123456789abcd, 144⟩
  buyWait := 800
  inboundPayment := some (List.replicate 32 7, List.replicate 32 9)
  buildWait := 5
  signs := true

theorem promptWorld_outlived : ∃ accepted, jitAccept demoConfig promptWorld demoQuotes 1 250000000 = .ok accepted ∧
    accepted.Outlived 1700000100 144 := by
  obtain ⟨accepted, hAccepted⟩ : ∃ accepted,
      jitAccept demoConfig promptWorld demoQuotes 1 250000000 = .ok accepted := ⟨_, rfl⟩
  have hStored : demoQuotes 1 = some demoQuote := rfl
  have hBuy : promptWorld.buy = .ok ⟨0x123456789abcd, 144⟩ := rfl
  exact ⟨accepted, hAccepted, (accepted_outlived_iff hAccepted hStored hBuy).mpr ⟨.inl (by decide), by decide⟩⟩

/-- Another dial, of nine seconds to connect and nine for a handshake that fails, holds the lock; the own dial
takes nine seconds and its handshake four and a half. -/
def busyWorld : AcceptWorld :=
  { promptWorld with connection := ⟨false, 18000, false, some 9000, ⟨fun elapsed => 4500 ≤ elapsed, fun _ => 0⟩⟩ }

def wideWorld : AcceptWorld := { promptWorld with buy := .ok ⟨0x123456789abcd, 65536 + 144⟩ }

/-- Two seconds too late, and a delta that loses its high bits. -/
theorem quote_outlived :
    (∃ accepted, jitAccept demoConfig busyWorld demoQuotes 1 250000000 = .ok accepted ∧
      ¬ accepted.Outlived 1700000100 144) ∧
    ∃ accepted, jitAccept demoConfig wideWorld demoQuotes 1 250000000 = .ok accepted ∧
      ¬ accepted.Outlived 1700000100 (65536 + 144) := by
  constructor
  · refine ⟨_, rfl, ?_⟩
    rintro ⟨hTime, -⟩
    exact absurd hTime (by decide)
  · refine ⟨_, rfl, ?_⟩
    rintro ⟨-, -, hHint⟩
    exact absurd (hHint _ List.mem_cons_self) (by decide)

end WalletCore.Liquidity
