import TickerGarden.Curve.Curve
import TickerGarden.Fees.Liabilities

/-!
# The fee vault

The contract `ProtocolFeeVault`: fees come in through a pair of calls, between which the
asset arrives, and go out to the beneficiary of each bucket. A pair is held together by
the credit lock, which is transient: it is part of the state here, in
`TickerGarden.ProtocolFeeVault.Session`, and the end of a transaction clears it.

| source file                    | functions                                                  |
|--------------------------------|------------------------------------------------------------|
| `ProtocolFeeVaultV4Credit`     | `beginV4Credit`, `finalizeV4Credit`                        |
| `ProtocolFeeVaultCurveCredit`  | `beginCurveCredit`, `finalizeCurveCredit`                  |
| `ProtocolFeeVaultV4Accounting` | `validateV4Record`, `settleV4Attribution`                  |
| `ProtocolFeeVaultLiabilities`  | `coverAssetDeficit`, `claimPlatform`, `recordForfeiture`, `fundHolderRewards` |
| `ProtocolFeeVaultUserClaims`   | `claimUserRewards`, `fundHolderMemeRewards`, `fundHolderRewardsBatch` |

The gauges are an interface, `TickerGarden.ProtocolFeeVault.GaugeCalls`, over a state `G`
of their own. A credit survives a gauge that fails, and gas decides with the gauge how
an attempt ends. Calls do not nest here: whoever is paid may call back, but while the
lock is closed every function of the vault refuses.
-/

namespace TickerGarden

open Checked

namespace ProtocolFeeVault

open Curve (CurveCredit)

/-! ### The state -/

/-- `CREDIT_IDLE`, `CREDIT_PENDING`, `CREDIT_FINALIZING`. -/
inductive CreditState
  | idle
  | pending
  | finalizing
deriving DecidableEq

/-- The credit of a pool's fee that was announced: what is expected, and what the vault had before.
-/
structure PendingV4Credit where
  marketId : Bytes32
  feeAsset : Address
  sourceVersion : ℕ
  amount : ℕ
  balanceBefore : ℕ
  feeId : Bytes32
  source : Address
deriving DecidableEq

/-- The credit of a curve's fees that was announced: what is expected, and what the vault had
before. -/
structure PendingCurveCredit where
  marketId : Bytes32
  creatorEpoch : Epoch
  quoteAsset : Address
  amount : ℕ
  balanceBefore : ℕ
  creatorTaxAmount : ℕ
  sourceVersion : ℕ
  sweepNonce : ℕ
  feeId : Bytes32
  source : Address
deriving DecidableEq

/-- The arguments of `finalizeV4Credit`, with the source version of the pending credit. -/
structure V4CreditRecord where
  marketId : Bytes32
  feeAsset : Address
  base : ℕ
  totalFee : ℕ
  lpAmount : ℕ
  nonLpAmount : ℕ
  sourceVersion : ℕ
  feeNonce : ℕ
  feeId : Bytes32
deriving DecidableEq

/-- A cleared `PendingV4Credit`. -/
def PendingV4Credit.none : PendingV4Credit := ⟨0, 0, 0, 0, 0, 0, 0⟩

/-- A cleared `PendingCurveCredit`. -/
def PendingCurveCredit.none : PendingCurveCredit := ⟨0, 0, 0, 0, 0, 0, 0, 0, 0, 0⟩

/-- What lives as long as a transaction. -/
structure Session where
  creditState : CreditState
  pendingV4 : PendingV4Credit
  pendingCurve : PendingCurveCredit

/-- The session a transaction starts with. -/
def Session.start : Session := ⟨.idle, .none, .none⟩

/-- The storage of the vault. -/
structure State where
  ledger : Ledger
  consumedFeeIds : Bytes32 → Bool
  lastCurveSweepNonces : Bytes32 → ℕ
  lastV4FeeNonces : Bytes32 → ℕ
  feePlatformTreasury : Address
  session : Session

/-- The addresses and the policy that the vault is deployed with. -/
structure Immutables where
  self : Address
  poolManager : Address
  feePolicyId : Bytes32

/-- What the vault reads: the world, the creators' epochs, and the distributor of a
token. -/
structure Surroundings extends World where
  /-- `ICreatorRevenueRegistry.currentCreatorEpoch`. -/
  currentCreatorEpoch : Bytes32 → Epoch
  /-- `ICreatorRevenueRegistry.creatorBeneficiaryAt`. -/
  creatorBeneficiaryAt : Bytes32 → Epoch → Address
  /-- `ITickerMemeTokenV1.holderRewardsDistributor`. -/
  holderRewardsDistributor : Address → Address

/-- The surroundings with other balances. -/
def Surroundings.withBalances (c : Surroundings) (b : Balances) : Surroundings :=
  { c with balances := b }

/-- **What the vault calls on the gauge of a market.** -/
structure GaugeCalls (G : Type) where
  effectiveTotalActiveStock : Bytes32 → G → Except Revert ℕ
  creditStakerFee : Bytes32 → (feeAsset : Address) → (amount : ℕ) → (feeId : Bytes32) → G →
    Except Revert G
  /-- With the quote and the token that were claimable. -/
  consumeClaimableAssets : Bytes32 → (user : Address) → (assets : BitVec 8) → G →
    Except Revert (G × ℕ × ℕ)

/-- How the gas of a settlement lasts: for the probe, for the attempt to be made at all,
and for it to end. -/
structure StakerGas where
  probe : Bool
  budget : Bool
  settlement : Bool

/-- A short text as a `bytes32`. -/
def bytes32 (text : String) : Bytes32 :=
  let bytes := text.toList
  BitVec.ofNat 256 (bytes.foldl (fun n c => n * 256 + c.toNat) 0 * 256 ^ (32 - bytes.length))

/-! ### The credit lock -/

section Lock

variable (s : State)

/-- `_requireCreditIdle`. -/
def requireCreditIdle (operationId : Bytes32) : Except Revert Unit :=
  revertIf (s.session.creditState ≠ .idle) (.feeVault (.feeCreditNotPrepared operationId))

/-- `_setCreditState`. -/
def setCreditState (state : CreditState) : State :=
  { s with session := { s.session with creditState := state } }

/-- `_enterStandaloneCredit`, up to the lock. -/
def requireStandaloneCredit (feeId : Bytes32) : Except Revert Unit := do
  revertIf (feeId = 0) (.feeVault (.feeCreditNotPrepared feeId))
  revertIf (s.consumedFeeIds feeId) (.feeVault (.feeIdAlreadyConsumed feeId))
  requireCreditIdle s feeId

end Lock

/-! ### Credits of swap fees -/

section V4Credit

/-- `_requireActiveV4Source`. -/
def requireActiveV4Source (w : World) (marketId : Bytes32) (feeAsset : Address)
    (sourceVersion : ℕ) (source : Address) : Except Revert MarketView := do
  let value ← MarketRegistry.market w.registries marketId
  revertIf (value.runtime.launchPhase ≠ launchPhasePoolCreated ∨ value.runtime.poolId = 0 ∨
      value.runtime.sourceVersion ≠ sourceVersion ∨ value.config.graduatedHook ≠ source)
    (.feeVault (.inactiveFeeSource marketId sourceVersion))
  revertIf (feeAsset ≠ value.config.quoteAsset ∧ feeAsset ≠ value.config.memeToken)
    (.feeVault (.feeAssetNotCanonical feeAsset))
  return value

/-- The source of a pool's fee announces it, before it is paid: an identifier is used once, and one
credit is open at a time. -/
def beginV4Credit (v : Immutables) (w : World) (caller : Address) (s : State) (marketId : Bytes32)
    (feeAsset : Address) (amount sourceVersion : ℕ) (feeId : Bytes32) : Except Revert State := do
  revertIf (s.session.creditState ≠ .idle ∨ feeId = 0) (.feeVault (.feeCreditNotPrepared feeId))
  revertIf (amount = 0 ∨ amount > maxInt128) (.feeVault (.feeAmountTooLarge amount))
  revertIf (s.consumedFeeIds feeId) (.feeVault (.feeIdAlreadyConsumed feeId))
  let _ ← requireActiveV4Source w marketId feeAsset sourceVersion caller
  let pendingV4 : PendingV4Credit :=
    { marketId, feeAsset, sourceVersion, amount, balanceBefore := w.balances feeAsset v.self, feeId,
      source := caller }
  return { s with session := { s.session with pendingV4, creditState := .pending } }

/-- `_expectedV4FeeId`. -/
def expectedV4FeeId (platform : Platform) (v : Immutables) (record : V4CreditRecord)
    (poolId : Bytes32) : Bytes32 :=
  platform.keccak256 (.v4Fee "TICKERGARDEN_V1_V4_FEE" 1 platform.chainId v.self v.poolManager poolId
    record.marketId record.sourceVersion record.feeNonce record.feeAsset record.base record.totalFee
    (V1MarketEconomics.hashFeePolicy platform))

/-- `_validateV4Record`: the fee is recomputed from its base, and the surcharge in it is
returned. -/
def validateV4Record (platform : Platform) (v : Immutables) (lastV4FeeNonces : Bytes32 → ℕ)
    (record : V4CreditRecord) (value : MarketView) : Except Revert ℕ := do
  revertIf (value.config.feePolicyId ≠ v.feePolicyId ∨
      value.config.executionSpecId ≠ executionSpecId platform)
    (.feeVault (.invalidV4MarketPolicy record.marketId value.config.feePolicyId
      value.config.executionSpecId))
  let tax ← CreatorTax.amount record.base value.config.creatorTaxBps
  let baseFee ← mulDiv record.base feePips feePipsDenominator
  let expectedTotalFee ← uadd baseFee tax
  revertIf (record.totalFee = 0 ∨ record.totalFee ≠ expectedTotalFee)
    (.feeVault (.invalidV4FeeAmounts record.base record.totalFee expectedTotalFee))
  let expectedFeeId := expectedV4FeeId platform v record value.runtime.poolId
  let expectedNonce ← incr maxUint64 (lastV4FeeNonces value.runtime.poolId)
  revertIf (record.feeId ≠ expectedFeeId ∨ record.feeNonce ≠ expectedNonce)
    (.feeVault (.feeCreditNotPrepared record.feeId))
  return tax

variable {G : Type} (calls : GaugeCalls G)

/-- How an attempt to credit the stakers ended. -/
structure StakerAttempt where
  activeStock : ℕ
  abandoned : Bool

/-- `settleV4StakerFee`: the vault calls it on itself. -/
def settleV4StakerFee (v : Immutables) (caller : Address) (session : Session) (g : G)
    (marketId : Bytes32) (asset : Address) (amount : ℕ) (feeId : Bytes32) :
    Except Revert (ℕ × G) := do
  revertIf (caller ≠ v.self ∨ session.creditState ≠ .finalizing) (.feeVault .onlyStakerSettlementSelf)
  let activeStock ← calls.effectiveTotalActiveStock marketId g
  if activeStock ≠ 0 ∧ amount ≠ 0 then
    let g ← calls.creditStakerFee marketId asset amount feeId g
    return (activeStock, g)
  else return (activeStock, g)

/-- Whether the probe of `_tryStakerSettlement` answers that there is no stake. -/
def knownEmpty (gas : StakerGas) (g : G) (marketId : Bytes32) : Bool :=
  match gas.probe, calls.effectiveTotalActiveStock marketId g with
  | true, .ok 0 => true
  | _, _ => false

/-- `_tryStakerSettlement`: a gauge that fails has not changed. -/
def tryStakerSettlement (v : Immutables) (gas : StakerGas) (session : Session) (g : G)
    (marketId : Bytes32) (asset : Address) (amount : ℕ) (feeId : Bytes32) :
    Except Revert (StakerAttempt × G) :=
  if knownEmpty calls gas g marketId then .ok (⟨0, false⟩, g)
  else do
    revertIf (¬ gas.budget) (.feeVault .insufficientStakerSettlementGas)
    match ifGas gas.settlement
        (settleV4StakerFee calls v v.self session g marketId asset amount feeId) with
    | .ok (activeStock, g) => return (⟨activeStock, false⟩, g)
    | .error _ => return (⟨0, true⟩, g)

/-- The attempt of `_settleV4Attribution`: only a market with staking has stakers. -/
def attemptStakerSettlement (v : Immutables) (gas : StakerGas) (session : Session) (g : G)
    (record : V4CreditRecord) (config : MarketConfig) (tax : ℕ) :
    Except Revert (StakerAttempt × G) :=
  if config.stakingEnabled then do
    let untaxed ← usub record.nonLpAmount tax
    let amount ← mulDiv untaxed MarketFeeAccounting.stakerNonLpShareBps 10000
    tryStakerSettlement calls v gas session g record.marketId record.feeAsset amount record.feeId
  else .ok (⟨0, false⟩, g)

/-- The stakers' part of an abandoned attempt goes to the reserve. -/
def abandonStakerFee (v : Immutables) (l : Ledger) (record : V4CreditRecord)
    (attempt : StakerAttempt) (stakerAmount : ℕ) : Except Revert Ledger :=
  if attempt.abandoned ∧ stakerAmount ≠ 0 then do
    let l ← reserveForfeiture l record.marketId record.feeAsset v.self stakerAmount
    return l.emit (.stakerFeeAbandoned record.marketId record.feeId record.feeAsset stakerAmount)
  else .ok l

/-- `_settleV4Attribution`. -/
def settleV4Attribution (v : Immutables) (c : Surroundings) (gas : StakerGas) (s : State) (g : G)
    (record : V4CreditRecord) (value : MarketView) (tax : ℕ) : Except Revert (Ledger × G) := do
  let (attempt, g) ← attemptStakerSettlement calls v gas s.session g record
    value.config.toMarketConfig tax
  let totalFee ← usub record.totalFee tax
  let nonLpAmount ← usub record.nonLpAmount tax
  let buckets ← MarketFeeAccounting.splitV4 totalFee record.lpAmount nonLpAmount
    (if attempt.abandoned then 1 else attempt.activeStock)
  let creatorAmount ← uadd buckets.creatorAmount tax
  let creatorEpoch := c.currentCreatorEpoch record.marketId
  revertIf (creatorEpoch = 0 ∨ c.creatorBeneficiaryAt record.marketId creatorEpoch = 0)
    (.feeVault (.creatorEpochUnavailableForV4 record.marketId creatorEpoch))
  let (l, holderAmount) ← creditTradingFeeLiabilities v.self c.balances s.ledger record.marketId
    record.feeAsset creatorEpoch record.nonLpAmount creatorAmount buckets.stakerAmount
    buckets.platformAmount tax value.config.toMarketConfig
  let l ← abandonStakerFee v l record attempt buckets.stakerAmount
  let credited ← usub creatorAmount holderAmount
  return (l.emit (.feeBucketsCredited record.marketId creatorEpoch record.feeAsset record.feeId
    credited buckets.stakerAmount buckets.platformAmount attempt.activeStock), g)

/-- The state after a credit: the identifier is consumed, the nonce has moved, and the
session is over. -/
def State.credited (s : State) (l : Ledger) (feeId poolId : Bytes32) (feeNonce : ℕ) : State :=
  { s with
    ledger := l
    consumedFeeIds := Function.update s.consumedFeeIds feeId true
    lastV4FeeNonces := Function.update s.lastV4FeeNonces poolId feeNonce
    session := { s.session with creditState := .idle, pendingV4 := .none } }

/-- `finalizeV4Credit`. -/
def finalizeV4Credit (platform : Platform) (v : Immutables) (c : Surroundings) (gas : StakerGas)
    (caller : Address) (s : State) (g : G) (marketId : Bytes32) (feeAsset : Address)
    (base totalFee lpAmount nonLpAmount feeNonce : ℕ) (feeId : Bytes32) :
    Except Revert (State × G) := do
  let pending := s.session.pendingV4
  revertIf (s.session.creditState ≠ .pending ∨ pending.marketId ≠ marketId ∨
      pending.feeAsset ≠ feeAsset ∨ pending.amount ≠ nonLpAmount ∨ pending.feeId ≠ feeId ∨
      pending.source ≠ caller)
    (.feeVault (.feeCreditNotPrepared feeId))
  revertIf (s.consumedFeeIds feeId) (.feeVault (.feeIdAlreadyConsumed feeId))
  let value ← requireActiveV4Source c.toWorld marketId feeAsset pending.sourceVersion caller
  let currentBalance := c.balances feeAsset v.self
  let actualDelta :=
    if currentBalance ≥ pending.balanceBefore then currentBalance - pending.balanceBefore else 0
  revertIf (actualDelta ≠ pending.amount)
    (.feeVault (.feeBalanceDeltaMismatch feeAsset pending.amount actualDelta))
  let record : V4CreditRecord :=
    { marketId, feeAsset, base, totalFee, lpAmount, nonLpAmount,
      sourceVersion := pending.sourceVersion, feeNonce, feeId }
  let tax ← validateV4Record platform v s.lastV4FeeNonces record value
  let (l, g) ← settleV4Attribution calls v c gas (setCreditState s .finalizing) g record value tax
  return (s.credited l feeId value.runtime.poolId feeNonce, g)

/-- `receive`: native currency is accepted from the pool manager, as the pending credit. -/
def receiveNative (v : Immutables) (s : State) (caller : Address) (value : ℕ) :
    Except Revert Unit :=
  let pending := s.session.pendingV4
  revertIf (s.session.creditState ≠ .pending ∨ pending.feeAsset ≠ 0 ∨ caller ≠ v.poolManager ∨
      value ≠ pending.amount)
    (.feeVault (.feeCreditNotPrepared pending.feeId))

end V4Credit

/-! ### Credits of curve fees -/

section CurveCredits

variable (platform : Platform) (v : Immutables) (c : Surroundings) (caller : Address) (s : State)

/-- `_validateCurveCredit`: the curve of the market, before graduation, with the fee
identifier and the nonce recomputed. -/
def validateCurveCredit (pending : PendingCurveCredit) : Except Revert (Epoch × MarketView) := do
  let value ← MarketRegistry.market c.registries pending.marketId
  revertIf (value.config.curve ≠ pending.source)
    (.feeVault (.unauthorizedMarketCurve pending.source value.config.curve))
  revertIf (value.runtime.launchPhase ≠ launchPhaseNotGraduated ∨
      value.runtime.sourceVersion ≠ pending.sourceVersion)
    (.feeVault (.curveFeeSweepAfterClose pending.marketId))
  revertIf (pending.quoteAsset ≠ value.config.quoteAsset)
    (.feeVault (.feeAssetNotCanonical pending.quoteAsset))
  let expectedFeeId := platform.keccak256 (.curveSweep "TICKERGARDEN_V1_CURVE_SWEEP" 1
    platform.chainId v.self pending.source pending.marketId pending.sourceVersion pending.sweepNonce
    pending.quoteAsset pending.amount pending.creatorTaxAmount)
  let expectedNonce ← incr maxUint64 (s.lastCurveSweepNonces pending.marketId)
  revertIf (pending.feeId ≠ expectedFeeId ∨ pending.sweepNonce ≠ expectedNonce)
    (.feeVault (.feeCreditNotPrepared pending.feeId))
  let creatorEpoch := c.currentCreatorEpoch pending.marketId
  revertIf (creatorEpoch = 0 ∨ c.creatorBeneficiaryAt pending.marketId creatorEpoch = 0)
    (.feeVault (.creatorEpochUnavailable pending.marketId creatorEpoch))
  return (creatorEpoch, value)

/-- The pending credit of a call, before its epoch and the balance are known. -/
def pendingOf (credit : CurveCredit) : PendingCurveCredit where
  marketId := credit.marketId
  creatorEpoch := 0
  quoteAsset := credit.quoteAsset
  amount := credit.amount
  balanceBefore := 0
  creatorTaxAmount := credit.creatorTaxAmount
  sourceVersion := credit.sourceVersion
  sweepNonce := credit.sweepNonce
  feeId := credit.feeId
  source := caller

/-- A curve announces its fees, before they are paid, with the tax of the creator among them. -/
def beginCurveCredit (credit : CurveCredit) : Except Revert State := do
  requireStandaloneCredit s credit.feeId
  revertIf (credit.creatorTaxAmount > credit.amount)
    (.feeVault (.feeAmountTooLarge credit.creatorTaxAmount))
  revertIf (credit.amount = 0 ∨ credit.amount > maxInt128)
    (.feeVault (.feeAmountTooLarge credit.amount))
  let pending := pendingOf caller credit
  let (creatorEpoch, _) ← validateCurveCredit platform v c s pending
  let pendingCurve :=
    { pending with creatorEpoch, balanceBefore := c.balances credit.quoteAsset v.self }
  return { s with session := { s.session with creditState := .finalizing, pendingCurve } }

/-- The state after a sweep. -/
def State.swept (s : State) (l : Ledger) (credit : CurveCredit) : State :=
  { s with
    ledger := l
    consumedFeeIds := Function.update s.consumedFeeIds credit.feeId true
    lastCurveSweepNonces := Function.update s.lastCurveSweepNonces credit.marketId credit.sweepNonce
    session := { s.session with creditState := .idle, pendingCurve := .none } }

/-- `_recordExactCurveCredit`. -/
def recordExactCurveCredit (credit : CurveCredit) (creatorEpoch : Epoch)
    (creatorAmount platformAmount : ℕ) (config : MarketConfig) : Except Revert Ledger := do
  let (l, holderAmount) ← creditTradingFeeLiabilities v.self c.balances s.ledger credit.marketId
    credit.quoteAsset creatorEpoch credit.amount creatorAmount 0 platformAmount
    credit.creatorTaxAmount config
  let credited ← usub creatorAmount holderAmount
  return l.emit (.curveFeesSwept credit.marketId creatorEpoch credit.quoteAsset credit.sweepNonce
    credit.feeId credit.amount credited platformAmount)

/-- `finalizeCurveCredit`, with the native currency that came with the call. -/
def finalizeCurveCredit (value : ℕ) (credit : CurveCredit) : Except Revert State := do
  let pending := s.session.pendingCurve
  revertIf (pending.creatorTaxAmount ≠ credit.creatorTaxAmount ∨
      pending.marketId ≠ credit.marketId ∨ pending.quoteAsset ≠ credit.quoteAsset ∨
      pending.amount ≠ credit.amount ∨ pending.sourceVersion ≠ credit.sourceVersion ∨
      pending.sweepNonce ≠ credit.sweepNonce ∨ pending.feeId ≠ credit.feeId ∨
      pending.source ≠ caller)
    (.feeVault (.feeCreditNotPrepared credit.feeId))
  let (currentCreatorEpoch, view) ← validateCurveCredit platform v c s pending
  revertIf (currentCreatorEpoch ≠ pending.creatorEpoch)
    (.feeVault (.feeCreditNotPrepared credit.feeId))
  let expectedValue := if credit.quoteAsset = 0 then credit.amount else 0
  revertIf (value ≠ expectedValue)
    (.feeVault (.feeBalanceDeltaMismatch credit.quoteAsset expectedValue value))
  let currentBalance := c.balances credit.quoteAsset v.self
  let actualDelta := if currentBalance ≥ pending.balanceBefore
    then currentBalance - pending.balanceBefore else maxUint256
  revertIf (actualDelta ≠ credit.amount)
    (.feeVault (.feeBalanceDeltaMismatch credit.quoteAsset credit.amount actualDelta))
  let untaxed ← usub credit.amount pending.creatorTaxAmount
  let buckets ← MarketFeeAccounting.splitCurve untaxed
  let creatorAmount ← uadd buckets.creatorAmount pending.creatorTaxAmount
  let l ← recordExactCurveCredit v c s credit pending.creatorEpoch creatorAmount
    buckets.platformAmount view.config.toMarketConfig
  return s.swept l credit

end CurveCredits

end ProtocolFeeVault

end TickerGarden
