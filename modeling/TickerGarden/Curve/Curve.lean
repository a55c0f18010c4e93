import TickerGarden.Curve.CurveMath
import TickerGarden.Lib.Transition
import TickerGarden.Registry.MarketRegistry

/-!
# The curve of a market

The contract `TickerGardenCurve`: it sells a market's token against the quote asset at
a constant product, collects fees in its tracked reserve until they are swept to the
fee vault, and, when the sellable inventory runs out, hands its whole reserve to the
graduation executor in the same call.

The contracts around the curve – registry, fee vault, executor – are an interface,
`TickerGarden.Curve.Externals`, over a state `W` of their own: the curve is verified
against any of them. What an external call may do to token balances is limited by the
ledger: it can move any account's assets but the curve's, which has approved nobody.
The operations follow the source: `buy`, `sell`, `sweepCurveFees`, with the private
`applyBuy`, `applySell`, `creditSweep` and `finalizeLaunch` they are made of. Each
returns the events it emits.

A `TickerGarden.Curve.Step` is one successful call by an account other than the curve,
or a step of the rest of the world.
-/

namespace TickerGarden

open Checked

namespace Curve

/-- The immutable fields of a curve, with its own address. -/
structure Immutables where
  self : Address
  marketId : Bytes32
  tickerGardenBaselineId : Bytes32
  quoteAssetConfigId : Bytes32
  protocolFeeVault : Address
  graduationExecutor : Address
  launchRouter : Address
  creator : Address
  beneficiaryAtCreation : Address
  memeToken : Address
  quoteAsset : Address
  phantomQuote : ℕ
  graduationThreshold : ℕ
  initialSupply : ℕ
  curveFeeBps : ℕ
  creatorTaxBps : ℕ
  launchTimestamp : ℕ

/-- The storage of a curve. -/
structure State where
  reserves : TrackedReserves
  accruedCreatorTax : ℕ
  sweepNonce : ℕ
  hasExecutedTrade : Bool
  completed : Bool
deriving DecidableEq

/-- The arguments of the two calls a sweep makes to the fee vault. -/
structure CurveCredit where
  marketId : Bytes32
  quoteAsset : Address
  amount : ℕ
  creatorTaxAmount : ℕ
  sourceVersion : ℕ
  sweepNonce : ℕ
  feeId : Bytes32
deriving DecidableEq

/-- The events a curve emits. -/
inductive Event
  | curveBuy (sender recipient : Address) (quoteSpent tokensOut fee surcharge : ℕ)
  | curveBuyRefunded (sender : Address) (refund : ℕ)
  | curveSell (sender recipient : Address) (tokensIn quoteOut fee surcharge : ℕ)
  | curveFeeTransferred (marketId : Bytes32) (sweepNonce : ℕ) (feeId : Bytes32) (amount : ℕ)
  | curveCompleted (marketId : Bytes32)
deriving DecidableEq

/-- **What a curve calls outside itself**, over a state `W` of the other contracts. The
address of the caller is that of the curve, and `value` is the native currency sent
along; balances are those at the time of the call. -/
structure Externals (W : Type) where
  /-- `IMarketRegistryV1.market`. -/
  market : W → Bytes32 → Except Revert MarketView
  /-- `IMarketRegistryV1.canonicalPoolKey`. -/
  canonicalPoolKey : W → Bytes32 → Except Revert PoolKey
  /-- `IProtocolFeeVault.beginCurveCredit`. -/
  beginCurveCredit : W → Balances → (caller : Address) → CurveCredit → Except Revert W
  /-- `IProtocolFeeVault.finalizeCurveCredit`. -/
  finalizeCurveCredit : W → Balances → (caller : Address) → (value : ℕ) → CurveCredit →
    Except Revert W
  /-- `IGraduationExecutor.graduateFromCurve`, with the transfers it makes. -/
  graduateFromCurve : W → Balances → (caller : Address) → (value : ℕ) → (marketId : Bytes32) →
    (quoteAmount memeAmount : ℕ) → Except Revert (W × List Transfer)

/-- A curve in its surroundings. -/
structure System (W : Type) where
  rest : W
  balances : Balances
  curve : State

/-- Who calls, with how much native currency, and when. -/
structure Call where
  caller : Address
  value : ℕ
  timestamp : ℕ

/-! ### Token movements

Each checks the balances before and after, as the source does. -/

/-- `_collectTokenExact`: pull tokens in, and check that exactly they arrived. -/
def collectTokenExact (self token payer : Address) (amount : ℕ) (b : Balances) :
    Except Revert Balances := do
  let after ← orRevert (b.move token payer self amount) (.curve (.transferCallFailed token))
  let actual := if after token self ≥ b token self then after token self - b token self
    else maxUint256
  revertIf (actual ≠ amount) (.curve (.inexactBalanceDelta token amount actual))
  return after

/-- `_transferTokenExact`: push tokens out, and check both sides. -/
def transferTokenExact (self token recipient : Address) (amount : ℕ) (b : Balances) :
    Except Revert Balances := do
  let after ← orRevert (b.move token self recipient amount) (.curve (.transferCallFailed token))
  let debit := if b token self ≥ after token self then b token self - after token self
    else maxUint256
  let credit := if after token recipient ≥ b token recipient
    then after token recipient - b token recipient else maxUint256
  revertIf (debit ≠ amount) (.curve (.inexactBalanceDelta token amount debit))
  revertIf (credit ≠ amount) (.curve (.inexactBalanceDelta token amount credit))
  return after

/-- `_transferQuoteExact`: pay out quote, in the native currency or a token. -/
def transferQuoteExact (self quoteAsset recipient : Address) (amount : ℕ) (b : Balances) :
    Except Revert Balances :=
  if quoteAsset = 0 then
    orRevert (b.move 0 self recipient amount) (.curve (.nativeTransferFailed recipient amount))
  else transferTokenExact self quoteAsset recipient amount b

/-- `_collectQuote`: the native currency has come with the call, tokens are pulled. -/
def collectQuote (self quoteAsset : Address) (call : Call) (amount : ℕ) (b : Balances) :
    Except Revert Balances := do
  if quoteAsset = 0 then
    revertIf (call.value ≠ amount) (.curve (.invalidPaymentValue amount call.value))
    return b
  else
    revertIf (call.value ≠ 0) (.curve (.invalidPaymentValue 0 call.value))
    collectTokenExact self quoteAsset call.caller amount b

/-- The native currency sent along with a call arrives before its first instruction. -/
def receiveValue (self : Address) (call : Call) (b : Balances) : Except Revert Balances :=
  orRevert (b.move 0 call.caller self call.value) .noReason

section Contract

variable {W : Type} (platform : Platform) (calls : Externals W) (imm : Immutables)

/-! ### Guards and quotes -/

/-- `_requireRegisteredCurve`: the registry's record of the market is this curve's. -/
def requireRegisteredCurve (rest : W) : Except Revert MarketView := do
  let view ← calls.market rest imm.marketId
  revertIf (view.config.curve ≠ imm.self ∨ view.config.memeToken ≠ imm.memeToken ∨
      view.config.quoteAsset ≠ imm.quoteAsset ∨
      view.config.tickerGardenBaselineId ≠ imm.tickerGardenBaselineId ∨
      view.config.quoteAssetConfigId ≠ imm.quoteAssetConfigId ∨
      view.config.creatorTaxBps ≠ imm.creatorTaxBps ∨
      view.config.creatorRevenueBeneficiaryAtCreation ≠ imm.beneficiaryAtCreation)
    (.curve (.marketBindingMismatch imm.marketId))
  return view

/-- `_requireTradable`. -/
def requireTradable (s : System W) : Except Revert MarketView := do
  let view ← requireRegisteredCurve calls imm s.rest
  revertIf (view.runtime.launchPhase ≠ launchPhaseNotGraduated ∨ s.curve.completed)
    (.curve (.marketNotTradable view.runtime.launchPhase s.curve.completed))
  return view

/-- `_requireRecipient`. -/
def requireRecipient (recipient : Address) : Except Revert Unit :=
  revertIf (recipient = 0 ∨ recipient = imm.self) (.curve (.invalidRecipient recipient))

/-- `_buyQuote`: price a buy, with the surcharge of its second. -/
def buyQuote (st : State) (timestamp quoteIn minTokensOut : ℕ) (recipient caller : Address) :
    Except Revert AntiSnipe.AntiSnipeBuyQuote := do
  let (quoteReserve, tokenReserve) ← SupplyMath.pricingReserves st.reserves imm.phantomQuote
  let atomicFirstBuyRecipient :=
    if caller = imm.launchRouter ∧ ¬ st.hasExecutedTrade then recipient else 0
  let exempt ← AntiSnipe.isExempt recipient caller {
    creator := imm.creator, beneficiaryAtCreation := imm.beneficiaryAtCreation,
    launchRouter := imm.launchRouter, atomicFirstBuyRecipient }
  let elapsed ← AntiSnipe.elapsedSince timestamp imm.launchTimestamp
  let feeBps ← uadd imm.curveFeeBps imm.creatorTaxBps
  let (rawSnipeBps, effectiveSnipeBps) ← AntiSnipe.effectiveSnipeBps elapsed exempt feeBps
  let curveQuote ← CurveMath.quoteBuyWithCreatorTax quoteIn quoteReserve tokenReserve
    st.reserves.reservedTokens imm.curveFeeBps effectiveSnipeBps imm.creatorTaxBps minTokensOut
  return { rawSnipeBps, effectiveSnipeBps, exempt, curveQuote }

/-- `_sellQuote`: price a sell. -/
def sellQuote (st : State) (tokensIn minQuoteOut : ℕ) : Except Revert CurveMath.SellQuote := do
  let (quoteReserve, tokenReserve) ← SupplyMath.pricingReserves st.reserves imm.phantomQuote
  CurveMath.quoteSell tokensIn tokenReserve quoteReserve imm.curveFeeBps imm.creatorTaxBps
    minQuoteOut

/-- `_realQuoteReserve`: the tracked quote without the accrued fees. -/
def realQuoteReserve (st : State) : Except Revert ℕ :=
  usub st.reserves.trackedQuote st.reserves.accruedQuoteFees

/-! ### Changes of storage -/

/-- The storage after a buy: the spent quote comes in, of which the fees accrue, and the
tokens leave. The curve is complete once nothing is left to sell. -/
def applyBuy (st : State) (q : CurveMath.BuyQuote) : Except Revert State := do
  let trackedQuote ← uadd st.reserves.trackedQuote q.quoteSpent
  let fees ← uadd q.fee q.additionalQuoteFee
  let allFees ← uadd fees q.creatorTaxFee
  let accruedQuoteFees ← uadd st.reserves.accruedQuoteFees allFees
  let accruedCreatorTax ← uadd st.accruedCreatorTax q.creatorTaxFee
  let trackedTokens ← usub st.reserves.trackedTokens q.tokensOut
  let reserves : TrackedReserves := { st.reserves with
    trackedQuote, accruedQuoteFees, trackedTokens }
  let sellable ← SupplyMath.sellableTokens reserves
  return { st with reserves, accruedCreatorTax, hasExecutedTrade := true,
                   completed := if sellable = 0 then true else st.completed }

/-- The storage after a sell: the tokens come in, the paid quote leaves, and the fees
accrue in what stays. -/
def applySell (st : State) (q : CurveMath.SellQuote) : Except Revert State := do
  let trackedTokens ← uadd st.reserves.trackedTokens q.tokensIn
  let trackedQuote ← usub st.reserves.trackedQuote q.quoteOut
  let fees ← uadd q.fee q.additionalQuoteFee
  let accruedQuoteFees ← uadd st.reserves.accruedQuoteFees fees
  let accruedCreatorTax ← uadd st.accruedCreatorTax q.additionalQuoteFee
  return { st with
    reserves := { st.reserves with trackedQuote, accruedQuoteFees, trackedTokens }
    accruedCreatorTax, hasExecutedTrade := true }

/-! ### Sweeping and graduating -/

/-- The identifier of a sweep. -/
def sweepFeeId (sourceVersion sweepNonce amount creatorTaxAmount : ℕ) : Bytes32 :=
  platform.keccak256 (.curveSweep "TICKERGARDEN_V1_CURVE_SWEEP" 1 platform.chainId
    imm.protocolFeeVault imm.self imm.marketId sourceVersion sweepNonce imm.quoteAsset amount
    creatorTaxAmount)

/-- The storage while a sweep is being credited: the nonce has moved, the fees have left
the tracked reserve, the creator tax is still to be reset. -/
def applySweep (st : State) (nonce : ℕ) : Except Revert State := do
  let swept := st.reserves.accruedQuoteFees
  let trackedQuote ← usub st.reserves.trackedQuote swept
  return { st with
    sweepNonce := nonce
    reserves := { st.reserves with accruedQuoteFees := 0, trackedQuote } }

/-- The two calls of a sweep to the fee vault, with the payment between them – or along
with the second, in the native currency. -/
def creditSweep (s : System W) (credit : CurveCredit) : Except Revert (System W) := do
  let rest ← calls.beginCurveCredit s.rest s.balances imm.self credit
  if imm.quoteAsset = 0 then
    let balances ← orRevert (s.balances.move 0 imm.self imm.protocolFeeVault credit.amount) .noReason
    let rest ← calls.finalizeCurveCredit rest balances imm.self credit.amount credit
    return { s with rest, balances }
  else
    let balances ←
      transferTokenExact imm.self imm.quoteAsset imm.protocolFeeVault credit.amount s.balances
    let rest ← calls.finalizeCurveCredit rest balances imm.self 0 credit
    return { s with rest, balances }

/-- `_sweepCurveFees`: move all accrued fees to the fee vault. -/
def sweepFees (view : MarketView) (s : System W) : Except Revert (System W × List Event) := do
  let sweptAmount := s.curve.reserves.accruedQuoteFees
  if sweptAmount = 0 then return (s, [])
  else
    revertIf (s.curve.sweepNonce = maxUint64) (.curve .sweepNonceOverflow)
    let nextNonce := s.curve.sweepNonce + 1
    let creatorTaxAmount := s.curve.accruedCreatorTax
    let feeId := sweepFeeId platform imm view.runtime.sourceVersion nextNonce sweptAmount
      creatorTaxAmount
    let swept ← applySweep s.curve nextNonce
    let s ← creditSweep calls imm { s with curve := swept } {
      marketId := imm.marketId, quoteAsset := imm.quoteAsset, amount := sweptAmount,
      creatorTaxAmount, sourceVersion := view.runtime.sourceVersion, sweepNonce := nextNonce, feeId }
    return ({ s with curve := { s.curve with accruedCreatorTax := 0 } },
      [.curveFeeTransferred imm.marketId nextNonce feeId sweptAmount])

/-- The collateral check of `_validateActualGraduationPlan`: the tokens left are the
reserved ones, and the quote left covers the canonical graduation quote. -/
def requireCollateral (st : State) (sweptQuote sweptTokens : ℕ) : Except Revert ℕ := do
  let poolQuoteAmount ← SupplyMath.canonicalGraduationQuote imm.initialSupply imm.phantomQuote
    imm.graduationThreshold
  revertIf (sweptTokens ≠ st.reserves.reservedTokens ∨ sweptQuote < poolQuoteAmount)
    (.curve .invalidInitialization)
  return poolQuoteAmount

/-- `_validateActualGraduationPlan`: the collateral is there, and the canonical amounts
have a pool. -/
def validateActualGraduationPlan (rest : W) (st : State) (sweptQuote sweptTokens : ℕ) :
    Except Revert PoolMath.PoolPlan := do
  let poolQuoteAmount ← requireCollateral imm st sweptQuote sweptTokens
  let (poolMemeAmount, _) ←
    SupplyMath.graduationPartition sweptTokens poolQuoteAmount imm.phantomQuote
  let key ← calls.canonicalPoolKey rest imm.marketId
  PoolMath.derive platform key imm.quoteAsset imm.memeToken poolQuoteAmount poolMemeAmount

/-- The swept quote goes to the executor: with the call, in the native currency, or
before it. The second component is the value sent with the call. -/
def payExecutor (sweptQuote : ℕ) (b : Balances) : Except Revert (Balances × ℕ) :=
  if imm.quoteAsset = 0 then do
    let paid ← orRevert (b.move 0 imm.self imm.graduationExecutor sweptQuote) .noReason
    return (paid, sweptQuote)
  else do
    let paid ← transferTokenExact imm.self imm.quoteAsset imm.graduationExecutor sweptQuote b
    return (paid, 0)

/-- Hand the reserve over to the executor, which graduates the market. -/
def transferToExecutor (s : System W) (sweptQuote sweptTokens : ℕ) :
    Except Revert (System W) := do
  let sent ←
    transferTokenExact imm.self imm.memeToken imm.graduationExecutor sweptTokens s.balances
  let (balances, value) ← payExecutor imm sweptQuote sent
  let (rest, transfers) ←
    calls.graduateFromCurve s.rest balances imm.self value imm.marketId sweptQuote sweptTokens
  let balances ← orRevert (Balances.moveAll imm.self transfers balances) .noReason
  return { s with rest, balances }

/-- `_finalizeLaunch`: sweep, check the plan, clear the reserves and graduate. -/
def finalizeLaunch (s : System W) : Except Revert (System W × List Event) := do
  let view ← requireRegisteredCurve calls imm s.rest
  revertIf (view.runtime.launchPhase ≠ launchPhaseNotGraduated)
    (.curve (.atomicGraduationNotCommitted imm.marketId view.runtime.launchPhase
      view.runtime.poolId))
  let (s, events) ← sweepFees platform calls imm view s
  let sweptQuote := s.curve.reserves.trackedQuote
  let sweptTokens := s.curve.reserves.trackedTokens
  let _ ← validateActualGraduationPlan platform calls imm s.rest s.curve sweptQuote sweptTokens
  let cleared : State := { s.curve with
    reserves := { s.curve.reserves with trackedQuote := 0, trackedTokens := 0 } }
  let s ← transferToExecutor calls imm { s with curve := cleared } sweptQuote sweptTokens
  let committed ← requireRegisteredCurve calls imm s.rest
  revertIf (committed.runtime.launchPhase ≠ launchPhasePoolCreated ∨ committed.runtime.poolId = 0)
    (.curve (.atomicGraduationNotCommitted imm.marketId committed.runtime.launchPhase
      committed.runtime.poolId))
  return (s, events)

/-! ### The entry points -/

/-- The part of a buy up to its payments: everything but a possible graduation. -/
def buyTrade (call : Call) (s : System W) (quoteIn minTokensOut : ℕ) (recipient : Address) :
    Except Revert (System W × List Event) := do
  let received ← receiveValue imm.self call s.balances
  let _ ← requireTradable calls imm s
  requireRecipient imm recipient
  let quote ← buyQuote imm s.curve call.timestamp quoteIn minTokensOut recipient call.caller
  let q := quote.curveQuote
  revertIf (¬ q.slippagePass) (.curve (.slippageExceeded q.tokensOut minTokensOut))
  let collected ← collectQuote imm.self imm.quoteAsset call quoteIn received
  let curve ← applyBuy s.curve q
  let delivered ← transferTokenExact imm.self imm.memeToken recipient q.tokensOut collected
  let surcharge ← uadd q.additionalQuoteFee q.creatorTaxFee
  let bought := Event.curveBuy call.caller recipient q.quoteSpent q.tokensOut q.fee surcharge
  if q.refund ≠ 0 then
    let balances ← transferQuoteExact imm.self imm.quoteAsset call.caller q.refund delivered
    return ({ s with curve, balances }, [.curveBuyRefunded call.caller q.refund, bought])
  else
    return ({ s with curve, balances := delivered }, [bought])

/-- **`buy`**: trade, and graduate in the same call when the curve completes. -/
def buy (call : Call) (s : System W) (quoteIn minTokensOut : ℕ) (recipient : Address) :
    Except Revert (System W × List Event) := do
  let (traded, events) ← buyTrade calls imm call s quoteIn minTokensOut recipient
  if traded.curve.completed then
    let (graduated, more) ← finalizeLaunch platform calls imm traded
    return (graduated, events ++ more ++ [.curveCompleted imm.marketId])
  else
    return (traded, events)

/-- **`sell`**. The function is not payable. -/
def sell (call : Call) (s : System W) (tokensIn minQuoteOut : ℕ) (recipient : Address) :
    Except Revert (System W × List Event) := do
  revertIf (call.value ≠ 0) .noReason
  let _ ← requireTradable calls imm s
  requireRecipient imm recipient
  let q ← sellQuote imm s.curve tokensIn minQuoteOut
  revertIf (¬ q.slippagePass) (.curve (.slippageExceeded q.quoteOut minQuoteOut))
  let realReserve ← realQuoteReserve s.curve
  revertIf (q.grossQuoteOut > realReserve)
    (.curve (.insufficientTrackedQuote realReserve q.grossQuoteOut))
  let collected ← collectTokenExact imm.self imm.memeToken call.caller tokensIn s.balances
  let curve ← applySell s.curve q
  let balances ← transferQuoteExact imm.self imm.quoteAsset recipient q.quoteOut collected
  return ({ s with curve, balances },
    [.curveSell call.caller recipient tokensIn q.quoteOut q.fee q.additionalQuoteFee])

/-- **`sweepCurveFees`**: anyone may sweep, until the market has graduated. -/
def sweepCurveFees (call : Call) (s : System W) : Except Revert (System W × List Event) := do
  revertIf (call.value ≠ 0) .noReason
  let view ← requireRegisteredCurve calls imm s.rest
  revertIf (view.runtime.launchPhase ≠ launchPhaseNotGraduated)
    (.curve (.curveFeeSweepAfterClose imm.marketId))
  sweepFees platform calls imm view s

/-! ### Deployment -/

/-- What the constructor reads of the contracts it is wired to. -/
structure Deployment where
  /-- Accounts with code. -/
  hasCode : Address → Bool
  marketRegistry : Address
  /-- `ICurveMarketRegistryDependencies.graduationExecutor` of that registry. -/
  registryGraduationExecutor : Address
  factory : Address
  tokenMarketId : Bytes32
  tokenCreator : Address
  tokenFactory : Address
  tokenInitialSupply : ℕ
  tokenTotalSupply : ℕ

/-- `_validateInitialization`. -/
def validateInitialization (d : Deployment) : Except Revert Unit := do
  revertIf (imm.marketId = 0 ∨ imm.tickerGardenBaselineId = 0 ∨ imm.quoteAssetConfigId = 0 ∨
      ¬ d.hasCode d.marketRegistry ∨ ¬ d.hasCode imm.protocolFeeVault ∨
      ¬ d.hasCode imm.graduationExecutor ∨ ¬ d.hasCode imm.launchRouter ∨ imm.creator = 0 ∨
      imm.beneficiaryAtCreation = 0 ∨ ¬ d.hasCode imm.memeToken ∨ imm.phantomQuote = 0 ∨
      imm.graduationThreshold = 0 ∨ imm.initialSupply = 0 ∨ imm.creatorTaxBps > 500)
    (.curve .invalidInitialization)
  let totalFee ← uadd imm.curveFeeBps imm.creatorTaxBps
  revertIf (totalFee > 9900 ∨ (imm.quoteAsset ≠ 0 ∧ ¬ d.hasCode imm.quoteAsset))
    (.curve .invalidInitialization)
  revertIf (d.tokenMarketId ≠ imm.marketId ∨ d.tokenCreator ≠ imm.creator ∨
      d.tokenFactory ≠ d.factory ∨ d.tokenInitialSupply ≠ imm.initialSupply ∨
      d.tokenTotalSupply ≠ imm.initialSupply ∨
      d.registryGraduationExecutor ≠ imm.graduationExecutor)
    (.curve .invalidInitialization)

/-- **The constructor**: validate, set the initial reserves, and check that the whole
supply is there. -/
def deploy (d : Deployment) (b : Balances) : Except Revert State := do
  validateInitialization imm d
  let reserves ← SupplyMath.initializeReserves imm.initialSupply imm.phantomQuote
    imm.graduationThreshold
  let actualBalance := b imm.memeToken imm.self
  revertIf (actualBalance ≠ imm.initialSupply)
    (.curve (.invalidInitialTokenBalance imm.initialSupply actualBalance))
  return { reserves, accruedCreatorTax := 0, sweepNonce := 0, hasExecutedTrade := false,
           completed := false }

/-! ### The machine -/

/-- A curve as its constructor leaves it: the initial reserves of an accepted economics,
and the whole supply in its account. -/
def Init (s : System W) : Prop :=
  ∃ reserves, SupplyMath.initializeReserves imm.initialSupply imm.phantomQuote
      imm.graduationThreshold = .ok reserves ∧
    s.curve = { reserves, accruedCreatorTax := 0, sweepNonce := 0, hasExecutedTrade := false,
                completed := false } ∧
    s.balances imm.memeToken imm.self = imm.initialSupply

/-- Every deployment is an initial state. -/
theorem init_of_deploy {d : Deployment} {s : System W}
    (h : deploy imm d s.balances = .ok s.curve) : Init imm s := by
  simp only [deploy, bind_eq_ok, revertIf_eq_ok, pure_eq_ok, Except.ok.injEq, not_not] at h
  obtain ⟨-, -, reserves, hreserves, -, hbalance, hcurve⟩ := h
  exact ⟨reserves, hreserves, hcurve.symm, hbalance⟩

/-- **One step**: a successful call by an account other than the curve, or a step of
the rest of the world, which cannot take the curve's assets. -/
inductive Step : System W → List Event → System W → Prop
  | buy {s s' : System W} {events : List Event} (call : Call) (quoteIn minTokensOut : ℕ)
      (recipient : Address) (hcaller : call.caller ≠ imm.self)
      (h : buy platform calls imm call s quoteIn minTokensOut recipient = .ok (s', events)) :
      Step s events s'
  | sell {s s' : System W} {events : List Event} (call : Call) (tokensIn minQuoteOut : ℕ)
      (recipient : Address) (hcaller : call.caller ≠ imm.self)
      (h : sell calls imm call s tokensIn minQuoteOut recipient = .ok (s', events)) :
      Step s events s'
  | sweep {s s' : System W} {events : List Event} (call : Call)
      (h : sweepCurveFees platform calls imm call s = .ok (s', events)) :
      Step s events s'
  | environment (s : System W) (rest : W) (balances : Balances)
      (h : ∀ asset, s.balances asset imm.self ≤ balances asset imm.self) :
      Step s [] { s with rest, balances }

/-- The states a deployed curve can reach. -/
abbrev Reachable (s : System W) : Prop :=
  Transition.Reachable (Step platform calls imm) (Init imm) s

end Contract

end Curve

end TickerGarden
