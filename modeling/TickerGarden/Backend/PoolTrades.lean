import Mathlib.Data.List.Sort
import TickerGarden.Backend.Analytics

/-!
# The trades of a transaction

`normalizeTransaction` of the analytics service: the trades that the logs of one transaction
tell, of curves and of pools. The swap of a pool is paired with the fee its hook took, which
is logged after it and before the next swap; a conversion summary marks the one swap before it
that it describes as internal.

What a transaction of the chain looks like, and when all of it is accepted, is in
`TickerGarden.Backend.TransactionTrades`.
-/

namespace TickerGarden

open Checked

namespace Backend

namespace Analytics

/-- `MarketBinding`, with its pool. -/
structure PooledBinding extends MarketBinding where
  hook : Address
  poolId : Option Bytes32
  lpFeePips : Option ℕ
  currency0 : Option Address
  currency1 : Option Address

/-! ### Reading an argument -/

/-- `int128`: a value that is one. -/
def int128 (value : Option ArgValue) (label : String) : Except JsError ℤ :=
  match value with
  | some (.bigint n) =>
    if n < -(2 ^ 127) ∨ n > 2 ^ 127 - 1 then throwJs (label ++ " exceeds int128") else .ok n
  | _ => throwJs (label ++ " is not int128")

/-- `hex32`: a value that is a word. -/
def hex32 (value : Option ArgValue) (label : String) : Except JsError Bytes32 :=
  match value with
  | some (.bytes32 hash) => .ok hash
  | _ => throwJs (label ++ " is not bytes32")

/-- An address, if the value is one. -/
def addressOrNull (value : Option ArgValue) : Option Address :=
  match value with
  | some (.address a) => some a
  | _ => none

/-! ### A swap -/

/-- The change of an asset of a pool. -/
def deltaOf (asset currency0 currency1 : Address) (amount0 amount1 : ℤ) : Option ℤ :=
  if asset = currency0 then some amount0 else if asset = currency1 then some amount1 else none

/-- The fee event of a swap, checked against it: its asset and its amount. -/
def pairedFee (binding : PooledBinding) (meme quote : ℕ) (feeEvent : DecodedProtocolEvent) :
    Except JsError (Address × ℕ) := do
  throwIf (feeEvent.log.address ≠ binding.hook) "pool fee emitter mismatch"
  throwIf (feeEvent.args .marketId ≠ some (.bytes32 binding.marketId) ∨
      feeEvent.args .poolId ≠ binding.poolId.map .bytes32)
    "pool fee identity mismatch"
  let feeAsset ← address (feeEvent.args .feeAsset) "fee asset"
  throwIf (feeAsset ≠ binding.memeAsset ∧ feeAsset ≠ binding.quoteAsset) "pool fee asset mismatch"
  let base ← uint256 (feeEvent.args .base) "fee base"
  let total ← uint256 (feeEvent.args .totalFee) "total fee"
  let lp ← uint256 (feeEvent.args .lpAmount) "LP fee"
  let nonLp ← uint256 (feeEvent.args .nonLpAmount) "non-LP fee"
  throwIf (total = 0 ∨ lp + nonLp ≠ total ∨
      base ≠ if feeAsset = binding.memeAsset then meme else quote)
    "pool fee amount mismatch"
  return (feeAsset, total)

/-- The fee of a swap, if there is an event of one. -/
def feeOf (binding : PooledBinding) (meme quote : ℕ) :
    Option DecodedProtocolEvent → Except JsError (Option (Address × ℕ))
  | none => .ok none
  | some feeEvent => some <$> pairedFee binding meme quote feeEvent

/-- The pool of a binding: its identifier and its currencies. -/
def poolOf (binding : PooledBinding) : Except JsError (Bytes32 × Address × Address) :=
  match binding.poolId, binding.currency0, binding.currency1 with
  | some poolId, some currency0, some currency1 =>
    if currency0 < currency1 then .ok (poolId, currency0, currency1)
    else throwJs "invalid pool binding"
  | _, _, _ => throwJs "invalid pool binding"

/-- Both changes of a swap that moves both assets. -/
def memeAndQuote (binding : PooledBinding) (currency0 currency1 : Address) (amount0 amount1 : ℤ) :
    Except JsError (ℤ × ℤ) :=
  match deltaOf binding.memeAsset currency0 currency1 amount0 amount1,
    deltaOf binding.quoteAsset currency0 currency1 amount0 amount1 with
  | some memeDelta, some quoteDelta =>
    if (memeDelta < 0) ↔ (quoteDelta < 0) then throwJs "pool assets do not match binding"
    else .ok (memeDelta, quoteDelta)
  | _, _ => throwJs "pool assets do not match binding"

/-- **`normalizePool`**: a swap of a pool as an activity of its market. -/
def normalizePool (observation : EventObservation) (binding : PooledBinding)
    (feeEvent : Option DecodedProtocolEvent) : Except JsError TradeActivity := do
  let event := observation.event
  let (_, currency0, currency1) ← poolOf binding
  let amount0 ← int128 (event.args .amount0) "amount0"
  let amount1 ← int128 (event.args .amount1) "amount1"
  throwIf ((amount0 < 0 ↔ amount1 < 0) ∨ amount0 = 0 ∨ amount1 = 0) "invalid pool core deltas"
  let lpFee := binding.lpFeePips.getD 0
  let actualFee ← uint256 (event.args .fee) "pool fee"
  throwIf (lpFee ∉ [0, 1000, 2000, 3000] ∨ actualFee < lpFee ∨
      actualFee > lpFee + 1000 - lpFee * 1000 / 1000000)
    "invalid pool fee"
  let (memeDelta, quoteDelta) ← memeAndQuote binding currency0 currency1 amount0 amount1
  let meme := memeDelta.natAbs
  let quote := quoteDelta.natAbs
  let fee ← feeOf binding meme quote feeEvent
  let sender := addressOrNull (event.args .sender)
  let source ← source event binding.chainId
  let price ← price meme quote binding.quoteDecimals
  return { source, venue := .pool, marketId := binding.marketId,
           timestamp := observation.timestamp, side := if memeDelta > 0 then .buy else .sell,
           classification := .unclassified, actor := sender,
           actorConfidence :=
             if sender.isSome then .contractCallerNotVerifiedWallet else .unavailable,
           recipient := none, memeAsset := binding.memeAsset, quoteAsset := binding.quoteAsset,
           quoteDecimals := binding.quoteDecimals, memeRaw := meme, quoteRaw := quote,
           amountBasis := .poolCore, price, feeRaw := fee.map fun f => (f.2 : ℤ),
           feeAsset := fee.map Prod.fst, taxRaw := none,
           feeStatus := if fee.isSome then .pairedEvent else .notProvided }

/-! ### A transaction -/

/-- `compareObservations`, as an order: by block, transaction and log. -/
def Precedes (a b : EventObservation) : Prop :=
  a.event.log.blockNumber < b.event.log.blockNumber ∨
    a.event.log.blockNumber = b.event.log.blockNumber ∧
      (a.event.log.transactionIndex < b.event.log.transactionIndex ∨
        a.event.log.transactionIndex = b.event.log.transactionIndex ∧
          a.event.log.logIndex ≤ b.event.log.logIndex)

instance : DecidableRel Precedes := fun _ _ => inferInstanceAs (Decidable (_ ∨ _))

/-- `assertSingleOrderedTransaction`. -/
def assertSingleOrderedTransaction : List EventObservation → Except JsError Unit
  | left :: right :: rest => do
    throwIf (left.event.log.blockHash ≠ right.event.log.blockHash ∨
        left.event.log.transactionHash ≠ right.event.log.transactionHash ∨
        left.event.log.logIndex ≥ right.event.log.logIndex)
      "observations must be one ordered transaction"
    assertSingleOrderedTransaction (right :: rest)
  | _ => .ok ()

/-- `uniqueMap`, with the keys that are there. -/
def uniqueMap {κ τ : Type} [DecidableEq κ] (values : List τ) (key : τ → κ) :
    Except JsError (List (κ × τ)) :=
  values.foldlM (fun result value => do
    throwIf (key value ∈ result.map Prod.fst) "duplicate analytics binding"
    return result ++ [(key value, value)]) []

/-- Whether an event is a trade on a curve. -/
def isCurveTrade (event : DecodedProtocolEvent) : Bool :=
  event.module = .tickerGardenCurve ∧ (event.eventName = .curveBuy ∨ event.eventName = .curveSell)

/-- Whether an event is a swap of a pool. -/
def isSwap (event : DecodedProtocolEvent) : Bool :=
  event.module = .uniswapV4PoolManager ∧ event.eventName = .swap

/-- Whether an event is the fee of a pool of a market. -/
def isPoolFee (poolId marketId : Bytes32) (event : DecodedProtocolEvent) : Bool :=
  event.module = .tickerGardenMemeHook ∧ event.eventName = .v4FeeAccrued ∧
    event.args .poolId = some (.bytes32 poolId) ∧ event.args .marketId = some (.bytes32 marketId)

/-- The fee events between a swap and the next one. -/
def feesAfter (poolId marketId : Bytes32) (rest : List EventObservation) :
    List EventObservation :=
  (rest.takeWhile fun o => !isSwap o.event).filter fun o => isPoolFee poolId marketId o.event

/-- The trade an observation tells, if it tells one; a fee is looked for in the rest. -/
def tradeOf (byCurve : List (Address × PooledBinding)) (byPool : List (Bytes32 × PooledBinding))
    (observation : EventObservation) (rest : List EventObservation) :
    Except JsError (Option TradeActivity) :=
  let event := observation.event
  if isCurveTrade event then
    match byCurve.lookup event.log.address with
    | none => throwJs "curve trade has no authenticated market binding"
    | some binding => some <$> normalizeCurve observation binding.toMarketBinding
  else if isSwap event then do
    let poolId ← hex32 (event.args .id) "pool id"
    match byPool.lookup poolId with
    | none => return none
    | some binding =>
      let fees := feesAfter poolId binding.marketId rest
      throwIf (fees.length > 1) "pool execution has ambiguous fee events"
      some <$> normalizePool observation binding (fees.head?.map EventObservation.event)
  else .ok none

/-- The first loop of `normalizeTransaction`. -/
def tradesOf (byCurve : List (Address × PooledBinding)) (byPool : List (Bytes32 × PooledBinding)) :
    List EventObservation → Except JsError (List TradeActivity)
  | [] => .ok []
  | observation :: rest => do
    let trade ← tradeOf byCurve byPool observation rest
    let trades ← tradesOf byCurve byPool rest
    return trade.toList ++ trades

/-- `conversionClassification`, with the address of the fee vault. -/
def conversionClassification (feeVault : Address) (event : DecodedProtocolEvent) :
    Except JsError (Option TradeClassification) :=
  if event.module ≠ .protocolFeeVault ∨ event.log.address ≠ feeVault then .ok none
  else if event.eventName = .rewardBatchConverted then do
    let nonce ← uint256 (event.args .nonce) "conversion nonce"
    throwIf (nonce = 0) "invalid conversion nonce"
    return some .internalRewardConversion
  else if event.eventName = .holderRewardsConverted then do
    let epochId ← uint256 (event.args .epochId) "holder epoch"
    throwIf (epochId ≥ 2 ^ 32) "invalid holder epoch"
    return some .internalHolderConversion
  else .ok none

/-- Whether a trade is the one a conversion summary describes. -/
def describes (logIndex : ℕ) (marketId : Bytes32) (hook meme quote : Address)
    (memeSpent quoteReceived : ℕ) (trade : TradeActivity) : Bool :=
  trade.source.logIndex < logIndex ∧ trade.marketId = marketId ∧ trade.venue = .pool ∧
    trade.actor = some hook ∧ trade.memeAsset = meme ∧ trade.quoteAsset = quote ∧
    trade.side = .sell ∧ trade.memeRaw = memeSpent ∧ trade.quoteRaw = quoteReceived ∧
    trade.classification = .unclassified

/-- The second loop of `normalizeTransaction`, one observation. The candidate and the check
that it is the only one are one search here: the trades are kept in the order of their logs. -/
def linkConversion (feeVault : Address) (bindings : List PooledBinding)
    (trades : List TradeActivity) (observation : EventObservation) :
    Except JsError (List TradeActivity) := do
  let event := observation.event
  match ← conversionClassification feeVault event with
  | none => return trades
  | some classification =>
    let marketId ← hex32 (event.args .marketId) "conversion market"
    let meme ← address (event.args .memeAsset) "conversion meme asset"
    let quote ← address (event.args .quoteAsset) "conversion quote asset"
    match bindings.find? fun binding => binding.marketId = marketId with
    | none => throwJs "conversion summary has no market binding"
    | some binding =>
      let memeSpent ← uint256 (event.args .memeSpent) "conversion meme amount"
      let quoteReceived ← uint256 (event.args .quoteReceived) "conversion quote amount"
      let candidate := describes event.log.logIndex marketId binding.hook meme quote memeSpent
        quoteReceived
      throwIf (¬trades.any candidate) "conversion summary has no unique preceding pool execution"
      throwIf ((trades.filter candidate).length ≠ 1) "conversion summary is ambiguous"
      return trades.map fun trade => if candidate trade then { trade with classification } else trade

/-- **`normalizeTransaction`.** -/
def normalizeTransaction (feeVault : Address) (observations : List EventObservation)
    (bindings : List PooledBinding) : Except JsError (List TradeActivity) := do
  throwIf (observations.length > 10000 ∨ bindings.length > 10000) "analytics input exceeds bound"
  let ordered := observations.insertionSort Precedes
  assertSingleOrderedTransaction ordered
  let byCurve ← uniqueMap (bindings.filter fun b => b.curve ≠ 0) fun b => b.curve
  let byPool ← uniqueMap (bindings.filterMap fun b => b.poolId.map fun poolId => (poolId, b))
    Prod.fst
  let trades ← tradesOf byCurve (byPool.map fun entry => (entry.1, entry.2.2)) ordered
  ordered.foldlM (linkConversion feeVault bindings) trades

end Analytics

end Backend

end TickerGarden
