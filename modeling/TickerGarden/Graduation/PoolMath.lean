import Mathlib.Data.Nat.Sqrt
import TickerGarden.Curve.SupplyMath
import TickerGarden.Platform

/-!
# The pool a market graduates into

`TickerGarden.PoolMath.derive` is the derivation of `GraduationPoolMath`: from the key
of the pool and the two amounts that enter it, the price, the full-range ticks, the
liquidity, and the amounts the position takes. `TickerGarden.EconomicDomain.validate`
is the check of `V1GraduationEconomicDomain` that admits an economics: it runs the
derivation twice, once for each order of the two currencies, on a synthetic key.

A derivation reads little of its key. Apart from the identifier of the pool, all of
it is a function of the tick spacing and of the two amounts in the order of the
currencies – `TickerGarden.PoolMath.deriveAmounts` – so that a synthetic key and the
canonical key of a market, whose shape is checked the same way, have the same plan.
That is `TickerGarden.PoolMath.derive_eq_ok`.
-/

namespace TickerGarden

open Checked

namespace StaticLPFee

/-- The static LP fees a creator can choose. -/
def isAllowed (feePips : ℕ) : Bool :=
  feePips == 0 || feePips == 1000 || feePips == 2000 || feePips == 3000

/-- Refuse any other fee. -/
def validate (feePips : ℕ) : Except Revert Unit :=
  revertIf (¬ isAllowed feePips) (.staticLPFee (.invalidLPFee feePips))

end StaticLPFee

namespace PoolMath

/-- `HOOK_PERMISSION_MASK`. -/
def hookPermissionMask : Address := 0x2044

/-- `ALL_HOOK_PERMISSION_BITS`. -/
def allHookPermissionBits : Address := 0x3fff

/-- `TickMath.MIN_SQRT_PRICE`. -/
def minSqrtPrice : ℕ := 4295128739

/-- `TickMath.MAX_SQRT_PRICE`. -/
def maxSqrtPrice : ℕ := 1461446703485210103287273052203988822378723970342

/-- `TickMath.MIN_TICK`. -/
def minTick : ℤ := -887272

/-- `TickMath.MAX_TICK`. -/
def maxTick : ℤ := 887272

/-- What a pool is opened with. -/
structure PoolPlan where
  poolId : Bytes32
  amount0 : ℕ
  amount1 : ℕ
  sqrtPriceX96 : ℕ
  initialTick : ℤ
  tickLower : ℤ
  tickUpper : ℤ
  liquidity : ℕ
  mintAmount0 : ℕ
  mintAmount1 : ℕ
deriving DecidableEq

/-! ### The source functions -/

/-- `FullMath.mulDiv`: a full-precision floor, without a reason when it overflows. -/
def fullMulDiv (a b denominator : ℕ) : Except Revert ℕ := do
  revertIf (denominator = 0 ∨ a * b / denominator > maxUint256) .noReason
  return a * b / denominator

/-- `_sqrtPriceX96`: the square root of the price, in 96-bit fixed point; with the
high-precision quotient when it fits in a word. -/
def sqrtPriceX96 (amount0 amount1 : ℕ) : Except Revert ℕ := do
  let raw ←
    if amount1 < amount0 * 2 ^ 64 % 2 ^ 256 then do
      let quotient ← fullMulDiv amount1 (2 ^ 192) amount0
      pure (Nat.sqrt quotient)
    else do
      let quotient ← fullMulDiv amount1 (2 ^ 128) amount0
      pure (Nat.sqrt quotient * 2 ^ 32 % 2 ^ 256)
  revertIf (raw > 2 ^ 160 - 1) (.graduationPoolMath (.invalidGraduationSqrtPrice raw))
  return raw

/-- What `_validateKey` requires: the two currencies in order, an allowed fee, a tick
spacing in range, and a hook with exactly the permissions of ours. -/
def ValidKey (key : PoolKey) (quoteAsset memeToken : Address) : Prop :=
  memeToken ≠ 0 ∧ quoteAsset ≠ memeToken ∧
    key.currency0 = (if quoteAsset < memeToken then quoteAsset else memeToken) ∧
    key.currency1 = (if quoteAsset < memeToken then memeToken else quoteAsset) ∧
    key.currency0 < key.currency1 ∧ StaticLPFee.isAllowed key.fee ∧
    1 ≤ key.tickSpacing ∧ key.tickSpacing ≤ 32767 ∧ key.hooks ≠ 0 ∧
    key.hooks &&& allHookPermissionBits = hookPermissionMask

instance (key : PoolKey) (quoteAsset memeToken : Address) :
    Decidable (ValidKey key quoteAsset memeToken) :=
  inferInstanceAs (Decidable (_ ∧ _))

/-- `_validateKey`. -/
def validateKey (key : PoolKey) (quoteAsset memeToken : Address) : Except Revert Unit :=
  revertIf (¬ ValidKey key quoteAsset memeToken) (.graduationPoolMath .invalidGraduationPoolKey)

section Derive

variable (platform : Platform)

/-- The part of `derive` that follows the choice of the amounts: price, ticks,
liquidity and minted amounts, for a pool of a given identifier. -/
def deriveAmounts (poolId : Bytes32) (tickSpacing : ℤ) (amount0 amount1 : ℕ) :
    Except Revert PoolPlan := do
  revertIf (amount0 = 0 ∨ amount1 = 0 ∨ amount0 > maxInt128 ∨ amount1 > maxInt128)
    (.graduationPoolMath (.invalidGraduationPoolAmounts amount0 amount1))
  let sqrtPriceX96 ← sqrtPriceX96 amount0 amount1
  revertIf (sqrtPriceX96 ≤ minSqrtPrice ∨ sqrtPriceX96 ≥ maxSqrtPrice)
    (.graduationPoolMath (.invalidGraduationSqrtPrice sqrtPriceX96))
  let initialTick ← platform.getTickAtSqrtPrice sqrtPriceX96
  let tickLower := (minTick.tdiv tickSpacing) * tickSpacing
  let tickUpper := (maxTick.tdiv tickSpacing) * tickSpacing
  let sqrtLower ← platform.getSqrtPriceAtTick tickLower
  let sqrtUpper ← platform.getSqrtPriceAtTick tickUpper
  let liquidity ←
    platform.getLiquidityForAmounts sqrtPriceX96 sqrtLower sqrtUpper amount0 amount1
  let maximumLiquidity ← platform.tickSpacingToMaxLiquidityPerTick tickSpacing
  revertIf (liquidity = 0 ∨ liquidity > maximumLiquidity)
    (.graduationPoolMath (.invalidGraduationLiquidity liquidity maximumLiquidity))
  let mintAmount0 ← platform.getAmount0Delta sqrtPriceX96 sqrtUpper liquidity true
  let mintAmount1 ← platform.getAmount1Delta sqrtLower sqrtPriceX96 liquidity true
  revertIf (mintAmount0 = 0 ∨ mintAmount1 = 0 ∨ mintAmount0 > amount0 ∨ mintAmount1 > amount1)
    (.graduationPoolMath (.invalidGraduationLiquidity liquidity maximumLiquidity))
  return { poolId, amount0, amount1, sqrtPriceX96, initialTick, tickLower, tickUpper, liquidity,
           mintAmount0, mintAmount1 }

/-- **The derivation of a pool**: validate the key, put the amounts in the order of
its currencies, and derive the rest. -/
def derive (key : PoolKey) (quoteAsset memeToken : Address) (sweptQuote poolMemeAmount : ℕ) :
    Except Revert PoolPlan := do
  validateKey key quoteAsset memeToken
  let amounts := if quoteAsset = key.currency0 then (sweptQuote, poolMemeAmount)
    else (poolMemeAmount, sweptQuote)
  deriveAmounts platform (platform.keccak256 (.poolKey key)) key.tickSpacing amounts.1 amounts.2

/-! ### What a derivation says -/

variable {platform} {poolId poolId' : Bytes32} {tickSpacing : ℤ} {amount0 amount1 : ℕ}
  {plan : PoolPlan}

/-- **The facts of a plan**: the amounts it was made from, which the minted amounts
do not exceed. -/
structure PoolPlan.Sound (plan : PoolPlan) (poolId : Bytes32) (amount0 amount1 : ℕ) : Prop where
  poolId_eq : plan.poolId = poolId
  amount0_eq : plan.amount0 = amount0
  amount1_eq : plan.amount1 = amount1
  mintAmount0_le : plan.mintAmount0 ≤ amount0
  mintAmount1_le : plan.mintAmount1 ≤ amount1

theorem deriveAmounts_sound
    (h : deriveAmounts platform poolId tickSpacing amount0 amount1 = .ok plan) :
    plan.Sound poolId amount0 amount1 := by
  simp only [deriveAmounts, bind_eq_ok, revertIf_eq_ok, pure_eq_ok, Except.ok.injEq, not_or,
    not_lt] at h
  obtain ⟨-, -, _, -, -, -, _, -, _, -, _, -, _, -, _, -, -, -, _, -, _, -, -, ⟨-, -, h0, h1⟩,
    rfl⟩ := h
  exact ⟨rfl, rfl, rfl, h0, h1⟩

/-- **The identifier of the pool plays no part in the derivation**: it is only
recorded in the plan. -/
theorem deriveAmounts_poolId
    (h : deriveAmounts platform poolId tickSpacing amount0 amount1 = .ok plan) :
    deriveAmounts platform poolId' tickSpacing amount0 amount1
      = .ok { plan with poolId := poolId' } := by
  simp only [deriveAmounts, bind_eq_ok, pure_eq_ok, Except.ok.injEq] at h ⊢
  obtain ⟨u1, h1, price, hprice, u2, h2, tick, htick, lower, hlower, upper, hupper, liq, hliq, mx,
    hmx, u3, h3, m0, hm0, m1, hm1, u4, h4, rfl⟩ := h
  exact ⟨u1, h1, price, hprice, u2, h2, tick, htick, lower, hlower, upper, hupper, liq, hliq, mx,
    hmx, u3, h3, m0, hm0, m1, hm1, u4, h4, rfl⟩

/-- A derivation succeeds exactly when the key is valid and the amounts, in the
order of the currencies, have a plan. -/
theorem derive_eq_ok {key : PoolKey} {quoteAsset memeToken : Address}
    {sweptQuote poolMemeAmount : ℕ} :
    derive platform key quoteAsset memeToken sweptQuote poolMemeAmount = .ok plan ↔
      ValidKey key quoteAsset memeToken ∧
      deriveAmounts platform (platform.keccak256 (.poolKey key)) key.tickSpacing
        (if quoteAsset < memeToken then sweptQuote else poolMemeAmount)
        (if quoteAsset < memeToken then poolMemeAmount else sweptQuote) = .ok plan := by
  simp only [derive, validateKey, bind_eq_ok, revertIf_eq_ok, not_not, exists_const]
  refine and_congr_right fun hkey => ?_
  obtain ⟨-, hne, h0, -⟩ := hkey
  by_cases hlt : quoteAsset < memeToken
  · rw [if_pos hlt] at h0
    rw [if_pos h0.symm, if_pos hlt, if_pos hlt]
  · rw [if_neg hlt] at h0
    have : quoteAsset ≠ key.currency0 := fun h => hne (h.trans h0)
    rw [if_neg this, if_neg hlt, if_neg hlt]

end Derive

end PoolMath

/-! ### The v4 libraries by their documented formulas

A platform on which a derivation can be run. The libraries are computed as documented; in
the place of the hash there is a function of all the words of a tuple. -/

namespace DocumentedV4

/-- `Q96`. -/
def q96 : ℕ := 2 ^ 96

/-- `LiquidityAmounts.getLiquidityForAmount0`. -/
def getLiquidityForAmount0 (sqrtA sqrtB amount0 : ℕ) : Except Revert ℕ := do
  let intermediate ← PoolMath.fullMulDiv sqrtA sqrtB q96
  PoolMath.fullMulDiv amount0 intermediate (sqrtB - sqrtA)

/-- `LiquidityAmounts.getLiquidityForAmount1`. -/
def getLiquidityForAmount1 (sqrtA sqrtB amount1 : ℕ) : Except Revert ℕ :=
  PoolMath.fullMulDiv amount1 q96 (sqrtB - sqrtA)

/-- `LiquidityAmounts.getLiquidityForAmounts`. -/
def getLiquidityForAmounts (sqrtPrice sqrtA sqrtB amount0 amount1 : ℕ) : Except Revert ℕ :=
  let lower := min sqrtA sqrtB
  let upper := max sqrtA sqrtB
  if sqrtPrice ≤ lower then getLiquidityForAmount0 lower upper amount0
  else if sqrtPrice < upper then do
    let liquidity0 ← getLiquidityForAmount0 sqrtPrice upper amount0
    let liquidity1 ← getLiquidityForAmount1 lower sqrtPrice amount1
    return min liquidity0 liquidity1
  else getLiquidityForAmount1 lower upper amount1

/-- The quotient of naturals, rounded as asked. -/
def divRounding (n d : ℕ) (roundUp : Bool) : ℕ := if roundUp then (n + d - 1) / d else n / d

/-- `SqrtPriceMath.getAmount0Delta`. -/
def getAmount0Delta (sqrtA sqrtB liquidity : ℕ) (roundUp : Bool) : Except Revert ℕ :=
  let lower := min sqrtA sqrtB
  let upper := max sqrtA sqrtB
  .ok (divRounding (divRounding (liquidity * q96 * (upper - lower)) upper roundUp) lower roundUp)

/-- `SqrtPriceMath.getAmount1Delta`. -/
def getAmount1Delta (sqrtA sqrtB liquidity : ℕ) (roundUp : Bool) : Except Revert ℕ :=
  .ok (divRounding (liquidity * (max sqrtA sqrtB - min sqrtA sqrtB)) q96 roundUp)

/-- `Pool.tickSpacingToMaxLiquidityPerTick`. -/
def tickSpacingToMaxLiquidityPerTick (tickSpacing : ℤ) : Except Revert ℕ :=
  let ticks := PoolMath.maxTick / tickSpacing - PoolMath.minTick / tickSpacing + 1
  .ok ((2 ^ 128 - 1) / ticks.toNat)

/-- `TickMath.getSqrtPriceAtTick`: for each bit of the tick, the factor by which it divides the
square root of the price, in 128-bit fixed point. -/
def tickFactors : List ℕ :=
  [0xfffcb933bd6fad37aa2d162d1a594001, 0xfff97272373d413259a46990580e213a,
    0xfff2e50f5f656932ef12357cf3c7fdcc, 0xffe5caca7e10e4e61c3624eaa0941cd0,
    0xffcb9843d60f6159c9db58835c926644, 0xff973b41fa98c081472e6896dfb254c0,
    0xff2ea16466c96a3843ec78b326b52861, 0xfe5dee046a99a2a811c461f1969c3053,
    0xfcbe86c7900a88aedcffc83b479aa3a4, 0xf987a7253ac413176f2b074cf7815e54,
    0xf3392b0822b70005940c7a398e4b70f3, 0xe7159475a2c29b7443b29c7fa6e889d9,
    0xd097f3bdfd2022b8845ad8f792aa5825, 0xa9f746462d870fdf8a65dc1f90e061e5,
    0x70d869a156d2a1b890bb3df62baf32f7, 0x31be135f97d08fd981231505542fcfa6,
    0x9aa508b5b7a84e1c677de54f3e99bc9, 0x5d6af8dedb81196699c329225ee604,
    0x2216e584f5fa1ea926041bedfe98, 0x48a170391f7dc42444e8fa2]

/-- `TickMath.getSqrtPriceAtTick`. -/
def getSqrtPriceAtTick (tick : ℤ) : Except Revert ℕ := do
  revertIf (tick.natAbs > PoolMath.maxTick.natAbs) .noReason
  let ratio := tickFactors.zipIdx.foldl
    (fun ratio factor => if tick.natAbs.testBit factor.2 then ratio * factor.1 / 2 ^ 128 else ratio)
    (2 ^ 128)
  let price := if tick > 0 then (2 ^ 256 - 1) / ratio else ratio
  return (price + (2 ^ 32 - 1)) / 2 ^ 32

/-- The greatest tick from a least one whose price is not above the given one, by bisection. -/
def greatestTick (price : ℕ) : ℕ → ℤ → ℤ → ℤ
  | 0, least, _ => least
  | fuel + 1, least, greatest =>
    if greatest ≤ least then least
    else
      let middle := (least + greatest + 1) / 2
      match getSqrtPriceAtTick middle with
      | .ok p => if p ≤ price then greatestTick price fuel middle greatest
          else greatestTick price fuel least (middle - 1)
      | .error _ => least

/-- `TickMath.getTickAtSqrtPrice`: the greatest tick whose price is not above the given one. -/
def getTickAtSqrtPrice (price : ℕ) : Except Revert ℤ := do
  revertIf (price < PoolMath.minSqrtPrice ∨ price ≥ PoolMath.maxSqrtPrice) .noReason
  return greatestTick price 21 PoolMath.minTick PoolMath.maxTick

/-- The prices at the two extreme ticks are those of the library. -/
example : (getSqrtPriceAtTick PoolMath.minTick).toOption = some PoolMath.minSqrtPrice ∧
    (getSqrtPriceAtTick PoolMath.maxTick).toOption = some PoolMath.maxSqrtPrice := by
  decide +kernel

/-! ### A function in the place of the hash -/

/-- The characters of a text. -/
def characters (value : String) : List ℕ := value.toList.map Char.toNat

/-- The words of a tuple, after the number of its kind. -/
def words : Preimage → List ℕ
  | .text value => 1 :: characters value
  | .poolKey key => [2, key.currency0.toNat, key.currency1.toNat, key.fee,
      (key.tickSpacing % 2 ^ 256).toNat, key.hooks.toNat]
  | .quoteEconomics domain schemaVersion chainId baselineId quoteAsset quoteDecimals phantomQuote
      graduationThreshold => 3 :: characters domain ++ [schemaVersion, chainId, baselineId.toNat,
      quoteAsset.toNat, quoteDecimals, phantomQuote, graduationThreshold]
  | .fingerprint value => 4 :: fingerprintWords value
  | .stockQuoteFingerprint domain schemaVersion chainId assetUid stockToken tokenDecimals
      fingerprint => 5 :: characters domain ++ [schemaVersion, chainId, assetUid.toNat,
      stockToken.toNat, tokenDecimals] ++ fingerprintWords fingerprint
  | .stockQuoteEconomics domain schemaVersion chainId baselineId quoteAsset quoteDecimals
      phantomQuote graduationThreshold binding => 6 :: characters domain ++ [schemaVersion, chainId,
      baselineId.toNat, quoteAsset.toNat, quoteDecimals, phantomQuote, graduationThreshold,
      binding.assetUid.toNat, binding.stockTokenFingerprintHash.toNat,
      binding.referenceEvidenceHash.toNat, binding.generatorPolicyId.toNat]
  | .curveSweep domain schemaVersion chainId feeVault curve marketId sourceVersion sweepNonce
      quoteAsset amount creatorTaxAmount => 7 :: characters domain ++ [schemaVersion, chainId,
      feeVault.toNat, curve.toNat, marketId.toNat, sourceVersion, sweepNonce, quoteAsset.toNat,
      amount, creatorTaxAmount]
  | .feePolicy domain schemaVersion executionSpecId feePips lpShareBps poolKeyFee hookPermissionMask
      feeAssetMode stakerNonLpShareBps platformNonLpShareBps => 8 :: characters domain ++
      [schemaVersion, executionSpecId.toNat, feePips, lpShareBps, poolKeyFee,
      hookPermissionMask.toNat, feeAssetMode, stakerNonLpShareBps, platformNonLpShareBps]
  | .v4Fee domain schemaVersion chainId feeVault poolManager poolId marketId sourceVersion feeNonce
      feeAsset base totalFee feePolicyHash => 9 :: characters domain ++ [schemaVersion, chainId,
      feeVault.toNat, poolManager.toNat, poolId.toNat, marketId.toNat, sourceVersion, feeNonce,
      feeAsset.toNat, base, totalFee, feePolicyHash.toNat]
  | .word value => [10, value.toNat]
  | .pair first second => [11, first.toNat, second.toNat]
  | .holderLeaf domain chainId distributor marketId round account quoteAmount memeAmount =>
      [12, domain.toNat, chainId, distributor.toNat, marketId.toNat, round, account.toNat,
      quoteAmount, memeAmount]
  | .eligibilityPolicy domain chainId marketId excluded =>
      [13, domain.toNat, chainId, marketId.toNat] ++ excluded.map BitVec.toNat
  | .treasuryLeaf domain schema chainId distributor marketId epochId memeToken quoteToken
      eligibilityPolicyHash windowStart windowEnd sourceBlockNumber sourceBlockHash index account
      twab amount => [14, domain.toNat, schema.toNat, chainId, distributor.toNat, marketId.toNat,
      epochId, memeToken.toNat, quoteToken.toNat, eligibilityPolicyHash.toNat, windowStart,
      windowEnd, sourceBlockNumber, sourceBlockHash.toNat, index, account.toNat, twab, amount]
  | .launchBaseline domain schemaVersion referenceChainId referenceFactory referenceFactoryCodeHash
      launchConfigId supply curveFeeBps poolFee tickSpacing behaviorVectorRoot =>
      15 :: characters domain ++ [schemaVersion, referenceChainId, referenceFactory.toNat,
      referenceFactoryCodeHash.toNat, launchConfigId, supply, curveFeeBps, poolFee,
      (tickSpacing % 2 ^ 256).toNat, behaviorVectorRoot.toNat]
  | .launchTemplate domain schemaVersion memeTokenImplementation memeTokenCodeHash
      curveImplementation curveCodeHash gaugeImplementation gaugeCodeHash graduatedHook hookCodeHash
      graduationExecutor graduationExecutorCodeHash feePolicyId executionSpecId =>
      16 :: characters domain ++ [schemaVersion, memeTokenImplementation.toNat,
      memeTokenCodeHash.toNat, curveImplementation.toNat, curveCodeHash.toNat,
      gaugeImplementation.toNat, gaugeCodeHash.toNat, graduatedHook.toNat, hookCodeHash.toNat,
      graduationExecutor.toNat, graduationExecutorCodeHash.toNat, feePolicyId.toNat,
      executionSpecId.toNat]
  | .expectedEconomics domain schemaVersion value => 17 :: characters domain ++ [schemaVersion,
      value.chainId, value.factory.toNat, value.assetUid.toNat, value.stockToken.toNat,
      value.stockDecimals, value.tickerGardenBaselineId.toNat, value.tickerGardenBaselineHash.toNat,
      value.quoteAssetConfigId.toNat, value.quoteEconomicsHash.toNat, value.launchTemplateId.toNat,
      value.launchTemplateHash.toNat, value.launchConfigId, value.feePolicyId.toNat,
      value.feePolicyHash.toNat, value.executionSpecId.toNat, value.creatorTaxBps,
      value.creatorFeesToHolders.toNat, value.stakingEnabled.toNat, value.burnMemeFees.toNat,
      value.lpFeePips]
where
  fingerprintWords (value : StockTokenFingerprint) : List ℕ :=
    [value.tokenRuntimeCodeHash.toNat, value.beacon.toNat, value.beaconRuntimeCodeHash.toNat,
      value.implementation.toNat, value.implementationRuntimeCodeHash.toNat]

/-- A word that depends on all of a tuple, instead of its hash. -/
@[irreducible] def keccak256 (preimage : Preimage) : Bytes32 :=
  BitVec.ofNat 256 ((words preimage).foldl (fun h w => (h * 1099511628211 + w) % 2 ^ 256) 1)

/-- A platform with the documented libraries. -/
def platform : Platform where
  chainId := 1
  keccak256 := keccak256
  getTickAtSqrtPrice := getTickAtSqrtPrice
  getSqrtPriceAtTick := getSqrtPriceAtTick
  getLiquidityForAmounts := getLiquidityForAmounts
  tickSpacingToMaxLiquidityPerTick := tickSpacingToMaxLiquidityPerTick
  getAmount0Delta := getAmount0Delta
  getAmount1Delta := getAmount1Delta

end DocumentedV4

namespace EconomicDomain

open SupplyMath PoolMath

/-! ### Admission -/

/-- `SYNTHETIC_TOKEN_0`. -/
def syntheticToken0 : Address := 1

/-- `SYNTHETIC_TOKEN_1`. -/
def syntheticToken1 : Address := 2

/-- `CANONICAL_HOOK`: the least address with the permission bits of the hook. -/
def canonicalHook : Address := 0x2044

variable (platform : Platform)

/-- `_validatePoolPlan`: both orders of the currencies have a plan. -/
def validatePoolPlan (sweptTokens sweptQuote phantomQuote : ℕ) (tickSpacing : ℤ) :
    Except Revert Unit := do
  let (poolMemeAmount, _) ← graduationPartition sweptTokens sweptQuote phantomQuote
  let key : PoolKey := {
    currency0 := syntheticToken0, currency1 := syntheticToken1, fee := 0, tickSpacing,
    hooks := canonicalHook }
  let _ ← derive platform key syntheticToken0 syntheticToken1 sweptQuote poolMemeAmount
  let _ ← derive platform key syntheticToken1 syntheticToken0 sweptQuote poolMemeAmount
  return ()

/-- **Admission of an economics**: all its amounts are in the domain of v4, and the
canonical terminal amounts have a plan in either order of the currencies. -/
def validate (baseline : TickerGardenBaseline) (quote : QuoteAssetConfig) : Except Revert Unit := do
  revertIf (baseline.supply = 0 ∨ baseline.supply > maxInt128 ∨ quote.phantomQuote = 0 ∨
      quote.phantomQuote > maxInt128 ∨ quote.graduationThreshold = 0 ∨
      quote.graduationThreshold > maxInt128)
    (.economicDomain (.economicValueOutsideGraduationDomain baseline.supply quote.phantomQuote
      quote.graduationThreshold))
  let (sweptTokens, _) ←
    supplyPartition baseline.supply quote.phantomQuote quote.graduationThreshold
  let canonicalPoolQuote ←
    canonicalGraduationQuote baseline.supply quote.phantomQuote quote.graduationThreshold
  revertIf (canonicalPoolQuote > maxInt128)
    (.economicDomain (.terminalQuoteOutsideGraduationDomain canonicalPoolQuote maxInt128))
  validatePoolPlan platform sweptTokens canonicalPoolQuote quote.phantomQuote baseline.tickSpacing

variable {platform}

/-- **The plan admission derives** for one order of the currencies: for the amounts
of an admitted economics, with the synthetic key. -/
structure Admitted (platform : Platform) (baseline : TickerGardenBaseline)
    (quote : QuoteAssetConfig) (reserved poolQuote poolMeme locked : ℕ)
    (quoteFirst memeFirst : PoolPlan) : Prop where
  supply_le : baseline.supply ≤ maxInt128
  phantomQuote_le : quote.phantomQuote ≤ maxInt128
  graduationThreshold_le : quote.graduationThreshold ≤ maxInt128
  poolQuote_le : poolQuote ≤ maxInt128
  partition_eq : ∃ sellable,
    supplyPartition baseline.supply quote.phantomQuote quote.graduationThreshold
      = .ok (reserved, sellable)
  poolQuote_eq :
    canonicalGraduationQuote baseline.supply quote.phantomQuote quote.graduationThreshold
      = .ok poolQuote
  poolMeme_eq : graduationPartition reserved poolQuote quote.phantomQuote = .ok (poolMeme, locked)
  tickSpacing_pos : 1 ≤ baseline.tickSpacing
  tickSpacing_le : baseline.tickSpacing ≤ 32767
  quoteFirst_eq : derive platform
      { currency0 := syntheticToken0, currency1 := syntheticToken1, fee := 0,
        tickSpacing := baseline.tickSpacing, hooks := canonicalHook }
      syntheticToken0 syntheticToken1 poolQuote poolMeme = .ok quoteFirst
  memeFirst_eq : derive platform
      { currency0 := syntheticToken0, currency1 := syntheticToken1, fee := 0,
        tickSpacing := baseline.tickSpacing, hooks := canonicalHook }
      syntheticToken1 syntheticToken0 poolQuote poolMeme = .ok memeFirst

/-- An accepted economics has its plans. -/
theorem admitted_of_validate {baseline : TickerGardenBaseline} {quote : QuoteAssetConfig} {u : Unit}
    (h : validate platform baseline quote = .ok u) :
    ∃ reserved poolQuote poolMeme locked quoteFirst memeFirst,
      Admitted platform baseline quote reserved poolQuote poolMeme locked quoteFirst memeFirst := by
  simp only [validate, validatePoolPlan, bind_eq_ok, revertIf_eq_ok, Prod.exists, not_or,
    not_lt] at h
  obtain ⟨-, ⟨-, hS, -, hP, -, hG⟩, R, s, hpart, q, hq, -, hqle, meme, locked, hmeme, first, hfirst,
    second, hsecond, -⟩ := h
  obtain ⟨-, -, -, -, -, -, hts1, hts2, -⟩ := (derive_eq_ok.mp hfirst).1
  exact ⟨R, q, meme, locked, first, second, hS, hP, hG, hqle, ⟨s, hpart⟩, hq, hmeme, hts1, hts2,
    hfirst, hsecond⟩

end EconomicDomain

end TickerGarden
