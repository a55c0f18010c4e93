import TickerGarden.Fees.Partition
import TickerGarden.Registry.MarketRegistry

/-!
# The fee of a swap

What the hook of a pool takes of a swap: one percent, and the creator's surcharge, of the
amount that the swapper did not specify. A fee that rounds to nothing is not taken, and no
event tells of it; `TickerGarden.TickerGardenMemeHook.prepareV4Fee_spec` says what a fee
that is taken consists of.

| source file                          | functions                                        |
|--------------------------------------|--------------------------------------------------|
| `TickerGardenMemeHookFeeCalculation` | `unspecifiedCurrencyAndBase`, `v4FeeId`, `prepareV4Fee` |
| `TickerGardenMemeHookBinding`        | `PoolBinding`                                    |
-/

namespace TickerGarden

open Checked

namespace TickerGardenMemeHook

/-- What the hook keeps of a pool. -/
structure PoolBinding where
  marketId : Bytes32
  keyHash : Bytes32
  sourceVersion : ℕ
  feeNonce : ℕ
  status : ℕ
deriving DecidableEq

/-- What a swapper asks for. -/
structure SwapParams where
  zeroForOne : Bool
  amountSpecified : ℤ
deriving DecidableEq

/-- The fee of a swap, as the hook computes it, with its parts and its identifier. -/
structure CalculatedV4Fee where
  marketId : Bytes32
  poolId : Bytes32
  feeAsset : Address
  base : ℕ
  totalFee : ℕ
  lpAmount : ℕ
  nonLpAmount : ℕ
  sourceVersion : ℕ
  feeNonce : ℕ
  feeId : Bytes32
deriving DecidableEq

/-- The contracts that the hook is deployed with. -/
structure Immutables where
  protocolFeeVault : Address
  poolManager : Address

/-- `MAX_LIFETIME_FEE_CREDITS`. -/
def maxLifetimeFeeCredits : ℕ := 2 ^ 48 - 1

/-- `_unspecifiedCurrencyAndBase`, with the two halves of the core delta. -/
def unspecifiedCurrencyAndBase (key : PoolKey) (params : SwapParams) (amount0 amount1 : ℤ)
    (config : MarketConfig) : Except Revert (Address × ℕ) := do
  revertIf (params.amountSpecified = 0)
    (.hook (.invalidSwapAmountSpecified params.amountSpecified))
  let exactInput : Bool := params.amountSpecified < 0
  let (feeAsset, unspecifiedDelta) :=
    if exactInput = params.zeroForOne then (key.currency1, amount1) else (key.currency0, amount0)
  revertIf (feeAsset ≠ config.quoteAsset ∧ feeAsset ≠ config.memeToken)
    (.hook (.feeAssetNotCanonical feeAsset))
  return (feeAsset, unspecifiedDelta.natAbs)

/-- `_v4FeeId`. -/
def v4FeeId (platform : Platform) (v : Immutables) (fee : CalculatedV4Fee) : Bytes32 :=
  platform.keccak256 (.v4Fee "TICKERGARDEN_V1_V4_FEE" 1 platform.chainId v.protocolFeeVault
    v.poolManager fee.poolId fee.marketId fee.sourceVersion fee.feeNonce fee.feeAsset fee.base
    fee.totalFee (V1MarketEconomics.hashFeePolicy platform))

/-- `_prepareV4Fee`, of an active pool: the fee, and the binding with its nonce. -/
def prepareV4Fee (platform : Platform) (v : Immutables) (poolId : Bytes32) (binding : PoolBinding)
    (value : MarketView) (key : PoolKey) (params : SwapParams) (amount0 amount1 : ℤ) :
    Except Revert (CalculatedV4Fee × PoolBinding) := do
  let (feeAsset, base) ← unspecifiedCurrencyAndBase key params amount0 amount1
    value.config.toMarketConfig
  let baseFee ← mulDiv base feePips feePipsDenominator
  let tax ← CreatorTax.amount base value.config.creatorTaxBps
  let totalFee ← uadd baseFee tax
  let fee : CalculatedV4Fee :=
    { marketId := binding.marketId, poolId, feeAsset, base, totalFee, lpAmount := 0,
      nonLpAmount := 0, sourceVersion := binding.sourceVersion, feeNonce := 0, feeId := 0 }
  if totalFee = 0 then return (fee, binding)
  else
    revertIf (totalFee > maxInt128) (.hook (.feeAmountTooLarge totalFee))
    let lpAmount ← mulDiv totalFee MarketFeeAccounting.lpShareBps MarketFeeAccounting.bpsDenominator
    let nonLpAmount ← usub totalFee lpAmount
    revertIf (binding.feeNonce ≥ maxLifetimeFeeCredits) (.hook (.hookFeeNonceOverflow poolId))
    let feeNonce := binding.feeNonce + 1
    let fee := { fee with lpAmount, nonLpAmount, feeNonce }
    return ({ fee with feeId := v4FeeId platform v fee }, { binding with feeNonce })

/-! ### What a fee consists of -/

variable {platform : Platform} {v : Immutables} {poolId : Bytes32} {binding binding' : PoolBinding}
  {value : MarketView} {key : PoolKey} {params : SwapParams} {amount0 amount1 : ℤ}
  {fee : CalculatedV4Fee}

/-- The fee is of the amount that was not specified. -/
theorem unspecifiedCurrencyAndBase_spec {config : MarketConfig} {feeAsset : Address} {base : ℕ}
    (h : unspecifiedCurrencyAndBase key params amount0 amount1 config = .ok (feeAsset, base)) :
    (feeAsset = config.quoteAsset ∨ feeAsset = config.memeToken) ∧
      (feeAsset = key.currency1 ∧ base = amount1.natAbs ∨
        feeAsset = key.currency0 ∧ base = amount0.natAbs) := by
  simp only [unspecifiedCurrencyAndBase, bind_eq_ok, revertIf_eq_ok, pure_eq_ok, Except.ok.injEq,
    Prod.mk.injEq] at h
  obtain ⟨-, -, -, hcanonical, rfl, rfl⟩ := h
  refine ⟨?_, ?_⟩
  · by_contra hnone
    exact hcanonical (not_or.mp hnone)
  · split
    · exact .inl ⟨rfl, rfl⟩
    · exact .inr ⟨rfl, rfl⟩

/-- **A fee that is taken** is an `int128`, none of it is the liquidity's, and its base is the
amount that was not specified. -/
theorem prepareV4Fee_spec (h : prepareV4Fee platform v poolId binding value key params amount0
    amount1 = .ok (fee, binding')) :
    fee.marketId = binding.marketId ∧ fee.poolId = poolId ∧
      (fee.feeAsset = value.config.quoteAsset ∨ fee.feeAsset = value.config.memeToken) ∧
      (fee.feeAsset = key.currency1 ∧ fee.base = amount1.natAbs ∨
        fee.feeAsset = key.currency0 ∧ fee.base = amount0.natAbs) ∧
      (fee.totalFee ≠ 0 → fee.totalFee ≤ maxInt128 ∧ fee.lpAmount = 0 ∧
        fee.nonLpAmount = fee.totalFee) := by
  simp only [prepareV4Fee, bind_eq_ok] at h
  obtain ⟨⟨feeAsset, base⟩, hbase, _, -, _, -, totalFee, -, h⟩ := h
  obtain ⟨hcanonical, hunspecified⟩ := unspecifiedCurrencyAndBase_spec hbase
  split at h
  · rename_i hzero
    simp only [pure_eq_ok, Except.ok.injEq, Prod.mk.injEq] at h
    obtain ⟨rfl, -⟩ := h
    exact ⟨rfl, rfl, hcanonical, hunspecified, fun hne => absurd hzero hne⟩
  · simp only [bind_eq_ok, revertIf_eq_ok, mulDiv_eq_ok, usub_eq_ok, pure_eq_ok, Except.ok.injEq,
      Prod.mk.injEq, not_lt] at h
    obtain ⟨-, hle, _, ⟨-, -, rfl⟩, _, ⟨-, rfl⟩, -, -, rfl, -⟩ := h
    refine ⟨rfl, rfl, hcanonical, hunspecified, fun _ => ⟨hle, ?_, ?_⟩⟩ <;>
      simp [MarketFeeAccounting.lpShareBps]

end TickerGardenMemeHook

end TickerGarden
