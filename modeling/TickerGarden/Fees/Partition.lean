import TickerGarden.Platform
import TickerGarden.Graduation.PoolMath

/-!
# How a fee is divided

The pure arithmetic of fees: the creator's surcharge on the base of a fee, and the
division of what is not a surcharge between the creator, the stakers and the platform.
The two fixed shares are rounded down and the creator gets the rest, so that a division
neither makes nor loses anything; `TickerGarden.MarketFeeAccounting.splitV4_eq_ok` says so of
a fee of the pool.

The shares themselves are part of a fee's identity, through the hash of the policy,
`TickerGarden.V1MarketEconomics.hashFeePolicy`.
-/

namespace TickerGarden

open Checked

/-- `EXECUTION_SPEC_ID`. -/
def executionSpecId (platform : Platform) : Bytes32 := platform.keccak256 (.text "V1-EXEC-11")

/-- `FEE_PIPS_DENOMINATOR`. -/
def feePipsDenominator : ℕ := 1000000

/-- `FEE_PIPS`: a swap pays one percent. -/
def feePips : ℕ := 10000

/-! ### The surcharge of the creator -/

namespace CreatorTax

/-- `MAX_BPS`. -/
def maxBps : ℕ := 500

/-- A tax is at most what the library allows. -/
def validate (bps : ℕ) : Except Revert Unit :=
  revertIf (bps > maxBps) (.creatorTax (.creatorTaxTooHigh bps maxBps))

/-- The tax of an amount, rounded down. -/
def amount (base bps : ℕ) : Except Revert ℕ := do
  validate bps
  mulDiv base bps 10000

end CreatorTax

/-! ### The division between the beneficiaries -/

namespace MarketFeeAccounting

/-- `BPS_DENOMINATOR`. -/
def bpsDenominator : ℕ := 10000

/-- `LP_SHARE_BPS`: none of a fee stays in the pool. -/
def lpShareBps : ℕ := 0

/-- `STAKER_NON_LP_SHARE_BPS`. -/
def stakerNonLpShareBps : ℕ := 3000

/-- `PLATFORM_NON_LP_SHARE_BPS`. -/
def platformNonLpShareBps : ℕ := 3000

/-- The parts of the fee of a pool that do not go to its liquidity. -/
structure V4Buckets where
  creatorAmount : ℕ
  stakerAmount : ℕ
  platformAmount : ℕ
deriving DecidableEq

/-- The parts of the fee of a curve. -/
structure CurveBuckets where
  creatorAmount : ℕ
  platformAmount : ℕ
deriving DecidableEq

/-- What the stakers get: nothing, if there are none. -/
def stakerShare (nonLpAmount activeStock : ℕ) : Except Revert ℕ :=
  if activeStock ≠ 0 then mulDiv nonLpAmount stakerNonLpShareBps bpsDenominator else .ok 0

/-- The fee of a pool, divided: the part of the liquidity is the one that was taken, the stakers
have a share while any stock is active, the platform has one, and the creator has the rest. -/
def splitV4 (totalFee lpAmount nonLpAmount activeStock : ℕ) : Except Revert V4Buckets := do
  let expectedLpAmount ← mulDiv totalFee lpShareBps bpsDenominator
  revertIf (lpAmount ≠ expectedLpAmount ∨ lpAmount > totalFee ∨ nonLpAmount ≠ totalFee - lpAmount)
    (.marketFeeAccounting (.invalidV4FeePartition totalFee lpAmount nonLpAmount expectedLpAmount))
  let stakerAmount ← stakerShare nonLpAmount activeStock
  let platformAmount ← mulDiv nonLpAmount platformNonLpShareBps bpsDenominator
  let unstaked ← usub nonLpAmount stakerAmount
  let creatorAmount ← usub unstaked platformAmount
  return { creatorAmount, stakerAmount, platformAmount }

/-- The fee of a curve, divided: the platform has its share, and the creator the rest. -/
def splitCurve (amount : ℕ) : Except Revert CurveBuckets := do
  let platformAmount ← mulDiv amount platformNonLpShareBps bpsDenominator
  let creatorAmount ← usub amount platformAmount
  return { creatorAmount, platformAmount }

/-- **A division loses nothing.** -/
theorem splitV4_eq_ok {totalFee lpAmount nonLpAmount activeStock : ℕ} {buckets : V4Buckets}
    (h : splitV4 totalFee lpAmount nonLpAmount activeStock = .ok buckets) :
    lpAmount = 0 ∧ nonLpAmount = totalFee ∧
      buckets.creatorAmount + buckets.stakerAmount + buckets.platformAmount = nonLpAmount ∧
      stakerShare nonLpAmount activeStock = .ok buckets.stakerAmount ∧
      buckets.platformAmount = nonLpAmount * platformNonLpShareBps / bpsDenominator := by
  simp only [splitV4, bind_eq_ok, mulDiv_eq_ok, revertIf_eq_ok, usub_eq_ok, pure_eq_ok,
    Except.ok.injEq, not_or, not_not, not_lt] at h
  obtain ⟨_, ⟨-, -, rfl⟩, -, ⟨hlp, -, hnon⟩, staker, hstaker, _, ⟨-, -, rfl⟩, _, ⟨hle, rfl⟩, _,
    ⟨hle', rfl⟩, rfl⟩ := h
  have hzero : lpAmount = 0 := by
    rw [hlp, lpShareBps, Nat.mul_zero, Nat.zero_div]
  refine ⟨hzero, by omega, ?_, hstaker, rfl⟩
  dsimp only
  omega

end MarketFeeAccounting

/-! ### The policy -/

namespace V1MarketEconomics

/-- `POOL_KEY_FEE`, of the policy. -/
def poolKeyFee : ℕ := 0

/-- `FEE_ASSET_MODE_UNSPECIFIED_CORE_SWAP_DELTA`. -/
def feeAssetModeUnspecifiedCoreSwapDelta : ℕ := 1

/-- `hashFeePolicy`, of the one policy there is. -/
def hashFeePolicy (platform : Platform) : Bytes32 :=
  platform.keccak256 (.feePolicy "TICKERGARDEN_V1_FEE_POLICY" 5 (executionSpecId platform) feePips
    MarketFeeAccounting.lpShareBps poolKeyFee PoolMath.hookPermissionMask
    feeAssetModeUnspecifiedCoreSwapDelta MarketFeeAccounting.stakerNonLpShareBps
    MarketFeeAccounting.platformNonLpShareBps)

end V1MarketEconomics

end TickerGarden
