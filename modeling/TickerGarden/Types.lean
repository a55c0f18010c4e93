import Mathlib.Data.Fintype.Basic
import Mathlib.Data.Fintype.EquivFin
import TickerGarden.Lib.Checked

/-!
# Values and records of the protocol

The words the contracts pass to each other: addresses, 32-byte identifiers, and
the records of the protocol's interface file that the modelled functions read.
Amounts are natural numbers – every operation on them goes through
`Checked` – while addresses and identifiers keep their width, since the hook
address is read bit by bit and identifiers are hashes.

An account of `0` is the zero address, and the zero address as an *asset* is the
chain's native currency.
-/

namespace TickerGarden

/-- A 20-byte account. -/
abbrev Address := BitVec 160

instance Address.lawfulBEq : LawfulBEq Address := inferInstance

/-- A 32-byte identifier. -/
abbrev Bytes32 := BitVec 256

/-- The wheels of the vault and of the gauge have 32 slots. -/
instance wheelSize.neZero : NeZero 32 := ⟨by decide⟩

/-- A `uint32` that numbers the beneficiaries of a market, or its funding buckets. -/
abbrev Epoch := BitVec 32

/-- There are finitely many words of a given width: sums over all accounts are
finite sums. -/
instance fintypeBitVec (w : ℕ) : Fintype (BitVec w) :=
  Fintype.ofEquiv (Fin (2 ^ w)) ⟨BitVec.ofFin, BitVec.toFin, fun _ => rfl, fun _ => rfl⟩

/-- The greatest value of a `uint32`. -/
def maxUint32 : ℕ := 2 ^ 32 - 1

/-- The greatest value of a `uint64`. -/
def maxUint64 : ℕ := 2 ^ 64 - 1

/-- The greatest value of an `int128`. -/
def maxInt128 : ℕ := 2 ^ 127 - 1

/-- The identity of a Uniswap v4 pool. -/
structure PoolKey where
  currency0 : Address
  currency1 : Address
  fee : ℕ
  tickSpacing : ℤ
  hooks : Address
deriving DecidableEq

/-- What the stock registry answers about a stock asset. -/
structure AssetView where
  stockToken : Address
  userStockVault : Address
  tokenDecimals : ℕ
  status : ℕ
deriving DecidableEq

/-- An admitted quote asset, with the economics of a curve that trades in it. -/
structure QuoteAssetConfig where
  tickerGardenBaselineId : Bytes32
  quoteAsset : Address
  quoteDecimals : ℕ
  phantomQuote : ℕ
  graduationThreshold : ℕ
  economicsHash : Bytes32
  status : ℕ
deriving DecidableEq

/-- The identity of a stock token behind a beacon. -/
structure StockTokenFingerprint where
  tokenRuntimeCodeHash : Bytes32
  beacon : Address
  beaconRuntimeCodeHash : Bytes32
  implementation : Address
  implementationRuntimeCodeHash : Bytes32
deriving DecidableEq

/-- What a quote asset that is itself a stock token is bound to. -/
structure StockQuoteBinding where
  assetUid : Bytes32
  stockTokenFingerprintHash : Bytes32
  referenceEvidenceHash : Bytes32
  generatorPolicyId : Bytes32
deriving DecidableEq

/-- An admitted launch baseline. -/
structure TickerGardenBaseline where
  referenceChainId : ℕ
  referenceFactory : Address
  referenceFactoryCodeHash : Bytes32
  launchConfigId : ℕ
  supply : ℕ
  curveFeeBps : ℕ
  poolFee : ℕ
  tickSpacing : ℤ
  behaviorVectorRoot : Bytes32
  status : ℕ
deriving DecidableEq

/-- The frozen configuration of a market. -/
structure MarketConfig where
  assetUid : Bytes32
  tickerGardenBaselineId : Bytes32
  quoteAssetConfigId : Bytes32
  launchTemplateId : Bytes32
  feePolicyId : Bytes32
  executionSpecId : Bytes32
  expectedEconomics : Bytes32
  launchConfigId : ℕ
  creatorRevenueBeneficiaryAtCreation : Address
  memeToken : Address
  curve : Address
  gauge : Address
  quoteAsset : Address
  graduatedHook : Address
  creatorTaxBps : ℕ
  creatorFeesToHolders : Bool
  stakingEnabled : Bool
  burnMemeFees : Bool
  lpFeePips : ℕ
deriving DecidableEq

/-- The part of a market's registration that changes: once, at graduation. -/
structure MarketRuntime where
  poolId : Bytes32
  sourceVersion : ℕ
  launchPhase : ℕ
deriving DecidableEq

/-- What the hash of a market's economics is taken of. -/
structure ExpectedEconomicsInput where
  chainId : ℕ
  factory : Address
  assetUid : Bytes32
  stockToken : Address
  stockDecimals : ℕ
  tickerGardenBaselineId : Bytes32
  tickerGardenBaselineHash : Bytes32
  quoteAssetConfigId : Bytes32
  quoteEconomicsHash : Bytes32
  launchTemplateId : Bytes32
  launchTemplateHash : Bytes32
  launchConfigId : ℕ
  feePolicyId : Bytes32
  feePolicyHash : Bytes32
  executionSpecId : Bytes32
  creatorTaxBps : ℕ
  creatorFeesToHolders : Bool
  stakingEnabled : Bool
  burnMemeFees : Bool
  lpFeePips : ℕ
deriving DecidableEq

/-- What a gauge carries in its code. -/
structure GaugeIdentity where
  marketId : Bytes32
  assetUid : Bytes32
  quoteAssetConfigId : Bytes32
  allocationManager : Address
  protocolFeeVault : Address
  quoteAsset : Address
  memeToken : Address
deriving DecidableEq

/-- What a gauge answers about the position of a user. -/
structure PositionView where
  activeAmount : ℕ
  pendingAmount : ℕ
  pendingGeneration : ℕ
  unlockAt : ℕ
  quoteClaimable : ℕ
  memeClaimable : ℕ
deriving DecidableEq

end TickerGarden
