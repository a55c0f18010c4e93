import TickerGarden.Graduation.Admission
import TickerGarden.Fees.Partition
import TickerGarden.Launch.TemplateRegistry

/-!
# The economics of a request

`V1FactoryValidation` makes the terms of a market from a request: it looks up the entries of
the four registries the request names, refuses what is not active or has drifted, and hashes
everything that matters to the creator into one word, the expected economics. The creator
supplies that word with the request, so that the terms cannot be others than those that were
looked at.

The baseline and the fee policy are hashed when the market is made; of the quote
configuration and the template the hashes of their registries are taken.
-/

namespace TickerGarden

open Checked

/-! ### Content hashes -/

namespace V1MarketEconomics

/-- The terms of a fee policy, as they are hashed. -/
structure FeePolicyInput where
  executionSpecId : Bytes32
  feePips : ℕ
  lpShareBps : ℕ
  poolKeyFee : ℕ
  hookPermissionMask : Address
  feeAssetMode : ℕ
  stakerNonLpShareBps : ℕ
  platformNonLpShareBps : ℕ
deriving DecidableEq

/-- `hashTickerGardenBaseline`: what the hash is taken of. The status is not part of it. -/
def baselineEncoding (value : TickerGardenBaseline) : Preimage :=
  .launchBaseline "TICKERGARDEN_V1_LAUNCH_BASELINE" 1 value.referenceChainId value.referenceFactory
    value.referenceFactoryCodeHash value.launchConfigId value.supply value.curveFeeBps value.poolFee
    value.tickSpacing value.behaviorVectorRoot

/-- `hashFeePolicy`: what the hash is taken of. -/
def feePolicyEncoding (value : FeePolicyInput) : Preimage :=
  .feePolicy "TICKERGARDEN_V1_FEE_POLICY" 5 value.executionSpecId value.feePips value.lpShareBps
    value.poolKeyFee value.hookPermissionMask value.feeAssetMode value.stakerNonLpShareBps
    value.platformNonLpShareBps

/-- `hashExpectedEconomics`: what the hash is taken of. -/
def economicsEncoding (value : ExpectedEconomicsInput) : Preimage :=
  .expectedEconomics "TICKERGARDEN_V1_EXPECTED_ECONOMICS" 8 value

end V1MarketEconomics

/-! ### The factory -/

namespace Factory

open V1MarketEconomics

/-- What the factory was deployed with. -/
structure Deployment where
  platform : Platform
  factory : Bindings
  registry : MarketRegistry.Bindings
  officialStockRegistry : Address
  marketRegistry : Address
  allocationManager : Address

/-- The address of the factory. -/
def Deployment.self (d : Deployment) : Address := d.registry.factory

/-- The fields of `_policy`. -/
def Deployment.feePolicy (d : Deployment) : FeePolicyInput where
  executionSpecId := d.factory.executionSpecId
  feePips := 10000
  lpShareBps := 0
  poolKeyFee := 0
  hookPermissionMask := PoolMath.hookPermissionMask
  feeAssetMode := 1
  stakerNonLpShareBps := 3000
  platformNonLpShareBps := 3000

/-- What the stock registry and a vault answer about the vault. -/
structure VaultViews where
  vaultSchemaId : Address → Bytes32
  vaultForSchema : Bytes32 → Address
  vaultRuntimeCodeHash : Address → Bytes32
  /-- `vaultIdentity`, if the vault answers: the two registries, the allocation manager and
  the schema. -/
  vaultIdentity : Address → Option (Address × Address × Address × Bytes32)

/-- `Snapshot` of the validation: the entries a market is made from, and the hashes. -/
structure EconomicsSnapshot where
  asset : AssetView
  quote : QuoteAssetConfig
  baseline : TickerGardenBaseline
  template : ComponentTemplate
  tickerGardenBaselineHash : Bytes32
  launchTemplateHash : Bytes32
  feePolicyHash : Bytes32
  expectedEconomics : Bytes32

/-- The zero asset of a market that stakes none. -/
def noAsset : AssetView := ⟨0, 0, 0, 0⟩

variable (d : Deployment) (code : CodeView)

/-- `_validatePolicy`. -/
def validatePolicy (feePolicyId : Bytes32) (fields : FeePolicyInput) : Except Revert Unit :=
  revertIf (feePolicyId = 0 ∨ fields.executionSpecId ≠ d.factory.executionSpecId ∨
      fields.feePips ≠ 10000 ∨ fields.lpShareBps ≠ 0 ∨ fields.poolKeyFee ≠ 0 ∨
      fields.hookPermissionMask ≠ PoolMath.hookPermissionMask ∨ fields.feeAssetMode ≠ 1 ∨
      fields.stakerNonLpShareBps ≠ 3000 ∨ fields.platformNonLpShareBps ≠ 3000)
    (.factoryValidation (.invalidFeePolicy feePolicyId))

/-- `_validateVaultIdentity`. -/
def validateVaultIdentity (views : VaultViews) (assetUid : Bytes32) (vault : Address) :
    Except Revert Unit := do
  let required := d.platform.keccak256 (.text "TickerGarden.UserStockVault.MultiAsset.v6")
  let schemaId := views.vaultSchemaId vault
  let registeredVault := views.vaultForSchema required
  revertIf (schemaId ≠ required ∨ registeredVault ≠ vault)
    (.factoryValidation (.invalidVaultSchema assetUid vault schemaId registeredVault))
  let expectedRuntimeCodeHash := views.vaultRuntimeCodeHash vault
  revertIf (¬ code.hasCode vault ∨ code.codeHash vault ≠ expectedRuntimeCodeHash)
    (.factoryValidation (.vaultIdentityDrift assetUid vault expectedRuntimeCodeHash))
  let (officialStock, marketRegistry, allocationManager, reportedSchemaId) ←
    orRevert (views.vaultIdentity vault)
      (.factoryValidation (.invalidVaultIdentity assetUid vault 0 0 0 0))
  revertIf (officialStock ≠ d.officialStockRegistry ∨ marketRegistry ≠ d.marketRegistry ∨
      allocationManager ≠ d.allocationManager ∨ reportedSchemaId ≠ required)
    (.factoryValidation (.invalidVaultIdentity assetUid vault officialStock marketRegistry
      allocationManager reportedSchemaId))

/-- The first part of `resolve`: the stock asset of a market that stakes one. -/
def resolveAsset (views : VaultViews) (r : Registries) (params : CreateMarketParams) :
    Except Revert AssetView :=
  if params.stakingEnabled then do
    revertIf (params.assetUid = 0) (.factoryValidation .invalidStakingConfiguration)
    let asset := r.asset params.assetUid
    revertIf (asset.status ≠ configStatusActive)
      (.factoryValidation (.inactiveAsset params.assetUid asset.status))
    revertIf (¬ r.assetIdentityCurrent params.assetUid)
      (.factoryValidation (.assetIdentityDrift params.assetUid))
    validateVaultIdentity d code views params.assetUid asset.userStockVault
    return asset
  else do
    revertIf (params.assetUid ≠ 0) (.factoryValidation .invalidStakingConfiguration)
    return noAsset

/-- The quote configuration of a request. -/
def resolveQuote (r : Registries) (params : CreateMarketParams) : Except Revert QuoteAssetConfig := do
  let quote := r.quoteConfig params.quoteAssetConfigId
  revertIf (quote.status ≠ configStatusActive)
    (.factoryValidation (.inactiveQuote params.quoteAssetConfigId quote.status))
  revertIf (¬ r.quoteIdentityCurrent params.quoteAssetConfigId)
    (.factoryValidation (.quoteIdentityDrift params.quoteAssetConfigId))
  revertIf (quote.tickerGardenBaselineId ≠ params.tickerGardenBaselineId)
    (.factoryValidation (.quoteBaselineMismatch quote.tickerGardenBaselineId
      params.tickerGardenBaselineId))
  revertIf (quote.economicsHash ≠ params.quoteAssetConfigId)
    (.factoryValidation (.invalidQuoteEconomics params.quoteAssetConfigId quote.economicsHash))
  return quote

/-- The baseline of a request, in the domain of graduation with the quote. -/
def resolveBaseline (r : Registries) (params : CreateMarketParams) (quote : QuoteAssetConfig) :
    Except Revert TickerGardenBaseline := do
  let baseline := r.baseline params.tickerGardenBaselineId
  revertIf (baseline.status ≠ configStatusActive)
    (.factoryValidation (.inactiveTickerGardenBaseline params.tickerGardenBaselineId baseline.status))
  EconomicDomain.validate d.platform baseline quote
  revertIf (baseline.curveFeeBps + params.creatorTaxBps > 9900)
    (.factoryValidation (.invalidFeePolicy d.factory.feePolicyId))
  return baseline

/-- The template of a request, bound to the fee policy. -/
def resolveTemplate (t : LaunchTemplateRegistry.State) (params : CreateMarketParams) :
    Except Revert ComponentTemplate := do
  let template := t.launchTemplates params.launchTemplateId
  revertIf (template.status ≠ configStatusActive)
    (.factoryValidation (.inactiveLaunchTemplate params.launchTemplateId template.status))
  revertIf (template.feePolicyId ≠ d.factory.feePolicyId ∨
      template.executionSpecId ≠ d.feePolicy.executionSpecId)
    (.factoryValidation (.invalidLaunchTemplateBinding template.feePolicyId
      template.executionSpecId))
  return template

/-- What the expected economics is the hash of. -/
def economicsInput (params : CreateMarketParams) (asset : AssetView) (quote : QuoteAssetConfig)
    (baseline : TickerGardenBaseline) (baselineHash templateHash feePolicyHash : Bytes32) :
    ExpectedEconomicsInput where
  chainId := d.platform.chainId
  factory := d.self
  assetUid := params.assetUid
  stockToken := asset.stockToken
  stockDecimals := asset.tokenDecimals
  tickerGardenBaselineId := params.tickerGardenBaselineId
  tickerGardenBaselineHash := baselineHash
  quoteAssetConfigId := params.quoteAssetConfigId
  quoteEconomicsHash := quote.economicsHash
  launchTemplateId := params.launchTemplateId
  launchTemplateHash := templateHash
  launchConfigId := baseline.launchConfigId
  feePolicyId := d.factory.feePolicyId
  feePolicyHash
  executionSpecId := d.feePolicy.executionSpecId
  creatorTaxBps := params.creatorTaxBps
  creatorFeesToHolders := params.creatorFeesToHolders
  stakingEnabled := params.stakingEnabled
  burnMemeFees := params.burnMemeFees
  lpFeePips := params.lpFeePips

/-- `resolve`. -/
def resolve (views : VaultViews) (r : Registries) (t : LaunchTemplateRegistry.State)
    (creator : Address) (params : CreateMarketParams) : Except Revert EconomicsSnapshot := do
  revertIf (creator = 0) (.factoryValidation (.invalidCreator creator))
  revertIf (params.creatorRevenueBeneficiary = 0)
    (.factoryValidation (.invalidCreatorRevenueBeneficiary params.creatorRevenueBeneficiary))
  validatePolicy d d.factory.feePolicyId d.feePolicy
  CreatorTax.validate params.creatorTaxBps
  StaticLPFee.validate params.lpFeePips
  let asset ← resolveAsset d code views r params
  let quote ← resolveQuote r params
  let baseline ← resolveBaseline d r params quote
  let template ← resolveTemplate d t params
  let tickerGardenBaselineHash := d.platform.keccak256 (baselineEncoding baseline)
  let launchTemplateHash := t.launchTemplateHashes params.launchTemplateId
  revertIf (launchTemplateHash = 0)
    (.factoryValidation (.inactiveLaunchTemplate params.launchTemplateId template.status))
  let feePolicyHash := d.platform.keccak256 (feePolicyEncoding d.feePolicy)
  let expectedEconomics := d.platform.keccak256 (economicsEncoding (economicsInput d params asset
    quote baseline tickerGardenBaselineHash launchTemplateHash feePolicyHash))
  return { asset, quote, baseline, template, tickerGardenBaselineHash, launchTemplateHash,
           feePolicyHash, expectedEconomics }

/-- `validateExpected`. -/
def validateExpected (snapshot : EconomicsSnapshot) (supplied : Bytes32) : Except Revert Unit :=
  revertIf (supplied ≠ snapshot.expectedEconomics)
    (.factoryValidation (.expectedEconomicsMismatch supplied snapshot.expectedEconomics))

end Factory

end TickerGarden
