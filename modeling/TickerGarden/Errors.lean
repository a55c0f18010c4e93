import TickerGarden.Types

/-!
# The errors of the contracts

One inductive type for each contract or library, its constructors the errors the
source declares there, with the values the source reports. A call that crosses a
contract boundary bubbles up the callee's error unchanged, so all of them are
collected in a single type `TickerGarden.Revert`: two contracts may well declare an
error of the same name – the vault and the allocation manager both have an
`AllocationLedgerMismatch` – and the collection keeps them apart.
-/

namespace TickerGarden

/-- Errors of `TickerGardenSupplyMath`. -/
inductive SupplyMathError
  | invalidSupplyPartition (supply phantomQuote graduationThreshold : ℕ)
  | invalidGraduationPartition (sweptTokens sweptQuote phantomQuote : ℕ)
  | trackedTokensBelowReserve (trackedTokens reservedTokens : ℕ)
  | accruedFeesExceedTrackedQuote (trackedQuote accruedQuoteFees : ℕ)
  | pricingQuoteReserveOverflow (phantomQuote netTrackedQuote : ℕ)
deriving DecidableEq

/-- Errors of `TickerGardenCurveMath`. -/
inductive CurveMathError
  | invalidAmountIn (amountIn : ℕ)
  | invalidAmountOut (amountOut : ℕ)
  | invalidReserves (reserveIn reserveOut : ℕ)
  | invalidFeeBps (feeBps : ℕ)
  | invalidCombinedFeeBps (feeBps additionalQuoteFeeBps : ℕ)
  | insufficientSellableLiquidity (tokenReserve reservedTokens : ℕ)
  | amountOutRoundsToZero
  | arithmeticOverflow
deriving DecidableEq

/-- Errors of `TickerGardenAntiSnipe`. -/
inductive AntiSnipeError
  | invalidRecipient (recipient : Address)
  | invalidFrozenIdentity (creator beneficiaryAtCreation : Address)
  | invalidLaunchRouter (launchRouter : Address)
  | timestampBeforeLaunch (currentTimestamp launchTimestamp : ℕ)
  | feeLeavesLessThanMinimumNet (feeBps minimumNetBps : ℕ)
deriving DecidableEq

/-- Errors of `StaticLPFee`. -/
inductive StaticLPFeeError
  | invalidLPFee (feePips : ℕ)
deriving DecidableEq

/-- Errors of `GraduationPoolMath`. -/
inductive GraduationPoolMathError
  | invalidGraduationPoolKey
  | invalidGraduationPoolAmounts (amount0 amount1 : ℕ)
  | invalidGraduationSqrtPrice (sqrtPriceX96 : ℕ)
  | invalidGraduationLiquidity (liquidity maximum : ℕ)
deriving DecidableEq

/-- Errors of `V1GraduationEconomicDomain`. -/
inductive EconomicDomainError
  | economicValueOutsideGraduationDomain (supply phantomQuote graduationThreshold : ℕ)
  | terminalQuoteOutsideGraduationDomain (terminalQuote maximum : ℕ)
deriving DecidableEq

/-- Errors of `DelayedUnpause`. -/
inductive DelayedUnpauseError
  | unpauseStateDelayNotElapsed (objectId : Bytes32) (readyAt : ℕ)
  | unpauseTimestampOverflow (timestamp : ℕ)
deriving DecidableEq

/-- Errors of `TickerGardenBaselineRegistry`. -/
inductive BaselineRegistryError
  | invalidTickerGardenBaseline (baselineId : Bytes32)
  | tickerGardenBaselineAlreadyExists (baselineId : Bytes32)
  | referenceFactoryCodeHashMismatch (factory : Address) (suppliedHash observedHash : Bytes32)
  | invalidStateTransition (currentState requestedState : ℕ)
deriving DecidableEq

/-- Errors of `ApprovedQuoteRegistry`. -/
inductive QuoteRegistryError
  | invalidQuoteConfig (configId : Bytes32)
  | quoteConfigAlreadyExists (configId : Bytes32)
  | invalidQuoteAsset (quoteAsset : Address) (quoteDecimals : ℕ)
  | invalidStockQuoteBinding (configId assetUid : Bytes32)
  | stockQuoteAssetNotActive (assetUid : Bytes32) (status : ℕ)
  | stockQuoteAssetMismatch (assetUid : Bytes32) (expectedToken suppliedToken : Address)
      (expectedDecimals suppliedDecimals : ℕ)
  | stockQuoteRequiresImmutableBeacon (assetUid : Bytes32) (quoteAsset : Address)
  | stockQuoteAssetIdentityDrift (assetUid : Bytes32)
  | invalidStockQuoteFingerprint (assetUid suppliedHash expectedHash : Bytes32)
  | quoteAssetIdentityDrift (configId : Bytes32)
  | invalidEconomicsHash (configId suppliedHash expectedHash : Bytes32)
  | invalidStateTransition (currentState requestedState : ℕ)
deriving DecidableEq

/-- Errors of `OfficialStockRegistryV1`. -/
inductive StockRegistryError
  | invalidAssetIdentity (assetUid : Bytes32) (stockToken : Address) (tokenDecimals : ℕ)
      (userStockVault : Address)
  | assetAlreadyRegistered (assetUid : Bytes32)
  | stockTokenAlreadyRegistered (stockToken : Address) (assetUid : Bytes32)
  | invalidStateTransition (currentState requestedState : ℕ)
  | invalidMinimumAllocation (assetUid : Bytes32) (minimumAllocation : ℕ)
  | assetNotRegistered (assetUid : Bytes32)
  | assetIdentityDrift (assetUid : Bytes32)
  | stockTokenIdentityCallFailed (stockToken : Address) (selector : BitVec 32)
  | stockTokenUidMismatch (stockToken : Address) (expectedUid reportedUid : Bytes32)
  | stockTokenDecimalsMismatch (stockToken : Address) (expectedDecimals reportedDecimals : ℕ)
  | unsupportedStockTokenProxy (stockToken expectedBeacon embeddedBeacon : Address)
  | stockTokenFingerprintMismatch (assetUid expectedHash observedHash : Bytes32)
  | invalidAssetImplementation (assetUid : Bytes32) (expectedImplementation : Address)
      (expectedCodeHash : Bytes32) (observedImplementation : Address) (observedCodeHash : Bytes32)
  | unmonitoredDelegateProxy (component : Address)
  | directAssetImplementationImmutable (assetUid : Bytes32)
  | invalidUserStockVaultIdentity (userStockVault reportedOfficialStockRegistry
      reportedMarketRegistry reportedAllocationManager : Address) (reportedSchemaId : Bytes32)
  | vaultSchemaAlreadyRegistered (schemaId : Bytes32) (registeredVault attemptedVault : Address)
  | invalidUserStockVaultCodeIdentity (userStockVault : Address) (expectedHash observedHash : Bytes32)
  | userStockVaultIdentityDrift (userStockVault : Address)
deriving DecidableEq

/-- Errors of the graduation executor. -/
inductive GraduationExecutorError
  | graduationMarketAssetMismatch (marketId : Bytes32)
  | invalidGraduationDust (quoteDust memeRemainder expectedLockedExcessQuote
      expectedLockedExcessMeme : ℕ)
deriving DecidableEq

/-- Errors of `MarketRegistryV1`. -/
inductive MarketRegistryError
  | unauthorizedFactory (caller : Address)
  | marketNotRegistered (marketId : Bytes32)
  | marketAlreadyRegistered (marketId : Bytes32)
  | memeTokenAlreadyRegistered (memeToken : Address) (marketId : Bytes32)
  | invalidMarketConfig
  | invalidExecutionSpecId (supplied : Bytes32)
  | invalidTickerGardenBaseline (baselineId : Bytes32)
  | invalidCanonicalPoolKey
  | unauthorizedModule (caller expectedModule : Address)
  | invalidStateTransition (currentState requestedState : ℕ)
  | poolNotExpected (poolId : Bytes32)
deriving DecidableEq

/-- Errors of `TickerGardenCurve`. -/
inductive CurveError
  | invalidInitialization
  | invalidInitialTokenBalance (expected actual : ℕ)
  | marketBindingMismatch (marketId : Bytes32)
  | marketNotTradable (launchPhase : ℕ) (completed : Bool)
  | invalidPaymentValue (expected actual : ℕ)
  | invalidRecipient (recipient : Address)
  | slippageExceeded (actual minimum : ℕ)
  | transferCallFailed (token : Address)
  | inexactBalanceDelta (token : Address) (expected actual : ℕ)
  | nativeTransferFailed (recipient : Address) (amount : ℕ)
  | insufficientTrackedQuote (available required : ℕ)
  | sweepNonceOverflow
  | curveFeeSweepAfterClose (marketId : Bytes32)
  | atomicGraduationNotCommitted (marketId : Bytes32) (launchPhase : ℕ) (poolId : Bytes32)
deriving DecidableEq

/-- Errors of `UserStockVault`. -/
inductive VaultError
  | invalidAssetUid (assetUid : Bytes32)
  | nonCanonicalVaultBinding (assetUid : Bytes32) (stockToken expectedVault actualVault : Address)
  | invalidCanonicalAsset (assetUid : Bytes32) (stockToken : Address) (status : ℕ)
  | assetNotActive (assetUid : Bytes32) (status : ℕ)
  | assetIdentityDrift (assetUid : Bytes32)
  | invalidMarketId (marketId : Bytes32)
  | marketAssetMismatch (marketId expectedAssetUid actualAssetUid : Bytes32)
  | unauthorizedAllocationManager (caller expectedAllocationManager : Address)
  | invalidDepositAccount (user : Address)
  | invalidDepositAmount (amount : ℕ)
  | stockPrincipalDeficit (assetUid : Bytes32) (balance required : ℕ)
  | stockTransferCallFailed (stockToken : Address)
  | inexactStockBalanceDelta (stockToken : Address) (expected actual : ℕ)
  | rewardActivationTimestampOverflow (timestamp : ℕ)
  | rewardActivationSlotCollision (slotIndex existingGeneration requestedGeneration : ℕ)
  | rewardActivationBucketNotFound (generation : ℕ)
  | invalidRewardActivationBucket (amount refs : ℕ)
  | invalidRewardActivationSlot (slotIndex generation amount refs : ℕ)
  | rewardEligibilityLedgerMismatch (allocation pending : ℕ)
  | rewardAccumulatorRegression (previousQuote suppliedQuote previousMeme suppliedMeme : ℕ)
  | invalidAllocationAccount (user : Address)
  | invalidAllocationAmount (amount : ℕ)
  | allocationExceedsDeposit (requested freeBalance : ℕ)
  | noMarketAllocation (user : Address) (marketId : Bytes32)
  | allocationLedgerMismatch
  | rageQuitRewardSettlementPending (user : Address) (marketId : Bytes32) (principal : ℕ)
  | noRageQuitRewardSettlement (user : Address) (marketId : Bytes32)
  | invalidWithdrawalAmount (amount : ℕ)
  | insufficientFreeBalance (requested available : ℕ)
  | stockWithdrawalCallFailed (stockToken : Address)
  | inexactStockWithdrawalDelta (stockToken : Address) (expected vaultDecrease userIncrease : ℕ)
deriving DecidableEq

/-- Errors of `AllocationManager`. -/
inductive AllocationManagerError
  | invalidAllocationUser (user : Address)
  | invalidAllocationAmount (amount : ℕ)
  | stockAllocationClosed (marketId : Bytes32)
  | assetIdentityDrift (assetUid : Bytes32)
  | invalidAllocationComponents (marketId : Bytes32) (vault gauge : Address)
  | invalidAssetMinimumAllocation (assetUid : Bytes32) (minimumAllocation : ℕ)
  | positionBelowMinimum (position minimumPosition : ℕ)
  | allocationLedgerMismatch
  | allocationTimestampOverflow (timestamp : ℕ)
  | positionLockedUntil (unlockAt : ℕ)
  | noAllocationPosition (user : Address) (marketId : Bytes32)
  | noRageQuitRewardSettlement (user : Address) (marketId : Bytes32)
  | unauthorizedRewardStateGauge (caller expectedGauge : Address)
deriving DecidableEq

/-- Errors of `CreatorTax`. -/
inductive CreatorTaxError
  | creatorTaxTooHigh (supplied maximum : ℕ)
deriving DecidableEq

/-- Errors of `MarketFeeAccounting`. -/
inductive MarketFeeAccountingError
  | invalidV4FeePartition (totalFee lpAmount nonLpAmount expectedLpAmount : ℕ)
deriving DecidableEq

/-- Errors of `ProtocolFeeVault`. -/
inductive FeeVaultError
  | inactiveFeeSource (marketId : Bytes32) (sourceVersion : ℕ)
  | feeAmountTooLarge (amount : ℕ)
  | feeAssetNotCanonical (feeAsset : Address)
  | feeIdAlreadyConsumed (feeId : Bytes32)
  | feeCreditNotPrepared (feeId : Bytes32)
  | feeBalanceDeltaMismatch (feeAsset : Address) (expected actual : ℕ)
  | feeAssetBalanceUnavailable (feeAsset : Address)
  | unauthorizedMarketCurve (caller expected : Address)
  | curveFeeSweepAfterClose (marketId : Bytes32)
  | creatorEpochUnavailable (marketId : Bytes32) (creatorEpoch : Epoch)
  | creatorFeesAssignedToHolders
  | invalidFeeMarket (marketId : Bytes32)
  | invalidFeeLiabilityCredit (amount bucketTotal : ℕ)
  | insufficientStakerLiability (marketId : Bytes32) (feeAsset : Address) (liability claimable : ℕ)
  | feeVaultInsolvent (feeAsset : Address) (balance liability : ℕ)
  | nativeFeeClaimFailed (beneficiary : Address) (amount : ℕ)
  | inexactFeePayment (feeAsset beneficiary : Address) (expected vaultDecrease
      beneficiaryIncrease : ℕ)
  | unauthorizedForfeitureGauge (caller expectedGauge : Address)
  | invalidForfeiture (user : Address) (quoteAmount memeAmount : ℕ)
  | invalidDeficitContribution
  | insufficientStakerSettlementGas
  | onlyStakerSettlementSelf
  | invalidV4FeeAmounts (base totalFee expectedTotalFee : ℕ)
  | invalidV4MarketPolicy (marketId feePolicyId executionSpecId : Bytes32)
  | creatorEpochUnavailableForV4 (marketId : Bytes32) (creatorEpoch : Epoch)
  | invalidUserClaim
  | rewardBalanceMismatch
  | holderSnapshotProofRequired
  | invalidHolderFundingBatch
  | unexpectedHolderFundingReturn
  | invalidPlatformTreasury (platformTreasury : Address)
  | unauthorizedTreasuryActor (caller : Address)
  | treasuryProposalPending
  | invalidTreasuryProposal (nonce : ℕ)
  | treasuryChangeNotReady
  | treasuryCodeChanged (treasury : Address)
deriving DecidableEq

/-- Errors of `TickerGardenMemeHook`. -/
inductive HookError
  | invalidCanonicalPoolKey
  | poolNotExpected (poolId : Bytes32)
  | inactiveFeeSource (marketId : Bytes32) (sourceVersion : ℕ)
  | invalidSwapAmountSpecified (amountSpecified : ℤ)
  | feeAmountTooLarge (amount : ℕ)
  | feeAssetNotCanonical (feeAsset : Address)
  | hookFeeNonceOverflow (poolId : Bytes32)
deriving DecidableEq

/-- Errors of `MemeStockGauge`. -/
inductive GaugeError
  | activationSlotCollision (slotIndex existingGeneration requestedGeneration : ℕ)
  | pendingGenerationNotFound (generation : ℕ)
  | invalidActivationGeneration (suppliedGeneration expectedGeneration : ℕ)
  | invalidActivationBucket (amount refs : ℕ)
  | invalidActivationSlotState (slotIndex generation amount refs : ℕ)
  | activationTimestampOverflow (timestamp : ℕ)
  | activationSnapshotAlreadyProcessed (generation : ℕ)
  | invalidActivationSnapshot (generation refs : ℕ) (processed : Bool)
  | invalidGaugePosition (user : Address) (pendingAmount pendingGeneration : ℕ)
  | invalidPendingUser (user : Address)
  | invalidPendingAmount (amount : ℕ)
  | invalidPendingSchedule (suppliedGeneration suppliedUnlockAt expectedGeneration
      expectedUnlockAt : ℕ)
  | positionLockTimestampOverflow (timestamp : ℕ)
  | invalidRemovalUser (user : Address)
  | invalidPositionLock (user : Address) (unlockAt : ℕ)
  | positionLockedUntil (unlockAt : ℕ)
  | pendingPositionNotMaterialized (user : Address) (amount generation : ℕ)
  | noActiveAllocation (user : Address)
  | invalidSettlementUser (user : Address)
  | invalidRewardIndex (rewardIndex : ℕ)
  | stakerCreditWithoutActiveStock (amount : ℕ)
  | rewardAccumulatorRegression (startingAccumulator currentAccumulator : ℕ)
  | invalidUserRewardRemainder (remainder : ℕ)
  | invalidRageQuitUser (user : Address)
  | noRageQuitPosition (user : Address)
  | unauthorizedAllocationModule (caller expected : Address)
  | unauthorizedFeeVault (caller expected : Address)
  | unauthorizedSettlementCaller (caller : Address)
  | unsupportedRewardAsset (feeAsset : Address)
  | rageQuitRewardSettlementPending (user : Address) (marketId : Bytes32) (principal : ℕ)
deriving DecidableEq

/-- Errors of `LaunchLocker` and the contracts it is made of. -/
inductive LaunchLockerError
  | unsupportedLaunchLockerCurrency (currency : Address)
  | lockedPositionNotOwned (tokenId : ℕ) (actualOwner : Address)
  | unauthorizedCompoundKeeper
  | invalidCompoundPlan
  | invalidCompoundPosition
  | compoundBalanceMismatch
deriving DecidableEq

/-- Errors of `HolderRewardsDistributorV1`. -/
inductive HolderRewardsError
  | invalidMarket
  | unauthorized
  | invalidPublisher
  | invalidFunding
  | invalidPublication
  | invalidClaim
  | alreadyClaimed
  | budgetExceeded
  | inexactTransfer
  | transferFailed
  | insolvent
deriving DecidableEq

/-- Errors of `LaunchTemplateRegistry`. -/
inductive TemplateRegistryError
  | invalidLaunchTemplate (launchTemplateId : Bytes32)
  | launchTemplateAlreadyExists (launchTemplateId : Bytes32)
  | codeIdentityMismatch (component : Address) (suppliedHash observedHash : Bytes32)
  | unsafeTemplateRuntime (component : Address) (opcode : BitVec 8)
  | invalidLaunchTemplateBindings (hook executor : Address)
  | invalidStateTransition (currentState requestedState : ℕ)
deriving DecidableEq

/-- Errors of `V1FactoryValidation`. -/
inductive FactoryValidationError
  | invalidCreator (creator : Address)
  | invalidCreatorRevenueBeneficiary (beneficiary : Address)
  | invalidStakingConfiguration
  | inactiveAsset (assetUid : Bytes32) (status : ℕ)
  | assetIdentityDrift (assetUid : Bytes32)
  | invalidVaultSchema (assetUid : Bytes32) (vault : Address) (schemaId : Bytes32)
      (registeredVault : Address)
  | vaultIdentityDrift (assetUid : Bytes32) (vault : Address) (expectedRuntimeCodeHash : Bytes32)
  | invalidVaultIdentity (assetUid : Bytes32) (vault officialStockRegistry marketRegistry
      allocationManager : Address) (schemaId : Bytes32)
  | inactiveQuote (quoteAssetConfigId : Bytes32) (status : ℕ)
  | quoteIdentityDrift (quoteAssetConfigId : Bytes32)
  | inactiveTickerGardenBaseline (tickerGardenBaselineId : Bytes32) (status : ℕ)
  | inactiveLaunchTemplate (launchTemplateId : Bytes32) (status : ℕ)
  | quoteBaselineMismatch (quoteBaselineId requestedBaselineId : Bytes32)
  | invalidQuoteEconomics (quoteAssetConfigId economicsHash : Bytes32)
  | invalidLaunchTemplateBinding (feePolicyId executionSpecId : Bytes32)
  | invalidFeePolicy (feePolicyId : Bytes32)
  | expectedEconomicsMismatch (supplied computed : Bytes32)
deriving DecidableEq

/-- Everything a call can be abandoned with. -/
inductive Revert
  | panic (p : Checked.Panic)
  /-- A `require` of a library that gives no reason. -/
  | noReason
  | staticLPFee (e : StaticLPFeeError)
  | graduationPoolMath (e : GraduationPoolMathError)
  | economicDomain (e : EconomicDomainError)
  | delayedUnpause (e : DelayedUnpauseError)
  | baselineRegistry (e : BaselineRegistryError)
  | quoteRegistry (e : QuoteRegistryError)
  | stockRegistry (e : StockRegistryError)
  | graduationExecutor (e : GraduationExecutorError)
  | marketRegistry (e : MarketRegistryError)
  | supplyMath (e : SupplyMathError)
  | curveMath (e : CurveMathError)
  | antiSnipe (e : AntiSnipeError)
  | curve (e : CurveError)
  | vault (e : VaultError)
  | allocationManager (e : AllocationManagerError)
  | creatorTax (e : CreatorTaxError)
  | marketFeeAccounting (e : MarketFeeAccountingError)
  | feeVault (e : FeeVaultError)
  | hook (e : HookError)
  | gauge (e : GaugeError)
  | launchLocker (e : LaunchLockerError)
  | holderRewards (e : HolderRewardsError)
  | templateRegistry (e : TemplateRegistryError)
  | factoryValidation (e : FactoryValidationError)
deriving DecidableEq

instance : Checked.Panics Revert := ⟨Revert.panic⟩

/-- A call that may run out of gas on the way. -/
def ifGas {α : Type} (enough : Bool) (x : Except Revert α) : Except Revert α :=
  if enough then x else .error .noReason

/-- A call that ends has had enough gas. -/
theorem ifGas_eq_ok {α : Type} {enough : Bool} {x : Except Revert α} {a : α} :
    ifGas enough x = .ok a ↔ enough = true ∧ x = .ok a := by
  cases enough with
  | true => exact (and_iff_right rfl).symm
  | false =>
    constructor
    · rintro ⟨⟩
    · rintro ⟨⟨⟩, -⟩

end TickerGarden
