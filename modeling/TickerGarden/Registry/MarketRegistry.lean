import TickerGarden.Graduation.PoolMath

/-!
# The market registry

`MarketRegistryV1` records a market once: its configuration is validated and frozen,
and its runtime – the pool, the fee source version and the launch phase – changes a
single time, when the pool is committed.

What validation establishes about the configuration *itself* is carried by the type
of a registered configuration, `TickerGarden.RegisteredConfig`: its two currencies are
distinct, its hook has exactly the permissions of ours, its fees are among the
allowed ones. The only way to build one is `TickerGarden.MarketRegistry.registerMarket`,
whose checks return the proofs. Whatever reads a market of the registry has these
facts, without re-proving them.

What validation checks against the other registries – that the quote and the
baseline are active, and agree with each other – holds at registration; the quote
configurations and baselines are append-only, so the part of it that is not a status
is an invariant, `TickerGarden.MarketRegistry.Consistent`.
-/

namespace TickerGarden

open Checked Function

/-- `LAUNCH_PHASE_NOT_GRADUATED`. -/
def launchPhaseNotGraduated : ℕ := 0

/-- `LAUNCH_PHASE_POOL_CREATED`. -/
def launchPhasePoolCreated : ℕ := 1

/-- `CONFIG_STATUS_ACTIVE`. -/
def configStatusActive : ℕ := 1

/-- The identifiers and accounts a configuration may not leave empty. -/
def MarketConfig.Identified (config : MarketConfig) : Prop :=
  config.tickerGardenBaselineId ≠ 0 ∧ config.quoteAssetConfigId ≠ 0 ∧
    config.launchTemplateId ≠ 0 ∧ config.feePolicyId ≠ 0 ∧ config.expectedEconomics ≠ 0 ∧
    config.creatorRevenueBeneficiaryAtCreation ≠ 0 ∧ config.memeToken ≠ 0 ∧ config.curve ≠ 0 ∧
    config.graduatedHook ≠ 0 ∧ config.creatorTaxBps ≤ 500

instance (config : MarketConfig) : Decidable config.Identified :=
  inferInstanceAs (Decidable (_ ∧ _))

/-- A market either stakes an asset through a gauge, or has neither. -/
def MarketConfig.StakingShape (config : MarketConfig) : Prop :=
  if config.stakingEnabled then config.assetUid ≠ 0 ∧ config.gauge ≠ 0
  else config.assetUid = 0 ∧ config.gauge = 0

instance (config : MarketConfig) : Decidable config.StakingShape :=
  inferInstanceAs (Decidable (if config.stakingEnabled = true
    then config.assetUid ≠ 0 ∧ config.gauge ≠ 0 else config.assetUid = 0 ∧ config.gauge = 0))

/-- **A registered configuration**: a configuration with what its registration
established about it. -/
structure RegisteredConfig extends MarketConfig where
  identified : toMarketConfig.Identified
  quoteAsset_ne_memeToken : quoteAsset ≠ memeToken
  hook_permissions :
    graduatedHook &&& PoolMath.allHookPermissionBits = PoolMath.hookPermissionMask
  stakingShape : toMarketConfig.StakingShape
  lpFee_allowed : StaticLPFee.isAllowed lpFeePips = true
deriving DecidableEq

/-- What the market registry answers about a market. -/
structure MarketView where
  config : RegisteredConfig
  runtime : MarketRuntime
deriving DecidableEq

/-- A launch template, as far as the registry compares it with a market. -/
structure LaunchTemplate where
  graduatedHook : Address
  graduationExecutor : Address
  feePolicyId : Bytes32
  executionSpecId : Bytes32
  status : ℕ

/-- The storage of the registries a market is created from and recorded in. -/
structure Registries where
  /-- `OfficialStockRegistryV1.asset`. -/
  asset : Bytes32 → AssetView
  /-- `OfficialStockRegistryV1.assetIdentityCurrent`. -/
  assetIdentityCurrent : Bytes32 → Bool
  /-- `OfficialStockRegistryV1.minimumAllocation`. -/
  minimumAllocation : Bytes32 → ℕ
  assetUidByStockToken : Address → Bytes32
  /-- `_pausedAt` of the stock registry. -/
  assetPausedAt : Bytes32 → ℕ
  /-- `ApprovedQuoteRegistry.quoteConfig`. -/
  quoteConfig : Bytes32 → QuoteAssetConfig
  /-- `ApprovedQuoteRegistry.quoteIdentityCurrent`. -/
  quoteIdentityCurrent : Bytes32 → Bool
  /-- `_pausedAt` of the quote registry. -/
  quotePausedAt : Bytes32 → ℕ
  /-- `TickerGardenBaselineRegistry.baseline`. -/
  baseline : Bytes32 → TickerGardenBaseline
  /-- `_pausedAt` of the baseline registry. -/
  baselinePausedAt : Bytes32 → ℕ
  /-- `LaunchTemplateRegistry.launchTemplate`. -/
  launchTemplate : Bytes32 → LaunchTemplate
  /-- The registered markets, configuration and runtime. -/
  markets : Bytes32 → Option MarketView
  marketIdsByToken : Address → Bytes32

namespace MarketRegistry

/-- The immutable bindings of the registry. -/
structure Bindings where
  factory : Address
  graduationExecutor : Address
  /-- `EXECUTION_SPEC_ID`. -/
  executionSpecId : Bytes32

/-! ### The source functions -/

/-- A check that hands its proof on. -/
def require (c : Prop) [Decidable c] (e : Revert) : Except Revert (PLift c) :=
  if h : c then .ok ⟨h⟩ else .error e

/-- `_validatePoolBaseline`. -/
def validatePoolBaseline (baselineId : Bytes32) (launchConfigId : ℕ)
    (baseline : TickerGardenBaseline) : Except Revert Unit :=
  revertIf (baseline.launchConfigId ≠ launchConfigId ∨ baseline.poolFee ≠ 0 ∨
      baseline.tickSpacing < 1 ∨ baseline.tickSpacing > 32767)
    (.marketRegistry (.invalidTickerGardenBaseline baselineId))

variable (bindings : Bindings)

/-- The part of `_validateConfig` that compares a configuration with the other
registries: the stock asset if it stakes one, the quote, the baseline, the template. -/
def validateAgainstRegistries (r : Registries) (config : MarketConfig) : Except Revert Unit := do
  let invalid := Revert.marketRegistry .invalidMarketConfig
  let asset := r.asset config.assetUid
  revertIf (config.stakingEnabled ∧ (asset.status ≠ configStatusActive ∨ asset.stockToken = 0 ∨
    asset.userStockVault = 0 ∨ asset.tokenDecimals < 6 ∨ asset.tokenDecimals > 18 ∨
    ¬ r.assetIdentityCurrent config.assetUid)) invalid
  let quote := r.quoteConfig config.quoteAssetConfigId
  revertIf (quote.status ≠ configStatusActive ∨
    quote.tickerGardenBaselineId ≠ config.tickerGardenBaselineId ∨
    quote.quoteAsset ≠ config.quoteAsset ∨ quote.economicsHash ≠ config.quoteAssetConfigId ∨
    ¬ r.quoteIdentityCurrent config.quoteAssetConfigId) invalid
  let baseline := r.baseline config.tickerGardenBaselineId
  validatePoolBaseline config.tickerGardenBaselineId config.launchConfigId baseline
  revertIf (baseline.status ≠ configStatusActive)
    (.marketRegistry (.invalidTickerGardenBaseline config.tickerGardenBaselineId))
  let template := r.launchTemplate config.launchTemplateId
  revertIf (template.status ≠ configStatusActive ∨ template.feePolicyId ≠ config.feePolicyId ∨
    template.executionSpecId ≠ config.executionSpecId ∨
    template.graduatedHook ≠ config.graduatedHook ∨
    template.graduationExecutor ≠ bindings.graduationExecutor) invalid

/-- **Registration**: validate the configuration and freeze it, with a runtime that
has not graduated. -/
def registerMarket (caller : Address) (r : Registries) (marketId : Bytes32)
    (config : MarketConfig) : Except Revert Registries := do
  let invalid := Revert.marketRegistry .invalidMarketConfig
  revertIf (caller ≠ bindings.factory) (.marketRegistry (.unauthorizedFactory caller))
  revertIf (r.markets marketId).isSome (.marketRegistry (.marketAlreadyRegistered marketId))
  revertIf (marketId = 0) invalid
  let ⟨identified⟩ ← require config.Identified invalid
  revertIf (config.executionSpecId ≠ bindings.executionSpecId)
    (.marketRegistry (.invalidExecutionSpecId config.executionSpecId))
  let ⟨distinct⟩ ← require (config.quoteAsset ≠ config.memeToken)
    (.marketRegistry .invalidCanonicalPoolKey)
  let ⟨permissions⟩ ← require
    (config.graduatedHook &&& PoolMath.allHookPermissionBits = PoolMath.hookPermissionMask)
    (.marketRegistry .invalidCanonicalPoolKey)
  let ⟨shape⟩ ← require config.StakingShape invalid
  validateAgainstRegistries bindings r config
  let ⟨allowed⟩ ← require (StaticLPFee.isAllowed config.lpFeePips = true)
    (.staticLPFee (.invalidLPFee config.lpFeePips))
  let tokenMarketId := r.marketIdsByToken config.memeToken
  revertIf (tokenMarketId ≠ 0)
    (.marketRegistry (.memeTokenAlreadyRegistered config.memeToken tokenMarketId))
  let registered : RegisteredConfig := ⟨config, identified, distinct, permissions, shape, allowed⟩
  let runtime : MarketRuntime :=
    { poolId := 0, sourceVersion := 1, launchPhase := launchPhaseNotGraduated }
  return { r with
    markets := update r.markets marketId (some ⟨registered, runtime⟩)
    marketIdsByToken := update r.marketIdsByToken config.memeToken marketId }

/-- `market`: the view of a registered market. -/
def market (r : Registries) (marketId : Bytes32) : Except Revert MarketView :=
  orRevert (r.markets marketId) (.marketRegistry (.marketNotRegistered marketId))

/-- `canonicalPoolKey`: the key of a market's pool, its currencies in address order. -/
def canonicalPoolKey (r : Registries) (marketId : Bytes32) : Except Revert PoolKey := do
  let view ← market r marketId
  let config := view.config
  let baseline := r.baseline config.tickerGardenBaselineId
  validatePoolBaseline config.tickerGardenBaselineId config.launchConfigId baseline
  let currencies := if config.quoteAsset < config.memeToken
    then (config.quoteAsset, config.memeToken) else (config.memeToken, config.quoteAsset)
  return { currency0 := currencies.1, currency1 := currencies.2, fee := config.lpFeePips,
           tickSpacing := baseline.tickSpacing, hooks := config.graduatedHook }

/-- `_canonicalPoolId`. -/
def canonicalPoolId (platform : Platform) (r : Registries) (marketId : Bytes32) :
    Except Revert Bytes32 := do
  let key ← canonicalPoolKey r marketId
  return platform.keccak256 (.poolKey key)

/-- `commitPoolCreated`: the one change of a market's runtime. -/
def commitPoolCreated (platform : Platform) (caller : Address) (r : Registries)
    (marketId poolId : Bytes32) : Except Revert (Registries × ℕ) := do
  revertIf (caller ≠ bindings.graduationExecutor)
    (.marketRegistry (.unauthorizedModule caller bindings.graduationExecutor))
  let view ← market r marketId
  revertIf (view.runtime.launchPhase ≠ launchPhaseNotGraduated)
    (.marketRegistry (.invalidStateTransition view.runtime.launchPhase launchPhasePoolCreated))
  let canonical ← canonicalPoolId platform r marketId
  revertIf (poolId = 0 ∨ poolId ≠ canonical) (.marketRegistry (.poolNotExpected poolId))
  let sourceVersion ← incr maxUint32 view.runtime.sourceVersion
  let runtime : MarketRuntime :=
    { poolId, sourceVersion, launchPhase := launchPhasePoolCreated }
  return ({ r with markets := update r.markets marketId (some ⟨view.config, runtime⟩) },
    sourceVersion)

/-- `activeFeeSource`: who may credit fees of a market, and under which version. -/
def activeFeeSource (r : Registries) (marketId : Bytes32) : Except Revert (Address × ℕ) := do
  let view ← market r marketId
  return if view.runtime.launchPhase = launchPhaseNotGraduated then
      (view.config.curve, view.runtime.sourceVersion)
    else if view.runtime.launchPhase = launchPhasePoolCreated then
      (view.config.graduatedHook, view.runtime.sourceVersion)
    else (0, 0)

/-! ### What stays true of a registered market -/

/-- What registration compared, as far as it can never change: the quote and the
baseline of the market, whose contents are append-only. -/
structure ConsistentMarket (r : Registries) (config : MarketConfig) : Prop where
  quote_baseline : (r.quoteConfig config.quoteAssetConfigId).tickerGardenBaselineId
    = config.tickerGardenBaselineId
  quote_asset : (r.quoteConfig config.quoteAssetConfigId).quoteAsset = config.quoteAsset
  quote_hash :
    (r.quoteConfig config.quoteAssetConfigId).economicsHash = config.quoteAssetConfigId
  quote_set : (r.quoteConfig config.quoteAssetConfigId).status ≠ 0
  baseline_set : (r.baseline config.tickerGardenBaselineId).status ≠ 0
  baseline_ok : validatePoolBaseline config.tickerGardenBaselineId config.launchConfigId
    (r.baseline config.tickerGardenBaselineId) = .ok ()

/-- **Every registered market is consistent** with the quotes and baselines. -/
def Consistent (r : Registries) : Prop :=
  ∀ marketId view, r.markets marketId = some view → ConsistentMarket r view.config.toMarketConfig

variable {bindings} {r r' : Registries} {marketId : Bytes32}

theorem consistentMarket_of_validate {config : MarketConfig} {u : Unit}
    (h : validateAgainstRegistries bindings r config = .ok u) : ConsistentMarket r config := by
  simp only [validateAgainstRegistries, bind_eq_ok, revertIf_eq_ok, not_or, not_not] at h
  obtain ⟨-, -, -, ⟨hq1, hq2, hq3, hq4, -⟩, _, hbase, -, hb, -⟩ := h
  refine ⟨hq2, hq3, hq4, ?_, ?_, hbase⟩
  · rw [hq1]; decide
  · rw [hb]; decide

/-- What a registration records, and that it changes nothing else. -/
theorem registerMarket_eq_ok {caller : Address} {config : MarketConfig}
    (h : registerMarket bindings caller r marketId config = .ok r') :
    r.markets marketId = none ∧ ConsistentMarket r config ∧
    ∃ view : MarketView, view.config.toMarketConfig = config ∧
      view.runtime = { poolId := 0, sourceVersion := 1, launchPhase := launchPhaseNotGraduated } ∧
      r' = { r with
        markets := update r.markets marketId (some view)
        marketIdsByToken := update r.marketIdsByToken config.memeToken marketId } := by
  simp only [registerMarket, bind_eq_ok, revertIf_eq_ok, pure_eq_ok, Except.ok.injEq,
    Bool.not_eq_true, Option.isSome_eq_false_iff, Option.isNone_iff_eq_none] at h
  obtain ⟨-, -, -, hnone, -, -, ⟨hid⟩, -, -, -, ⟨hne⟩, -, ⟨hhook⟩, -, ⟨hshape⟩, -, u, hval, ⟨hfee⟩,
    -, -, -, rfl⟩ := h
  exact ⟨hnone, consistentMarket_of_validate hval, ⟨⟨config, hid, hne, hhook, hshape, hfee⟩, _⟩, rfl,
    rfl, rfl⟩

/-- Committing a pool keeps the configuration of the market, and the other markets. -/
theorem commitPoolCreated_eq_ok {platform : Platform} {caller : Address} {poolId : Bytes32}
    {version : ℕ}
    (h : commitPoolCreated bindings platform caller r marketId poolId = .ok (r', version)) :
    ∃ view, r.markets marketId = some view ∧
      view.runtime.launchPhase = launchPhaseNotGraduated ∧ poolId ≠ 0 ∧
      canonicalPoolId platform r marketId = .ok poolId ∧
      version = view.runtime.sourceVersion + 1 ∧
      r' = { r with
        markets := update r.markets marketId (some ⟨view.config,
          { poolId, sourceVersion := version, launchPhase := launchPhasePoolCreated }⟩) } := by
  simp only [commitPoolCreated, market, bind_eq_ok, revertIf_eq_ok, orRevert_eq_ok, pure_eq_ok,
    incr_eq_ok, Except.ok.injEq, Prod.mk.injEq, not_or, not_not] at h
  obtain ⟨-, -, view, hview, -, hphase, canonical, hcanon, -, ⟨hne, rfl⟩, _, ⟨-, rfl⟩, rfl, rfl⟩ := h
  exact ⟨view, hview, hphase, hne, hcanon, rfl, rfl⟩

/-- A consistent market has a canonical key. -/
theorem canonicalPoolKey_of_consistent {view : MarketView} (hview : r.markets marketId = some view)
    (h : ConsistentMarket r view.config.toMarketConfig) :
    ∃ key, canonicalPoolKey r marketId = .ok key := by
  simp only [canonicalPoolKey, market, bind_eq_ok, orRevert_eq_ok, pure_eq_ok, Except.ok.injEq]
  exact ⟨_, view, hview, (), h.baseline_ok, rfl⟩

/-- **The canonical key of a consistent market is valid** for its two currencies: it
is the key a pool can be derived for. -/
theorem validKey_of_canonicalPoolKey {view : MarketView} {key : PoolKey}
    (h : canonicalPoolKey r marketId = .ok key) (hview : r.markets marketId = some view) :
    PoolMath.ValidKey key view.config.quoteAsset view.config.memeToken ∧
      key.tickSpacing = (r.baseline view.config.tickerGardenBaselineId).tickSpacing ∧
      key.hooks = view.config.graduatedHook := by
  simp only [canonicalPoolKey, market, bind_eq_ok, orRevert_eq_ok, pure_eq_ok, Except.ok.injEq,
    hview, Option.some.injEq, exists_eq_left', validatePoolBaseline, revertIf_eq_ok, not_or,
    not_lt, not_not] at h
  obtain ⟨-, ⟨-, -, hts1, hts2⟩, rfl⟩ := h
  obtain ⟨-, -, -, -, -, -, hmeme, -, hhook, -⟩ := view.config.identified
  have hne := view.config.quoteAsset_ne_memeToken
  refine ⟨⟨hmeme, hne, ?_, ?_, ?_, view.config.lpFee_allowed, hts1, hts2, hhook,
    view.config.hook_permissions⟩, rfl, rfl⟩
  · dsimp only; split <;> rfl
  · dsimp only; split <;> rfl
  · dsimp only
    split
    · assumption
    · rename_i hlt
      exact BitVec.lt_of_le_ne (BitVec.not_lt.mp hlt) (Ne.symm hne)

end MarketRegistry

end TickerGarden
