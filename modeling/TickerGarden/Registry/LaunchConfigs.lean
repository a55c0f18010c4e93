import TickerGarden.Registry.MarketRegistry

/-!
# Baselines, quote configurations and stock assets

A market is created from a baseline, a quote configuration and, if it stakes one, a
stock asset. The three registries are append-only: an entry is added once, under an
identifier that had none, and from then on only its status moves – active, paused,
retired – never its contents. A paused entry can become active again, but not before a
day has passed since it was paused.

The lifecycle is the same in the three registries and is written once,
`TickerGarden.Lifecycle`; the operations of each registry are that lifecycle applied to
the entry, with the registry's own errors.
-/

namespace TickerGarden

open Checked Function

/-- `CONFIG_STATUS_PAUSED`. -/
def configStatusPaused : ℕ := 2

/-- `CONFIG_STATUS_RETIRED`. -/
def configStatusRetired : ℕ := 3

namespace DelayedUnpause

/-- `UNPAUSE_STATE_DELAY`: one day. -/
def unpauseStateDelay : ℕ := 86400

/-- `_recordPause`: the timestamp to remember. -/
def recordPause (now : ℕ) : Except Revert ℕ := do
  revertIf (now > maxUint64 - unpauseStateDelay)
    (.delayedUnpause (.unpauseTimestampOverflow now))
  return now

/-- `_requireUnpauseReady`. -/
def requireUnpauseReady (objectId : Bytes32) (pausedAt now : ℕ) : Except Revert Unit := do
  revertIf (pausedAt + unpauseStateDelay > maxUint64) (.panic .arithmetic)
  let readyAt := pausedAt + unpauseStateDelay
  revertIf (now < readyAt) (.delayedUnpause (.unpauseStateDelayNotElapsed objectId readyAt))

end DelayedUnpause

/-! ### The lifecycle of an entry -/

/-- The status of an entry, and when it was paused. -/
structure Lifecycle where
  status : ℕ
  pausedAt : ℕ

namespace Lifecycle

variable (invalid : ℕ → ℕ → Revert) (l : Lifecycle)

/-- An active entry is paused. -/
def pause (now : ℕ) : Except Revert Lifecycle := do
  revertIf (l.status ≠ configStatusActive) (invalid l.status configStatusPaused)
  let pausedAt ← DelayedUnpause.recordPause now
  return { status := configStatusPaused, pausedAt }

/-- A paused entry is active again, after the delay, if its identity still holds. -/
def unpause (objectId : Bytes32) (now : ℕ) (identity : Except Revert Unit) :
    Except Revert Lifecycle := do
  revertIf (l.status ≠ configStatusPaused) (invalid l.status configStatusActive)
  DelayedUnpause.requireUnpauseReady objectId l.pausedAt now
  identity
  return { status := configStatusActive, pausedAt := 0 }

/-- An active or paused entry is retired for good. -/
def retire : Except Revert Lifecycle := do
  revertIf (l.status ≠ configStatusActive ∧ l.status ≠ configStatusPaused)
    (invalid l.status configStatusRetired)
  return { status := configStatusRetired, pausedAt := 0 }

variable {invalid} {l} {l' : Lifecycle}

/-- A change of status is one of an entry that is set, and leaves it set. -/
structure Live (l l' : Lifecycle) : Prop where
  before : l.status ≠ 0
  after : l'.status ≠ 0
  after_le : l'.status ≤ configStatusRetired

theorem live_of_pause {now : ℕ} (h : pause invalid l now = .ok l') : Live l l' := by
  simp only [pause, bind_eq_ok, revertIf_eq_ok, pure_eq_ok, Except.ok.injEq, not_not] at h
  obtain ⟨-, hactive, _, -, rfl⟩ := h
  exact ⟨by rw [hactive]; decide, Nat.succ_ne_zero _, Nat.le_succ _⟩

theorem live_of_unpause {objectId : Bytes32} {now : ℕ} {identity : Except Revert Unit}
    (h : unpause invalid l objectId now identity = .ok l') : Live l l' := by
  simp only [unpause, bind_eq_ok, revertIf_eq_ok, pure_eq_ok, Except.ok.injEq, not_not] at h
  obtain ⟨-, hpaused, -, -, -, -, rfl⟩ := h
  exact ⟨by rw [hpaused]; decide, by decide, by decide⟩

theorem live_of_retire (h : retire invalid l = .ok l') : Live l l' := by
  simp only [retire, bind_eq_ok, revertIf_eq_ok, pure_eq_ok, Except.ok.injEq, not_and, not_not] at h
  obtain ⟨-, hstatus, rfl⟩ := h
  refine ⟨fun hzero => ?_, by decide, le_rfl⟩
  have := hstatus (by rw [hzero]; decide)
  rw [hzero] at this
  exact absurd this (by decide)

end Lifecycle

/-- What a registry observes of the code at an account. -/
structure CodeView where
  hasCode : Address → Bool
  codeHash : Address → Bytes32
  /-- What `decimals` answers, when it answers with one word. -/
  decimals : Address → Option ℕ

/-! ### The baseline registry -/

namespace TickerGardenBaselineRegistry

/-- `MAX_CURVE_FEE_BPS`. -/
def maxCurveFeeBps : ℕ := 9900

/-- `addBaseline`: append a baseline. -/
def addBaseline (code : CodeView) (r : Registries) (baselineId : Bytes32)
    (value : TickerGardenBaseline) : Except Revert Registries := do
  revertIf (baselineId = 0 ∨ value.referenceChainId = 0 ∨ value.referenceFactory = 0 ∨
      value.referenceFactoryCodeHash = 0 ∨ value.supply = 0 ∨ value.supply > maxInt128 ∨
      value.curveFeeBps > maxCurveFeeBps ∨ value.poolFee ≠ 0 ∨ value.tickSpacing < 1 ∨
      value.tickSpacing > 32767 ∨ value.behaviorVectorRoot = 0 ∨
      value.status ≠ configStatusActive)
    (.baselineRegistry (.invalidTickerGardenBaseline baselineId))
  revertIf ((r.baseline baselineId).status ≠ 0)
    (.baselineRegistry (.tickerGardenBaselineAlreadyExists baselineId))
  let observedHash := code.codeHash value.referenceFactory
  revertIf (¬ code.hasCode value.referenceFactory ∨ observedHash ≠ value.referenceFactoryCodeHash)
    (.baselineRegistry (.referenceFactoryCodeHashMismatch value.referenceFactory
      value.referenceFactoryCodeHash observedHash))
  return { r with baseline := update r.baseline baselineId value }

/-- The lifecycle of a baseline. -/
def lifecycle (r : Registries) (baselineId : Bytes32) : Lifecycle :=
  ⟨(r.baseline baselineId).status, r.baselinePausedAt baselineId⟩

/-- The registries with the lifecycle of a baseline replaced. -/
def withLifecycle (r : Registries) (baselineId : Bytes32) (l : Lifecycle) : Registries :=
  { r with
    baseline := update r.baseline baselineId
      { r.baseline baselineId with status := l.status }
    baselinePausedAt := update r.baselinePausedAt baselineId l.pausedAt }

/-- The error of a change of status that is not allowed. -/
def invalidTransition (currentState requestedState : ℕ) : Revert :=
  .baselineRegistry (.invalidStateTransition currentState requestedState)

/-- `pauseBaseline`. -/
def pauseBaseline (now : ℕ) (r : Registries) (baselineId : Bytes32) : Except Revert Registries := do
  let l ← (lifecycle r baselineId).pause invalidTransition now
  return withLifecycle r baselineId l

/-- `unpauseBaseline`. -/
def unpauseBaseline (now : ℕ) (r : Registries) (baselineId : Bytes32) :
    Except Revert Registries := do
  let l ← (lifecycle r baselineId).unpause invalidTransition baselineId now (.ok ())
  return withLifecycle r baselineId l

/-- `retireBaseline`. -/
def retireBaseline (r : Registries) (baselineId : Bytes32) : Except Revert Registries := do
  let l ← (lifecycle r baselineId).retire invalidTransition
  return withLifecycle r baselineId l

end TickerGardenBaselineRegistry

/-! ### The quote registry -/

namespace ApprovedQuoteRegistry

variable (platform : Platform) (code : CodeView)

/-- `_validateConfigShape`. -/
def validateConfigShape (r : Registries) (configId : Bytes32) (config : QuoteAssetConfig) :
    Except Revert Unit := do
  revertIf (configId = 0 ∨ config.tickerGardenBaselineId = 0 ∨ config.status ≠ configStatusActive ∨
      config.quoteDecimals < 6 ∨ config.quoteDecimals > 18 ∨ config.phantomQuote = 0 ∨
      config.graduationThreshold = 0 ∨ config.phantomQuote > maxInt128 ∨
      config.graduationThreshold > maxInt128 ∨
      config.phantomQuote > maxUint256 - config.graduationThreshold)
    (.quoteRegistry (.invalidQuoteConfig configId))
  revertIf ((r.quoteConfig configId).status ≠ 0)
    (.quoteRegistry (.quoteConfigAlreadyExists configId))

/-- `_observeQuoteAsset`: the native currency has 18 decimals, a token has code and
reports its decimals. -/
def observeQuoteAsset (quoteAsset : Address) (quoteDecimals : ℕ) : Except Revert Unit :=
  let invalid := Revert.quoteRegistry (.invalidQuoteAsset quoteAsset quoteDecimals)
  if quoteAsset = 0 then revertIf (quoteDecimals ≠ 18) invalid
  else do
    revertIf (¬ code.hasCode quoteAsset) invalid
    revertIf (code.decimals quoteAsset ≠ some quoteDecimals) invalid
    revertIf (code.codeHash quoteAsset = 0) invalid

/-- `_storeQuoteConfig`. -/
def storeQuoteConfig (r : Registries) (configId : Bytes32) (config : QuoteAssetConfig) :
    Registries :=
  { r with quoteConfig := update r.quoteConfig configId config }

/-- `addQuoteConfig`: append a configuration under the hash of its economics. -/
def addQuoteConfig (r : Registries) (configId : Bytes32) (config : QuoteAssetConfig) :
    Except Revert Registries := do
  validateConfigShape r configId config
  observeQuoteAsset code config.quoteAsset config.quoteDecimals
  let expectedHash := platform.keccak256 (.quoteEconomics "TICKERGARDEN_V1_QUOTE_ECONOMICS" 1
    platform.chainId config.tickerGardenBaselineId config.quoteAsset config.quoteDecimals
    config.phantomQuote config.graduationThreshold)
  revertIf (configId ≠ expectedHash ∨ config.economicsHash ≠ expectedHash)
    (.quoteRegistry (.invalidEconomicsHash configId config.economicsHash expectedHash))
  return storeQuoteConfig r configId config

/-- `_stockQuoteFingerprintHash`. -/
def stockQuoteFingerprintHash (assetUid : Bytes32) (asset : AssetView)
    (fingerprint : StockTokenFingerprint) : Bytes32 :=
  platform.keccak256 (.stockQuoteFingerprint "TICKERGARDEN_V1_STOCK_QUOTE_FINGERPRINT" 1
    platform.chainId assetUid asset.stockToken asset.tokenDecimals fingerprint)

/-- `_stockQuoteEconomicsHash`. -/
def stockQuoteEconomicsHash (config : QuoteAssetConfig) (binding : StockQuoteBinding) : Bytes32 :=
  platform.keccak256 (.stockQuoteEconomics "TICKERGARDEN_V1_STOCK_QUOTE_ECONOMICS" 1
    platform.chainId config.tickerGardenBaselineId config.quoteAsset config.quoteDecimals
    config.phantomQuote config.graduationThreshold binding)

/-- `addStockQuoteConfig`: append a configuration whose quote asset is an active stock
token behind an immutable beacon. -/
def addStockQuoteConfig (fingerprint : StockTokenFingerprint) (r : Registries)
    (configId : Bytes32) (config : QuoteAssetConfig) (binding : StockQuoteBinding) :
    Except Revert Registries := do
  validateConfigShape r configId config
  revertIf (binding.assetUid = 0 ∨ binding.stockTokenFingerprintHash = 0 ∨
      binding.referenceEvidenceHash = 0 ∨ binding.generatorPolicyId = 0 ∨ config.quoteAsset = 0)
    (.quoteRegistry (.invalidStockQuoteBinding configId binding.assetUid))
  let asset := r.asset binding.assetUid
  revertIf (asset.status ≠ configStatusActive)
    (.quoteRegistry (.stockQuoteAssetNotActive binding.assetUid asset.status))
  revertIf (asset.stockToken ≠ config.quoteAsset ∨ asset.tokenDecimals ≠ config.quoteDecimals)
    (.quoteRegistry (.stockQuoteAssetMismatch binding.assetUid asset.stockToken config.quoteAsset
      asset.tokenDecimals config.quoteDecimals))
  revertIf (¬ r.assetIdentityCurrent binding.assetUid)
    (.quoteRegistry (.stockQuoteAssetIdentityDrift binding.assetUid))
  revertIf (fingerprint.beacon = 0)
    (.quoteRegistry (.stockQuoteRequiresImmutableBeacon binding.assetUid config.quoteAsset))
  let expectedFingerprintHash :=
    stockQuoteFingerprintHash platform binding.assetUid asset fingerprint
  revertIf (binding.stockTokenFingerprintHash ≠ expectedFingerprintHash)
    (.quoteRegistry (.invalidStockQuoteFingerprint binding.assetUid
      binding.stockTokenFingerprintHash expectedFingerprintHash))
  let expectedHash := stockQuoteEconomicsHash platform config binding
  revertIf (configId ≠ expectedHash ∨ config.economicsHash ≠ expectedHash)
    (.quoteRegistry (.invalidEconomicsHash configId config.economicsHash expectedHash))
  return storeQuoteConfig r configId config

/-- The lifecycle of a quote configuration. -/
def lifecycle (r : Registries) (configId : Bytes32) : Lifecycle :=
  ⟨(r.quoteConfig configId).status, r.quotePausedAt configId⟩

/-- The registries with the lifecycle of a quote configuration replaced. -/
def withLifecycle (r : Registries) (configId : Bytes32) (l : Lifecycle) : Registries :=
  { r with
    quoteConfig := update r.quoteConfig configId
      { r.quoteConfig configId with status := l.status }
    quotePausedAt := update r.quotePausedAt configId l.pausedAt }

/-- The error of a change of status that is not allowed. -/
def invalidTransition (currentState requestedState : ℕ) : Revert :=
  .quoteRegistry (.invalidStateTransition currentState requestedState)

/-- `pauseQuote`. -/
def pauseQuote (now : ℕ) (r : Registries) (configId : Bytes32) : Except Revert Registries := do
  let l ← (lifecycle r configId).pause invalidTransition now
  return withLifecycle r configId l

/-- `unpauseQuote`, which also asks for the identity of the asset. -/
def unpauseQuote (now : ℕ) (r : Registries) (configId : Bytes32) : Except Revert Registries := do
  let identity := revertIf (¬ r.quoteIdentityCurrent configId)
    (Revert.quoteRegistry (.quoteAssetIdentityDrift configId))
  let l ← (lifecycle r configId).unpause invalidTransition configId now identity
  return withLifecycle r configId l

/-- `retireQuote`. -/
def retireQuote (r : Registries) (configId : Bytes32) : Except Revert Registries := do
  let l ← (lifecycle r configId).retire invalidTransition
  return withLifecycle r configId l

end ApprovedQuoteRegistry

/-! ### The stock registry -/

namespace OfficialStockRegistry

/-- `MINIMUM_SAFE_ALLOCATION_RAW`. -/
def minimumSafeAllocationRaw : ℕ := 414

/-- `registerAsset`: append an asset under an identifier and a token that are both new.
The checks of the code of the token and of the vault are `identity`. -/
def registerAsset (code : CodeView) (identity : Except Revert Unit) (r : Registries)
    (assetUid : Bytes32) (stockToken : Address) (tokenDecimals : ℕ) (userStockVault : Address)
    (minimumAllocation : ℕ) : Except Revert Registries := do
  revertIf (assetUid = 0 ∨ stockToken = 0 ∨ userStockVault = 0 ∨ stockToken = userStockVault ∨
      ¬ code.hasCode stockToken ∨ ¬ code.hasCode userStockVault ∨ tokenDecimals < 6 ∨
      tokenDecimals > 18)
    (.stockRegistry (.invalidAssetIdentity assetUid stockToken tokenDecimals userStockVault))
  revertIf (minimumAllocation < minimumSafeAllocationRaw)
    (.stockRegistry (.invalidMinimumAllocation assetUid minimumAllocation))
  revertIf ((r.asset assetUid).status ≠ 0) (.stockRegistry (.assetAlreadyRegistered assetUid))
  let tokenAssetUid := r.assetUidByStockToken stockToken
  revertIf (tokenAssetUid ≠ 0)
    (.stockRegistry (.stockTokenAlreadyRegistered stockToken tokenAssetUid))
  identity
  return { r with
    asset := update r.asset assetUid
      { stockToken, userStockVault, tokenDecimals, status := configStatusActive }
    minimumAllocation := update r.minimumAllocation assetUid minimumAllocation
    assetUidByStockToken := update r.assetUidByStockToken stockToken assetUid }

/-- `setMinimumAllocation`. -/
def setMinimumAllocation (r : Registries) (assetUid : Bytes32) (newMinimum : ℕ) :
    Except Revert Registries := do
  revertIf ((r.asset assetUid).status = 0) (.stockRegistry (.assetNotRegistered assetUid))
  revertIf (newMinimum < minimumSafeAllocationRaw)
    (.stockRegistry (.invalidMinimumAllocation assetUid newMinimum))
  return { r with
    minimumAllocation := update r.minimumAllocation assetUid newMinimum }

/-- The lifecycle of an asset. -/
def lifecycle (r : Registries) (assetUid : Bytes32) : Lifecycle :=
  ⟨(r.asset assetUid).status, r.assetPausedAt assetUid⟩

/-- The registries with the lifecycle of an asset replaced. -/
def withLifecycle (r : Registries) (assetUid : Bytes32) (l : Lifecycle) : Registries :=
  { r with
    asset := update r.asset assetUid { r.asset assetUid with status := l.status }
    assetPausedAt := update r.assetPausedAt assetUid l.pausedAt }

/-- The error of a change of status that is not allowed. -/
def invalidTransition (currentState requestedState : ℕ) : Revert :=
  .stockRegistry (.invalidStateTransition currentState requestedState)

/-- `pauseAsset`. -/
def pauseAsset (now : ℕ) (r : Registries) (assetUid : Bytes32) : Except Revert Registries := do
  let l ← (lifecycle r assetUid).pause invalidTransition now
  return withLifecycle r assetUid l

/-- `unpauseAsset`, which also asks for the identity of the asset. -/
def unpauseAsset (now : ℕ) (r : Registries) (assetUid : Bytes32) : Except Revert Registries := do
  let identity := revertIf (¬ r.assetIdentityCurrent assetUid)
    (Revert.stockRegistry (.assetIdentityDrift assetUid))
  let l ← (lifecycle r assetUid).unpause invalidTransition assetUid now identity
  return withLifecycle r assetUid l

/-- `retireAsset`. -/
def retireAsset (r : Registries) (assetUid : Bytes32) : Except Revert Registries := do
  let l ← (lifecycle r assetUid).retire invalidTransition
  return withLifecycle r assetUid l

end OfficialStockRegistry

end TickerGarden
