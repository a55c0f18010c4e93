import TickerGarden.Fees.Partition
import TickerGarden.Registry.RuntimeScan

/-!
# What the registries remember of code

Beside its entries each registry keeps what it has seen of the code behind them, to compare it
with what is there later: the stock registry a fingerprint of the token, and of the beacon and
the implementation it runs, and the identity of the vault; the quote registry the hash of the
code of the quote asset, and what a quote asset that is a stock token is bound to; the template
registry the hash of the template.

The storage here is the one of `TickerGarden.Registries` with these added, and each function is
the one there, with what it does to them.

| function                     | writes, beside the entry                            |
|------------------------------|-----------------------------------------------------|
| `registerAsset`              | the fingerprint, and the vault if it is new          |
| `acceptAssetImplementation`  | the implementation in the fingerprint                |
| `addQuoteConfig`             | the hash of the code of the quote asset              |
| `addStockQuoteConfig`        | the same, and the binding                            |

What calls of other contracts answer is `TickerGarden.StockViews`.
-/

namespace TickerGarden

open Checked Function

/-- What the stock registry knows of the vaults. -/
structure VaultIdentities where
  vaultSchemaIds : Address → Bytes32
  vaultBySchemaIds : Bytes32 → Address
  vaultRuntimeCodeHashes : Address → Bytes32
  vaultMarketRegistries : Address → Address
  vaultAllocationManagers : Address → Address

/-- The answer of `vaultIdentity`. -/
structure VaultIdentity where
  officialStockRegistry : Address
  marketRegistry : Address
  allocationManager : Address
  schemaId : Bytes32

/-- What the code of other contracts looks like, and what it answers: `none` is a call that
fails or answers with something else than the word that is asked for. -/
structure StockViews extends CodeView where
  runtime : Address → List Bytecode.Byte
  /-- `ImmutableBeaconProxyRuntime.beacon`. -/
  embeddedBeacon : Address → Address
  uid : Address → Option Bytes32
  /-- An account other than zero. -/
  implementation : Address → Option Address
  vaultIdentity : Address → Option VaultIdentity

/-- **The storage of the registries**, with what they remember of code. -/
structure RegistryStorage extends Registries where
  assetFingerprints : Bytes32 → StockTokenFingerprint
  nonDelegatingRuntimeHashes : Bytes32 → Bool
  vaults : VaultIdentities
  stockQuoteBindings : Bytes32 → StockQuoteBinding
  quoteRuntimeCodeHashes : Bytes32 → Bytes32
  templates : LaunchTemplateRegistry.State

namespace OfficialStockRegistry

variable (self : Address) (views : StockViews)

/-- `UID_SELECTOR`. -/
def uidSelector : BitVec 32 := 0xf514ce36

/-- `DECIMALS_SELECTOR`. -/
def decimalsSelector : BitVec 32 := 0x313ce567

/-- An answer that has to be there, and to be the expected one. -/
def expectAnswer {α : Type} [DecidableEq α] (answer : Option α) (expected : α) (failed : Revert)
    (mismatch : α → Revert) : Except Revert Unit := do
  let reported ← orRevert answer failed
  revertIf (reported ≠ expected) (mismatch reported)

/-- `_validateReportedIdentity`. -/
def validateReportedIdentity (assetUid : Bytes32) (stockToken : Address) (tokenDecimals : ℕ) :
    Except Revert Unit := do
  expectAnswer (views.uid stockToken) assetUid
    (.stockRegistry (.stockTokenIdentityCallFailed stockToken uidSelector))
    fun reported => .stockRegistry (.stockTokenUidMismatch stockToken assetUid reported)
  expectAnswer (views.decimals stockToken) tokenDecimals
    (.stockRegistry (.stockTokenIdentityCallFailed stockToken decimalsSelector))
    fun reported =>
      .stockRegistry (.stockTokenDecimalsMismatch stockToken tokenDecimals reported)

/-- `_requireNonDelegatingRuntime`: a code that has been scanned is not scanned again. -/
def requireNonDelegatingRuntime (hashes : Bytes32 → Bool) (component : Address) :
    Except Revert (Bytes32 → Bool) :=
  let runtimeCodeHash := views.codeHash component
  if hashes runtimeCodeHash then .ok hashes
  else do
    revertIf (containsDelegateExecution (views.runtime component))
      (.stockRegistry (.unmonitoredDelegateProxy component))
    return update hashes runtimeCodeHash true

/-- The fingerprint of a token that is no proxy: it is its own implementation. -/
def observeDirect (hashes : Bytes32 → Bool) (stockToken : Address) :
    Except Revert (StockTokenFingerprint × (Bytes32 → Bool)) := do
  let hashes ← requireNonDelegatingRuntime views hashes stockToken
  let codeHash := views.codeHash stockToken
  return (⟨codeHash, 0, 0, stockToken, codeHash⟩, hashes)

/-- The fingerprint of a token behind a beacon. -/
def observeBeacon (hashes : Bytes32 → Bool) (assetUid : Bytes32)
    (stockToken expectedBeacon : Address) :
    Except Revert (StockTokenFingerprint × (Bytes32 → Bool)) := do
  revertIf (¬ views.hasCode expectedBeacon)
    (.stockRegistry (.unsupportedStockTokenProxy stockToken expectedBeacon
      (views.embeddedBeacon stockToken)))
  let hashes ← requireNonDelegatingRuntime views hashes expectedBeacon
  let implementation := (views.implementation expectedBeacon).getD 0
  revertIf (views.implementation expectedBeacon = none ∨ ¬ views.hasCode implementation)
    (.stockRegistry (.invalidAssetImplementation assetUid 0 0 implementation
      (views.codeHash implementation)))
  let hashes ← requireNonDelegatingRuntime views hashes implementation
  return (⟨views.codeHash stockToken, expectedBeacon, views.codeHash expectedBeacon,
    implementation, views.codeHash implementation⟩, hashes)

/-- `_observeFingerprint`, with the codes that have been scanned. -/
def observeFingerprint (hashes : Bytes32 → Bool) (assetUid : Bytes32)
    (stockToken expectedBeacon : Address) :
    Except Revert (StockTokenFingerprint × (Bytes32 → Bool)) := do
  revertIf (views.embeddedBeacon stockToken ≠ expectedBeacon)
    (.stockRegistry (.unsupportedStockTokenProxy stockToken expectedBeacon
      (views.embeddedBeacon stockToken)))
  if expectedBeacon = 0 then observeDirect views hashes stockToken
  else observeBeacon views hashes assetUid stockToken expectedBeacon

/-- `_vaultIdentityCurrent`. -/
def vaultIdentityCurrent (vaults : VaultIdentities) (userStockVault : Address) : Bool :=
  let schemaId := vaults.vaultSchemaIds userStockVault
  let runtimeCodeHash := vaults.vaultRuntimeCodeHashes userStockVault
  if schemaId = 0 ∨ runtimeCodeHash = 0 ∨ ¬ views.hasCode userStockVault ∨
      views.codeHash userStockVault ≠ runtimeCodeHash ∨
      vaults.vaultBySchemaIds schemaId ≠ userStockVault then false
  else match views.vaultIdentity userStockVault with
    | none => false
    | some reported =>
      reported.officialStockRegistry = self ∧ reported.schemaId = schemaId ∧
        reported.marketRegistry = vaults.vaultMarketRegistries userStockVault ∧
        reported.allocationManager = vaults.vaultAllocationManagers userStockVault ∧
        views.hasCode reported.marketRegistry ∧ views.hasCode reported.allocationManager ∧
        reported.marketRegistry ≠ reported.allocationManager ∧
        reported.marketRegistry ≠ userStockVault ∧ reported.allocationManager ≠ userStockVault

/-- `_validateAndRecordVaultIdentity`. -/
def validateAndRecordVaultIdentity (vaults : VaultIdentities) (userStockVault : Address)
    (reported : VaultIdentity) : Except Revert VaultIdentities := do
  revertIf (reported.officialStockRegistry ≠ self ∨ ¬ views.hasCode reported.marketRegistry ∨
      ¬ views.hasCode reported.allocationManager ∨ reported.schemaId = 0 ∨
      reported.marketRegistry = reported.allocationManager ∨
      reported.marketRegistry = userStockVault ∨ reported.allocationManager = userStockVault)
    (.stockRegistry (.invalidUserStockVaultIdentity userStockVault reported.officialStockRegistry
      reported.marketRegistry reported.allocationManager reported.schemaId))
  let registeredVault := vaults.vaultBySchemaIds reported.schemaId
  revertIf (registeredVault ≠ 0 ∧ registeredVault ≠ userStockVault)
    (.stockRegistry (.vaultSchemaAlreadyRegistered reported.schemaId registeredVault
      userStockVault))
  return {
    vaultSchemaIds := update vaults.vaultSchemaIds userStockVault reported.schemaId
    vaultBySchemaIds := update vaults.vaultBySchemaIds reported.schemaId userStockVault
    vaultRuntimeCodeHashes := update vaults.vaultRuntimeCodeHashes userStockVault
      (views.codeHash userStockVault)
    vaultMarketRegistries := update vaults.vaultMarketRegistries userStockVault
      reported.marketRegistry
    vaultAllocationManagers := update vaults.vaultAllocationManagers userStockVault
      reported.allocationManager }

/-- `_registerVaultIdentityIfNeeded`. -/
def registerVaultIdentityIfNeeded (vaults : VaultIdentities) (userStockVault : Address) :
    Except Revert VaultIdentities :=
  if vaults.vaultSchemaIds userStockVault ≠ 0 then do
    revertIf (¬ vaultIdentityCurrent self views vaults userStockVault)
      (.stockRegistry (.userStockVaultIdentityDrift userStockVault))
    return vaults
  else do
    let observedCodeHash := views.codeHash userStockVault
    revertIf (¬ views.hasCode userStockVault ∨ observedCodeHash = 0 ∨
        containsForbiddenVaultOpcode (views.runtime userStockVault))
      (.stockRegistry (.invalidUserStockVaultCodeIdentity userStockVault 0 observedCodeHash))
    let reported ← orRevert (views.vaultIdentity userStockVault)
      (.stockRegistry (.invalidUserStockVaultIdentity userStockVault 0 0 0 0))
    validateAndRecordVaultIdentity self views vaults userStockVault reported

/-- What the checks of code in `registerAsset` have found. -/
structure Admission where
  fingerprint : StockTokenFingerprint
  nonDelegatingRuntimeHashes : Bytes32 → Bool
  vaults : VaultIdentities

/-- The checks of code in `registerAsset`. -/
def admitAsset (platform : Platform) (s : RegistryStorage) (assetUid : Bytes32) (stockToken : Address)
    (tokenDecimals : ℕ) (userStockVault : Address) (expectedFingerprint : StockTokenFingerprint) :
    Except Revert Admission := do
  validateReportedIdentity views assetUid stockToken tokenDecimals
  let (fingerprint, nonDelegatingRuntimeHashes) ← observeFingerprint views
    s.nonDelegatingRuntimeHashes assetUid stockToken expectedFingerprint.beacon
  let expectedFingerprintHash := platform.keccak256 (.fingerprint expectedFingerprint)
  let observedFingerprintHash := platform.keccak256 (.fingerprint fingerprint)
  revertIf (expectedFingerprintHash ≠ observedFingerprintHash)
    (.stockRegistry (.stockTokenFingerprintMismatch assetUid expectedFingerprintHash
      observedFingerprintHash))
  let vaults ← registerVaultIdentityIfNeeded self views s.vaults userStockVault
  return { fingerprint, nonDelegatingRuntimeHashes, vaults }

/-- `_baseIdentityCurrent`. -/
def baseIdentityCurrent (assetUid : Bytes32) (value : AssetView)
    (fingerprint : StockTokenFingerprint) : Bool :=
  if ¬ views.hasCode value.stockToken ∨
      views.codeHash value.stockToken ≠ fingerprint.tokenRuntimeCodeHash ∨
      (fingerprint.beacon ≠ 0 ∧ (¬ views.hasCode fingerprint.beacon ∨
        views.codeHash fingerprint.beacon ≠ fingerprint.beaconRuntimeCodeHash)) then false
  else views.uid value.stockToken = some assetUid ∧
    views.decimals value.stockToken = some value.tokenDecimals

/-- `_assetIdentityCurrent`. -/
def assetIdentityCurrent (s : RegistryStorage) (assetUid : Bytes32) : Bool :=
  let value := s.asset assetUid
  let fingerprint := s.assetFingerprints assetUid
  if value.status = 0 then false
  else if ¬ vaultIdentityCurrent self views s.vaults value.userStockVault then false
  else if ¬ baseIdentityCurrent views assetUid value fingerprint then false
  else if fingerprint.beacon = 0 then
    fingerprint.implementation = value.stockToken ∧
      fingerprint.implementationRuntimeCodeHash = fingerprint.tokenRuntimeCodeHash
  else match views.implementation fingerprint.beacon with
    | none => false
    | some current => current = fingerprint.implementation ∧
        views.codeHash current = fingerprint.implementationRuntimeCodeHash

end OfficialStockRegistry

namespace ApprovedQuoteRegistry

variable (platform : Platform) (self : Address) (views : StockViews) (s : RegistryStorage)

/-- `_stockQuoteIdentityCurrent`. -/
def stockQuoteIdentityCurrent (configId : Bytes32) (config : QuoteAssetConfig)
    (binding : StockQuoteBinding) : Bool :=
  let expectedRuntimeCodeHash := s.quoteRuntimeCodeHashes configId
  let asset := s.asset binding.assetUid
  let fingerprint := s.assetFingerprints binding.assetUid
  if expectedRuntimeCodeHash = 0 ∨ views.codeHash config.quoteAsset ≠ expectedRuntimeCodeHash ∨
      views.decimals config.quoteAsset ≠ some config.quoteDecimals then false
  else if asset.status ≠ configStatusActive ∨ asset.stockToken ≠ config.quoteAsset ∨
      asset.tokenDecimals ≠ config.quoteDecimals then false
  else if ¬ OfficialStockRegistry.assetIdentityCurrent self views s binding.assetUid then false
  else fingerprint.beacon ≠ 0 ∧ stockQuoteFingerprintHash platform
    binding.assetUid asset fingerprint = binding.stockTokenFingerprintHash

/-- `_quoteIdentityCurrent`. -/
def quoteIdentityCurrent (configId : Bytes32) : Bool :=
  let config := s.quoteConfig configId
  let binding := s.stockQuoteBindings configId
  let expectedCodeHash := s.quoteRuntimeCodeHashes configId
  if config.status = 0 then false
  else if binding.assetUid ≠ 0 then
    stockQuoteIdentityCurrent platform self views s configId config binding
  else if config.quoteAsset = 0 then config.quoteDecimals = 18 ∧ expectedCodeHash = 0
  else if expectedCodeHash = 0 ∨ views.codeHash config.quoteAsset ≠ expectedCodeHash then false
  else views.decimals config.quoteAsset = some config.quoteDecimals

end ApprovedQuoteRegistry

/-! ### The functions of the three registries -/

namespace RegistryStorage

open OfficialStockRegistry (Admission admitAsset baseIdentityCurrent requireNonDelegatingRuntime)

variable (platform : Platform) (self : Address) (views : StockViews) (s : RegistryStorage)

/-- A function that only changes the entries. -/
def lift (f : Registries → Except Revert Registries) : Except Revert RegistryStorage := do
  let r ← f s.toRegistries
  return { s with toRegistries := r }

/-- The registries, with what the stock registry answers about the identity of its assets. -/
def withIdentities : Registries :=
  { s.toRegistries with
    assetIdentityCurrent := OfficialStockRegistry.assetIdentityCurrent self views s }

/-- An asset is registered: it passes the admission of its token, its beacon and its implementation
are those that are expected, and its identity is recorded with it. -/
def registerAsset (assetUid : Bytes32) (stockToken : Address) (tokenDecimals : ℕ)
    (userStockVault : Address) (minimumAllocation : ℕ)
    (expectedFingerprint : StockTokenFingerprint) : Except Revert RegistryStorage := do
  let admission := admitAsset self views platform s assetUid stockToken tokenDecimals userStockVault
    expectedFingerprint
  let r ← OfficialStockRegistry.registerAsset views.toCodeView (admission.map fun _ => ())
    s.toRegistries assetUid stockToken tokenDecimals userStockVault minimumAllocation
  let admitted ← admission
  return { s with
    toRegistries := r
    assetFingerprints := update s.assetFingerprints assetUid admitted.fingerprint
    nonDelegatingRuntimeHashes := admitted.nonDelegatingRuntimeHashes
    vaults := admitted.vaults }

/-- A paused asset whose beacon points to a new implementation takes it over into its identity, if
it is the one that is expected. -/
def acceptAssetImplementation (assetUid : Bytes32) (expectedImplementation : Address)
    (expectedImplementationRuntimeCodeHash : Bytes32) : Except Revert RegistryStorage := do
  let value := s.asset assetUid
  revertIf (value.status ≠ configStatusPaused)
    (.stockRegistry (.invalidStateTransition value.status configStatusPaused))
  let fingerprint := s.assetFingerprints assetUid
  revertIf (fingerprint.beacon = 0)
    (.stockRegistry (.directAssetImplementationImmutable assetUid))
  revertIf (¬ baseIdentityCurrent views assetUid value fingerprint)
    (.stockRegistry (.assetIdentityDrift assetUid))
  let observedImplementation := (views.implementation fingerprint.beacon).getD 0
  let observedCodeHash := views.codeHash observedImplementation
  revertIf (views.implementation fingerprint.beacon = none ∨ expectedImplementation = 0 ∨
      ¬ views.hasCode expectedImplementation ∨ observedImplementation ≠ expectedImplementation ∨
      observedCodeHash ≠ expectedImplementationRuntimeCodeHash ∨
      expectedImplementation = fingerprint.implementation)
    (.stockRegistry (.invalidAssetImplementation assetUid expectedImplementation
      expectedImplementationRuntimeCodeHash observedImplementation observedCodeHash))
  let nonDelegatingRuntimeHashes ←
    requireNonDelegatingRuntime views s.nonDelegatingRuntimeHashes expectedImplementation
  return { s with
    nonDelegatingRuntimeHashes
    assetFingerprints := update s.assetFingerprints assetUid
      { fingerprint with
        implementation := expectedImplementation
        implementationRuntimeCodeHash := expectedImplementationRuntimeCodeHash } }

/-- The least allocation of an asset is set; its identity is not touched. -/
def setMinimumAllocation (assetUid : Bytes32) (newMinimum : ℕ) : Except Revert RegistryStorage :=
  lift s fun r => OfficialStockRegistry.setMinimumAllocation r assetUid newMinimum

/-- An asset is paused; its identity is not touched. -/
def pauseAsset (now : ℕ) (assetUid : Bytes32) : Except Revert RegistryStorage :=
  lift s fun r => OfficialStockRegistry.pauseAsset now r assetUid

/-- An asset is active again, if its identity is the one that is recorded. -/
def unpauseAsset (now : ℕ) (assetUid : Bytes32) : Except Revert RegistryStorage :=
  lift s fun _ => OfficialStockRegistry.unpauseAsset now (withIdentities self views s) assetUid

/-- An asset is retired, for good. -/
def retireAsset (assetUid : Bytes32) : Except Revert RegistryStorage :=
  lift s fun r => OfficialStockRegistry.retireAsset r assetUid

/-- A quote is configured, and the hash of the code of its token is recorded with it. The native
currency has no code. -/
def addQuoteConfig (configId : Bytes32) (config : QuoteAssetConfig) :
    Except Revert RegistryStorage := do
  let r ← ApprovedQuoteRegistry.addQuoteConfig platform views.toCodeView s.toRegistries configId
    config
  let runtimeCodeHash := if config.quoteAsset = 0 then 0 else views.codeHash config.quoteAsset
  return { s with
    toRegistries := r
    quoteRuntimeCodeHashes := update s.quoteRuntimeCodeHashes configId runtimeCodeHash }

/-- A quote is configured whose token is a registered asset: the identity of the asset is recorded
with it, by the binding to the asset. -/
def addStockQuoteConfig (configId : Bytes32) (config : QuoteAssetConfig)
    (binding : StockQuoteBinding) : Except Revert RegistryStorage := do
  let fingerprint := s.assetFingerprints binding.assetUid
  let r ← ApprovedQuoteRegistry.addStockQuoteConfig platform fingerprint
    (withIdentities self views s) configId config binding
  return { s with
    toRegistries := r
    stockQuoteBindings := update s.stockQuoteBindings configId binding
    quoteRuntimeCodeHashes :=
      update s.quoteRuntimeCodeHashes configId fingerprint.tokenRuntimeCodeHash }

/-- A quote is paused; its identity is not touched. -/
def pauseQuote (now : ℕ) (configId : Bytes32) : Except Revert RegistryStorage :=
  lift s fun r => ApprovedQuoteRegistry.pauseQuote now r configId

/-- A quote is active again, if its identity is the one that is recorded. -/
def unpauseQuote (now : ℕ) (configId : Bytes32) : Except Revert RegistryStorage :=
  lift s fun r => ApprovedQuoteRegistry.unpauseQuote now
    { r with quoteIdentityCurrent := ApprovedQuoteRegistry.quoteIdentityCurrent platform self views s } configId

/-- A quote is retired, for good. -/
def retireQuote (configId : Bytes32) : Except Revert RegistryStorage :=
  lift s fun r => ApprovedQuoteRegistry.retireQuote r configId

/-- A function that only changes the templates. -/
def liftTemplates (f : LaunchTemplateRegistry.State → Except Revert LaunchTemplateRegistry.State) :
    Except Revert RegistryStorage := do
  let templates ← f s.templates
  return { s with templates }

/-- A template is added: the code of each of its components is the one it names. -/
def addLaunchTemplate (components : LaunchTemplateRegistry.ComponentViews)
    (launchTemplateId : Bytes32) (value : ComponentTemplate) : Except Revert RegistryStorage :=
  liftTemplates s fun t => LaunchTemplateRegistry.addLaunchTemplate platform
    (executionSpecId platform) views.toCodeView views.runtime components t
    launchTemplateId value

/-- A template is paused. -/
def pauseLaunchTemplate (now : ℕ) (launchTemplateId : Bytes32) : Except Revert RegistryStorage :=
  liftTemplates s fun t => LaunchTemplateRegistry.pauseLaunchTemplate now t launchTemplateId

/-- A template is active again. -/
def unpauseLaunchTemplate (now : ℕ) (launchTemplateId : Bytes32) : Except Revert RegistryStorage :=
  liftTemplates s fun t => LaunchTemplateRegistry.unpauseLaunchTemplate now t launchTemplateId

/-- A template is retired, for good. -/
def retireLaunchTemplate (launchTemplateId : Bytes32) : Except Revert RegistryStorage :=
  liftTemplates s fun t => LaunchTemplateRegistry.retireLaunchTemplate t launchTemplateId

end RegistryStorage

end TickerGarden
