import TickerGarden.Registry.LaunchConfigs

/-!
# Launch templates

The fourth registry a market is created from. A template names the contracts a market is put
together from, each with the hash of its code. It is added once, under an identifier of the
administrator's choice, and from then on only its status moves.

Beside the template the registry keeps its hash. Since a template never changes, the hash
that was taken when it was added is the hash of what is there, whatever its status.
-/

namespace TickerGarden

open Checked

/-- `LaunchTemplate`: what the market registry compares, and the other components. -/
structure ComponentTemplate extends LaunchTemplate where
  memeTokenImplementation : Address
  memeTokenCodeHash : Bytes32
  curveImplementation : Address
  curveCodeHash : Bytes32
  gaugeImplementation : Address
  gaugeCodeHash : Bytes32
  hookCodeHash : Bytes32
  graduationExecutorCodeHash : Bytes32

namespace LaunchTemplateRegistry

/-- What the components of a template answer about each other. -/
structure ComponentViews where
  hookMarketRegistry : Address → Address
  hookPoolManager : Address → Address
  hookProtocolFeeVault : Address → Address
  hookGraduationExecutor : Address → Address
  executorHook : Address → Address
  executorMarketRegistry : Address → Address
  executorPoolManager : Address → Address
  executorApprovedQuoteRegistry : Address → Address
  executorFactory : Address → Address
  executorLaunchLockerCreationCodeHash : Address → Bytes32
  registryApprovedQuoteRegistry : Address → Address
  registryFactory : Address → Address
  registryGraduationExecutor : Address → Address
  feeVaultMarketRegistry : Address → Address
  feeVaultPoolManager : Address → Address
  feeVaultFeePolicyId : Address → Bytes32

/-- The registry: the templates, their hashes, and when they were paused. -/
structure State where
  launchTemplates : Bytes32 → ComponentTemplate
  launchTemplateHashes : Bytes32 → Bytes32
  pausedAt : Bytes32 → ℕ

/-- `_computeTemplateHash`: what the hash is taken of. The status is not part of it. -/
def templateEncoding (value : ComponentTemplate) : Preimage :=
  .launchTemplate "TICKERGARDEN_V1_LAUNCH_TEMPLATE" 2 value.memeTokenImplementation
    value.memeTokenCodeHash value.curveImplementation value.curveCodeHash
    value.gaugeImplementation value.gaugeCodeHash value.graduatedHook value.hookCodeHash
    value.graduationExecutor value.graduationExecutorCodeHash value.feePolicyId
    value.executionSpecId

/-- `_validateCodeIdentity`. -/
def validateCodeIdentity (code : CodeView) (component : Address) (suppliedHash : Bytes32) :
    Except Revert Unit :=
  let observedHash := code.codeHash component
  revertIf (¬ code.hasCode component ∨ observedHash ≠ suppliedHash)
    (.templateRegistry (.codeIdentityMismatch component suppliedHash observedHash))

/-- The first instruction of a code that gives control away, with the bytes a push skips. -/
def unsafeOpcode : List (BitVec 8) → ℕ → Option (BitVec 8)
  | [], _ => none
  | _ :: runtime, skipped + 1 => unsafeOpcode runtime skipped
  | opcode :: runtime, 0 =>
    if opcode = 0xf2 ∨ opcode = 0xf4 ∨ opcode = 0xff then some opcode
    else unsafeOpcode runtime
      (if 0x60 ≤ opcode ∧ opcode ≤ 0x7f then opcode.toNat - 0x5f else 0)

/-- `_validateDirectRuntime`. -/
def validateDirectRuntime (runtime : Address → List (BitVec 8)) (component : Address) :
    Except Revert Unit :=
  match unsafeOpcode (runtime component) 0 with
  | some opcode => .error (.templateRegistry (.unsafeTemplateRuntime component opcode))
  | none => .ok ()

/-- `_validateBindingGraph`. -/
def validateBindingGraph (code : CodeView) (views : ComponentViews) (value : ComponentTemplate) :
    Except Revert Unit :=
  let hook := value.graduatedHook
  let executor := value.graduationExecutor
  let marketRegistry := views.hookMarketRegistry hook
  let poolManager := views.hookPoolManager hook
  let feeVault := views.hookProtocolFeeVault hook
  revertIf (¬ code.hasCode marketRegistry ∨ ¬ code.hasCode poolManager ∨ ¬ code.hasCode feeVault ∨
      views.hookGraduationExecutor hook ≠ executor ∨ views.executorHook executor ≠ hook ∨
      views.executorMarketRegistry executor ≠ marketRegistry ∨
      views.executorPoolManager executor ≠ poolManager ∨
      views.executorApprovedQuoteRegistry executor
        ≠ views.registryApprovedQuoteRegistry marketRegistry ∨
      views.executorFactory executor ≠ views.registryFactory marketRegistry ∨
      views.registryGraduationExecutor marketRegistry ≠ executor ∨
      views.feeVaultMarketRegistry feeVault ≠ marketRegistry ∨
      views.feeVaultPoolManager feeVault ≠ poolManager ∨
      views.feeVaultFeePolicyId feeVault ≠ value.feePolicyId ∨
      views.executorLaunchLockerCreationCodeHash executor = 0)
    (.templateRegistry (.invalidLaunchTemplateBindings hook executor))

/-- `addLaunchTemplate`: append a template, and its hash. -/
def addLaunchTemplate (platform : Platform) (executionSpecId : Bytes32) (code : CodeView)
    (runtime : Address → List (BitVec 8)) (views : ComponentViews) (t : State)
    (launchTemplateId : Bytes32) (value : ComponentTemplate) : Except Revert State := do
  revertIf (launchTemplateId = 0 ∨ value.memeTokenImplementation = 0 ∨
      value.memeTokenCodeHash = 0 ∨ value.curveImplementation = 0 ∨ value.curveCodeHash = 0 ∨
      value.gaugeImplementation = 0 ∨ value.gaugeCodeHash = 0 ∨ value.graduatedHook = 0 ∨
      value.hookCodeHash = 0 ∨ value.graduationExecutor = 0 ∨
      value.graduationExecutorCodeHash = 0 ∨ value.feePolicyId = 0 ∨
      value.executionSpecId ≠ executionSpecId ∨ value.status ≠ configStatusActive ∨
      value.graduatedHook &&& PoolMath.allHookPermissionBits ≠ PoolMath.hookPermissionMask)
    (.templateRegistry (.invalidLaunchTemplate launchTemplateId))
  revertIf ((t.launchTemplates launchTemplateId).status ≠ 0)
    (.templateRegistry (.launchTemplateAlreadyExists launchTemplateId))
  validateCodeIdentity code value.memeTokenImplementation value.memeTokenCodeHash
  validateCodeIdentity code value.curveImplementation value.curveCodeHash
  validateCodeIdentity code value.gaugeImplementation value.gaugeCodeHash
  validateCodeIdentity code value.graduatedHook value.hookCodeHash
  validateCodeIdentity code value.graduationExecutor value.graduationExecutorCodeHash
  validateDirectRuntime runtime value.graduatedHook
  validateDirectRuntime runtime value.graduationExecutor
  validateBindingGraph code views value
  return { t with
    launchTemplates := Function.update t.launchTemplates launchTemplateId value
    launchTemplateHashes := Function.update t.launchTemplateHashes launchTemplateId
      (platform.keccak256 (templateEncoding value)) }

/-- The lifecycle of a template. -/
def lifecycle (t : State) (launchTemplateId : Bytes32) : Lifecycle :=
  ⟨(t.launchTemplates launchTemplateId).status, t.pausedAt launchTemplateId⟩

/-- The registry with the lifecycle of a template replaced. -/
def withLifecycle (t : State) (launchTemplateId : Bytes32) (l : Lifecycle) : State :=
  { t with
    launchTemplates := Function.update t.launchTemplates launchTemplateId
      { t.launchTemplates launchTemplateId with status := l.status }
    pausedAt := Function.update t.pausedAt launchTemplateId l.pausedAt }

/-- The error of a change of status that is not allowed. -/
def invalidTransition (currentState requestedState : ℕ) : Revert :=
  .templateRegistry (.invalidStateTransition currentState requestedState)

/-- `pauseLaunchTemplate`. -/
def pauseLaunchTemplate (now : ℕ) (t : State) (launchTemplateId : Bytes32) :
    Except Revert State := do
  let l ← (lifecycle t launchTemplateId).pause invalidTransition now
  return withLifecycle t launchTemplateId l

/-- `unpauseLaunchTemplate`. -/
def unpauseLaunchTemplate (now : ℕ) (t : State) (launchTemplateId : Bytes32) :
    Except Revert State := do
  let l ← (lifecycle t launchTemplateId).unpause invalidTransition launchTemplateId now (.ok ())
  return withLifecycle t launchTemplateId l

/-- `retireLaunchTemplate`. -/
def retireLaunchTemplate (t : State) (launchTemplateId : Bytes32) : Except Revert State := do
  let l ← (lifecycle t launchTemplateId).retire invalidTransition
  return withLifecycle t launchTemplateId l

end LaunchTemplateRegistry

end TickerGarden
