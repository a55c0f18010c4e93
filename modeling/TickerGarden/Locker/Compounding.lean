import TickerGarden.Registry.MarketRegistry

/-!
# The launch locker

`LaunchLocker` owns the liquidity position of a graduated market for good. Anyone may
have it collect the position's fees, and a keeper may have it add collected fees to the
position. Whatever else it holds – tokens sent to it, the excess of the graduation – is
*isolated*: a floor per currency under which compounding does not reach.

What the locker calls is an interface, `TickerGarden.LaunchLocker.Externals`, over a
state `W` of everything outside it, balances included: the position manager, the
registry, the permit contract and the two tokens may do anything in a call but change
the locker's own storage, whose only writers are the two entry points, and these are
`nonReentrant`.

| source function            | here                                                        |
|----------------------------|-------------------------------------------------------------|
| `_observeCoverage`         | `TickerGarden.LaunchLocker.observeCoverage`                 |
| `_collect`                 | `TickerGarden.LaunchLocker.collect`                         |
| `_isolateManagerBalances`  | `TickerGarden.LaunchLocker.isolateManagerBalances`          |
| `collectLockedFees`        | `TickerGarden.LaunchLocker.collectLockedFees`               |
| `compoundLockedFees`       | `TickerGarden.LaunchLocker.compoundLockedFees`              |
-/

namespace TickerGarden

open Checked

namespace LaunchLocker

/-- The two currencies of the position. -/
inductive Side
  | zero
  | one
deriving DecidableEq

/-- A value for each currency. -/
structure Pair (α : Type) where
  zero : α
  one : α
deriving DecidableEq

/-- The value of a currency. -/
def Pair.get {α : Type} (p : Pair α) : Side → α
  | .zero => p.zero
  | .one => p.one

@[simp] theorem Pair.get_zero {α : Type} (p : Pair α) : p.get .zero = p.zero := rfl

@[simp] theorem Pair.get_one {α : Type} (p : Pair α) : p.get .one = p.one := rfl

/-- **What a currency is accounted as**: the fees that may be spent, and the floor that
may not. -/
structure Coverage where
  compoundFees : ℕ
  isolated : ℕ
deriving DecidableEq

/-- The immutable fields of a locker, with its own address. -/
structure Immutables where
  self : Address
  marketId : Bytes32
  tokenId : ℕ
  poolId : Bytes32
  currency : Pair Address
  positionManager : Address

/-- The actions of a position manager the locker asks for. -/
inductive Action
  | increaseLiquidity (tokenId liquidity amount0Max amount1Max : ℕ)
  | decreaseLiquidity (tokenId liquidity amount0Min amount1Min : ℕ)
  | settlePair (currency0 currency1 : Address)
  | takePair (currency0 currency1 recipient : Address)
  | sweep (currency recipient : Address)
deriving DecidableEq

/-- The events of the locker. -/
inductive Event
  | lockedFeesCollected (marketId : Bytes32) (tokenId : ℕ) (amount : Pair ℕ)
  | lockedFeesCompounded (marketId : Bytes32) (tokenId liquidity : ℕ) (amount remaining : Pair ℕ)
deriving DecidableEq

/-- **What a locker calls outside itself**, over a state `W` of everything else. -/
structure Externals (W : Type) where
  /-- The balance of an account, in a token or the native currency. -/
  balance : W → (asset holder : Address) → ℕ
  /-- `block.timestamp`. -/
  now : W → ℕ
  /-- `IMarketRegistryV1.market`. -/
  market : W → Bytes32 → Except Revert MarketView
  /-- `compoundKeeper` of the registry's graduation executor. -/
  compoundKeeper : W → Except Revert Address
  /-- `ownerOf` of the position manager; `none` if it reverts. -/
  ownerOf : W → (tokenId : ℕ) → Option Address
  /-- `getPoolAndPositionInfo` of the position manager. -/
  getPoolAndPositionInfo : W → (tokenId : ℕ) → Except Revert (PoolKey × Bytes32)
  /-- `getPositionLiquidity` of the position manager. -/
  getPositionLiquidity : W → (tokenId : ℕ) → Except Revert ℕ
  /-- `permit2` of the position manager. -/
  permit2 : W → Except Revert Address
  /-- `modifyLiquidities` of the position manager, called by the locker. -/
  modifyLiquidities : W → List Action → (value deadline : ℕ) → Except Revert W
  /-- `SafeERC20.forceApprove` of a token, by the locker. -/
  forceApprove : W → (asset spender : Address) → (amount : ℕ) → Except Revert W
  /-- `approve` of the permit contract, by the locker. -/
  permitApprove : W → (permit asset spender : Address) → (amount expiration : ℕ) → Except Revert W

/-- A locker in its surroundings. -/
structure State (W : Type) where
  outside : W
  ledger : Pair Coverage
  log : List Event

section Contract

variable {W : Type} (platform : Platform) (calls : Externals W) (imm : Immutables)

/-- `unpairedLockedBalance`, for one of the two currencies. -/
def unpairedLockedBalance (w : W) (currency : Address) : Except Revert ℕ := do
  revertIf (currency ≠ imm.currency.zero ∧ currency ≠ imm.currency.one)
    (.launchLocker (.unsupportedLaunchLockerCurrency currency))
  return calls.balance w currency imm.self

/-- The balances of both currencies. -/
def unpairedLockedBalances (w : W) : Except Revert (Pair ℕ) := do
  let balance0 ← unpairedLockedBalance calls imm w imm.currency.zero
  let balance1 ← unpairedLockedBalance calls imm w imm.currency.one
  return ⟨balance0, balance1⟩

/-- `_requireLockedPositionOwnership`. -/
def requireLockedPositionOwnership (w : W) : Except Revert Unit := do
  let actualOwner ← orRevert (calls.ownerOf w imm.tokenId)
    (.launchLocker (.lockedPositionNotOwned imm.tokenId 0))
  revertIf (actualOwner ≠ imm.self)
    (.launchLocker (.lockedPositionNotOwned imm.tokenId actualOwner))

/-- `_position`: the locker owns its position, in the pool its market was created with. -/
def position (w : W) : Except Revert (PoolKey × Bytes32) := do
  requireLockedPositionOwnership calls imm w
  let value ← calls.market w imm.marketId
  revertIf (value.runtime.launchPhase ≠ launchPhasePoolCreated ∨ value.runtime.poolId ≠ imm.poolId)
    (.launchLocker .invalidCompoundPosition)
  let (key, info) ← calls.getPoolAndPositionInfo w imm.tokenId
  revertIf (platform.keccak256 (.poolKey key) ≠ imm.poolId ∨ key.currency0 ≠ imm.currency.zero ∨
    key.currency1 ≠ imm.currency.one) (.launchLocker .invalidCompoundPosition)
  return (key, info)

/-- `_checkPositionUnchanged`. -/
def checkPositionUnchanged (w : W) (key : PoolKey) (info : Bytes32) : Except Revert Unit := do
  let (afterKey, afterInfo) ← position platform calls imm w
  revertIf (platform.keccak256 (.poolKey afterKey) ≠ platform.keccak256 (.poolKey key) ∨
    afterInfo ≠ info) (.launchLocker .invalidCompoundPosition)

/-- `_observeCoverage`: a balance beyond what is accounted raises the floor; one below it
leaves the floor and is reported as a deficit. -/
def observeCoverage (balance fees isolated : ℕ) : Except Revert (ℕ × ℕ) := do
  let required ← uadd fees isolated
  return if balance < required then (isolated, required - balance) else (balance - fees, 0)

/-- `_requireFeeCoverage`: both balances cover what is accounted. -/
def requireFeeCoverage (s : State W) : Except Revert Unit := do
  let balance ← unpairedLockedBalances calls imm s.outside
  let required0 ← uadd s.ledger.zero.compoundFees s.ledger.zero.isolated
  revertIf (balance.zero < required0) (.launchLocker .compoundBalanceMismatch)
  let required1 ← uadd s.ledger.one.compoundFees s.ledger.one.isolated
  revertIf (balance.one < required1) (.launchLocker .compoundBalanceMismatch)

/-- `_collect`: have the position pay its fees out, and account for what arrived. Fees
first make up for a deficit; only what is left of them may be spent. -/
def collect (s : State W) (key : PoolKey) (info : Bytes32) :
    Except Revert (State W × Pair ℕ) := do
  let before ← unpairedLockedBalances calls imm s.outside
  let (isolated0, deficit0) ←
    observeCoverage before.zero s.ledger.zero.compoundFees s.ledger.zero.isolated
  let (isolated1, deficit1) ←
    observeCoverage before.one s.ledger.one.compoundFees s.ledger.one.isolated
  let liquidity ← calls.getPositionLiquidity s.outside imm.tokenId
  let w ← calls.modifyLiquidities s.outside [.decreaseLiquidity imm.tokenId 0 0 0,
    .takePair key.currency0 key.currency1 imm.self] 0 (calls.now s.outside)
  let after ← unpairedLockedBalances calls imm w
  revertIf (after.zero < before.zero ∨ after.one < before.one)
    (.launchLocker .compoundBalanceMismatch)
  let liquidityAfter ← calls.getPositionLiquidity w imm.tokenId
  revertIf (liquidityAfter ≠ liquidity) (.launchLocker .compoundBalanceMismatch)
  let amount0 := after.zero - before.zero
  let amount1 := after.one - before.one
  let fees0 ← uadd s.ledger.zero.compoundFees (if amount0 > deficit0 then amount0 - deficit0 else 0)
  let fees1 ← uadd s.ledger.one.compoundFees (if amount1 > deficit1 then amount1 - deficit1 else 0)
  checkPositionUnchanged platform calls imm w key info
  return (⟨w, ⟨⟨fees0, isolated0⟩, ⟨fees1, isolated1⟩⟩,
    s.log ++ [.lockedFeesCollected imm.marketId imm.tokenId ⟨amount0, amount1⟩]⟩,
    ⟨amount0, amount1⟩)

/-- `_isolateManagerBalances`: a sweep of the position manager also returns balances that
were never the locker's. Take them before any spending, and isolate them. -/
def isolateManagerBalances (s : State W) (key : PoolKey) : Except Revert (State W) := do
  let before ← unpairedLockedBalances calls imm s.outside
  let w ← calls.modifyLiquidities s.outside
    [.sweep key.currency0 imm.self, .sweep key.currency1 imm.self] 0 (calls.now s.outside)
  let after ← unpairedLockedBalances calls imm w
  revertIf (after.zero < before.zero ∨ after.one < before.one)
    (.launchLocker .compoundBalanceMismatch)
  let isolated0 ← uadd s.ledger.zero.isolated (after.zero - before.zero)
  let isolated1 ← uadd s.ledger.one.isolated (after.one - before.one)
  return { s with
    outside := w
    ledger := ⟨⟨s.ledger.zero.compoundFees, isolated0⟩, ⟨s.ledger.one.compoundFees, isolated1⟩⟩ }

/-- `_approve`. The expiration is a `uint48`. -/
def approve (w : W) (permit asset : Address) (amount : ℕ) : Except Revert W :=
  if asset = 0 then return w
  else do
    let w ← calls.forceApprove w asset permit amount
    calls.permitApprove w permit asset imm.positionManager amount (calls.now w % 2 ^ 48)

/-- `_revoke`. -/
def revoke (w : W) (permit asset : Address) : Except Revert W :=
  if asset = 0 then return w
  else do
    let w ← calls.permitApprove w permit asset imm.positionManager 0 0
    calls.forceApprove w asset permit 0

/-- The part of `compoundLockedFees` that calls out: approve the two budgets, add
liquidity, return what was not used, and withdraw the approvals. -/
def increaseLiquidity (w : W) (key : PoolKey) (liquidity amount0Max amount1Max deadline : ℕ) :
    Except Revert W := do
  let permit ← calls.permit2 w
  let w ← approve calls imm w permit imm.currency.zero amount0Max
  let w ← approve calls imm w permit imm.currency.one amount1Max
  let w ← calls.modifyLiquidities w
    [.increaseLiquidity imm.tokenId liquidity amount0Max amount1Max,
      .settlePair key.currency0 key.currency1, .sweep key.currency0 imm.self,
      .sweep key.currency1 imm.self]
    (if imm.currency.zero = 0 then amount0Max else 0) deadline
  let w ← revoke calls imm w permit imm.currency.zero
  revoke calls imm w permit imm.currency.one

/-- `collectLockedFees`. -/
def collectLockedFees (s : State W) : Except Revert (State W × Pair ℕ) := do
  let (key, info) ← position platform calls imm s.outside
  collect platform calls imm s key info

/-- The part of `compoundLockedFees` after its collection: spend within the plan, and
take what was spent off the fees. -/
def spendFees (s : State W) (key : PoolKey) (info : Bytes32)
    (liquidity amount0Max amount1Max deadline : ℕ) : Except Revert (State W × Pair ℕ) := do
  revertIf (amount0Max > s.ledger.zero.compoundFees ∨ amount1Max > s.ledger.one.compoundFees)
    (.launchLocker .invalidCompoundPlan)
  let before ← unpairedLockedBalances calls imm s.outside
  let liquidityBefore ← calls.getPositionLiquidity s.outside imm.tokenId
  let w ← increaseLiquidity calls imm s.outside key liquidity amount0Max amount1Max deadline
  let after ← unpairedLockedBalances calls imm w
  revertIf (after.zero > before.zero ∨ after.one > before.one)
    (.launchLocker .compoundBalanceMismatch)
  let amount0 := before.zero - after.zero
  let amount1 := before.one - after.one
  revertIf (amount0 > amount0Max ∨ amount1 > amount1Max) (.launchLocker .compoundBalanceMismatch)
  let liquidityAfter ← calls.getPositionLiquidity w imm.tokenId
  revertIf (liquidityAfter ≠ liquidityBefore + liquidity) (.launchLocker .compoundBalanceMismatch)
  let fees0 ← usub s.ledger.zero.compoundFees amount0
  let fees1 ← usub s.ledger.one.compoundFees amount1
  checkPositionUnchanged platform calls imm w key info
  let ledger : Pair Coverage := ⟨⟨fees0, s.ledger.zero.isolated⟩, ⟨fees1, s.ledger.one.isolated⟩⟩
  requireFeeCoverage calls imm { s with outside := w, ledger }
  return (⟨w, ledger, s.log ++ [.lockedFeesCompounded imm.marketId imm.tokenId liquidity
    ⟨amount0, amount1⟩ ⟨fees0, fees1⟩]⟩, ⟨amount0, amount1⟩)

/-- **`compoundLockedFees`**: collect, isolate what the position manager holds, and add
liquidity out of the fees. -/
def compoundLockedFees (caller : Address) (s : State W)
    (liquidity amount0Max amount1Max deadline : ℕ) : Except Revert (State W × Pair ℕ) := do
  let keeper ← calls.compoundKeeper s.outside
  revertIf (caller ≠ keeper) (.launchLocker .unauthorizedCompoundKeeper)
  let latest ← uadd (calls.now s.outside) 300
  revertIf (liquidity = 0 ∨ deadline < calls.now s.outside ∨ deadline > latest)
    (.launchLocker .invalidCompoundPlan)
  let (key, info) ← position platform calls imm s.outside
  let (s, _) ← collect platform calls imm s key info
  let s ← isolateManagerBalances calls imm s key
  requireFeeCoverage calls imm s
  spendFees platform calls imm s key info liquidity amount0Max amount1Max deadline

/-- A locker as it is deployed: nothing is accounted. -/
def Init (s : State W) : Prop := s.ledger = ⟨⟨0, 0⟩, ⟨0, 0⟩⟩ ∧ s.log = []

end Contract

end LaunchLocker

end TickerGarden
