import TickerGarden.Vault.RewardAccounting
import TickerGarden.World

/-!
# The stock vault

The contract `UserStockVault`: custody of stock tokens, and the ledger of how much of
its deposit each user has allocated to which market. The functions are grouped as in the
source, one namespace for each of its files:

| namespace                  | what it does                                              |
|----------------------------|-----------------------------------------------------------|
| `UserStockVaultIdentity`   | which assets and markets the vault accepts                |
| `UserStockVaultDeposits`   | deposits                                                  |
| `UserStockVaultLedger`     | locking, releasing, and the escape from an allocation     |
| `UserStockVaultExits`      | withdrawals, alone or after a release                     |
| `UserStockVault`           | the external functions                                    |

A function of the ledger reads the world and the ledger of one asset, and returns that
ledger; the external functions put it back. Token movements are checked against the
balances before and after, as in the source. Calls do not nest: the tokens transfer
exactly and call nobody.
-/

namespace TickerGarden

open Checked Function

/-- `ASSET_STATUS_ACTIVE`. -/
def assetStatusActive : ℕ := 1

/-- `ASSET_STATUS_RETIRED`. -/
def assetStatusRetired : ℕ := 3

namespace UserStockVault

/-- What the vault keeps for an asset. -/
structure AssetLedger where
  /-- `_deposited`. -/
  deposited : Address → ℕ
  totalDeposited : ℕ
  /-- `_allocated`. -/
  allocated : Address → ℕ
  totalAllocated : ℕ
  market : Bytes32 → MarketLedger

/-- The ledger of an asset nobody has deposited. -/
def AssetLedger.empty : AssetLedger where
  deposited _ := 0
  totalDeposited := 0
  allocated _ := 0
  totalAllocated := 0
  market _ := MarketLedger.empty

/-- What a user has allocated to a market. -/
def AssetLedger.allocation (l : AssetLedger) (user : Address) (marketId : Bytes32) : ℕ :=
  ((l.market marketId).account user).allocation

/-- The vault's own address, and the manager it obeys. -/
structure Immutables where
  self : Address
  allocationManager : Address

/-- The vault in its world. -/
structure State where
  world : World
  ledger : Bytes32 → AssetLedger

/-- The vault with the ledger of an asset and the balances replaced. -/
def State.put (s : State) (assetUid : Bytes32) (l : AssetLedger) (b : Balances) : State where
  world := { s.world with balances := b }
  ledger := update s.ledger assetUid l

end UserStockVault

open UserStockVault

/-! ### Identity -/

namespace UserStockVaultIdentity

variable (v : Immutables) (w : World)

/-- `_canonicalAsset`: a registered asset whose vault is this one. -/
def canonicalAsset (assetUid : Bytes32) : Except Revert AssetView := do
  revertIf (assetUid = 0) (.vault (.invalidAssetUid assetUid))
  let assetView := w.registries.asset assetUid
  revertIf (¬ w.hasCode assetView.stockToken ∨ assetView.status < assetStatusActive ∨
      assetView.status > assetStatusRetired)
    (.vault (.invalidCanonicalAsset assetUid assetView.stockToken assetView.status))
  revertIf (assetView.userStockVault ≠ v.self)
    (.vault (.nonCanonicalVaultBinding assetUid assetView.stockToken v.self
      assetView.userStockVault))
  return assetView

/-- `_activeCanonicalAsset`. -/
def activeCanonicalAsset (assetUid : Bytes32) : Except Revert AssetView := do
  let assetView ← canonicalAsset v w assetUid
  revertIf (assetView.status ≠ assetStatusActive)
    (.vault (.assetNotActive assetUid assetView.status))
  revertIf (¬ w.registries.assetIdentityCurrent assetUid) (.vault (.assetIdentityDrift assetUid))
  return assetView

/-- `_marketForAsset`. -/
def marketForAsset (assetUid marketId : Bytes32) : Except Revert MarketView := do
  revertIf (marketId = 0) (.vault (.invalidMarketId marketId))
  let marketView ← MarketRegistry.market w.registries marketId
  revertIf (marketView.config.assetUid ≠ assetUid)
    (.vault (.marketAssetMismatch marketId assetUid marketView.config.assetUid))
  return marketView

/-- `_canonicalMarket`. -/
def canonicalMarket (assetUid marketId : Bytes32) : Except Revert MarketView := do
  let _ ← canonicalAsset v w assetUid
  marketForAsset w assetUid marketId

end UserStockVaultIdentity

open UserStockVaultIdentity

/-! ### Deposits -/

namespace UserStockVaultDeposits

variable (v : Immutables) (w : World) (l : AssetLedger)

/-- `_depositStock`: pull the tokens in, and check that exactly they arrived. A deposit
does not make up for tokens that are missing. -/
def depositStock (assetUid : Bytes32) (user : Address) (amount : ℕ) :
    Except Revert (AssetLedger × Balances) := do
  revertIf (user = 0 ∨ user = v.self) (.vault (.invalidDepositAccount user))
  revertIf (amount = 0) (.vault (.invalidDepositAmount amount))
  let assetView ← activeCanonicalAsset v w assetUid
  let stockToken := assetView.stockToken
  let beforeBalance := w.balances stockToken v.self
  let required := l.totalDeposited
  revertIf (beforeBalance < required)
    (.vault (.stockPrincipalDeficit assetUid beforeBalance required))
  let after ← orRevert (w.balances.move stockToken user v.self amount)
    (.vault (.stockTransferCallFailed stockToken))
  let afterBalance := after stockToken v.self
  let received := if afterBalance ≥ beforeBalance then afterBalance - beforeBalance else maxUint256
  revertIf (received ≠ amount)
    (.vault (.inexactStockBalanceDelta stockToken amount received))
  let deposited ← uadd (l.deposited user) amount
  let totalDeposited ← uadd l.totalDeposited amount
  return ({ l with deposited := update l.deposited user deposited, totalDeposited }, after)

end UserStockVaultDeposits

/-! ### The ledger -/

namespace UserStockVaultLedger

variable (v : Immutables) (w : World) (l : AssetLedger) (assetUid : Bytes32) (user : Address)
  (marketId : Bytes32)

/-- `_freeBalanceOf`. -/
def freeBalanceOf : Except Revert ℕ := do
  let depositedAmount := l.deposited user
  let allocatedAmount := l.allocated user
  revertIf (allocatedAmount > depositedAmount) (.vault .allocationLedgerMismatch)
  return depositedAmount - allocatedAmount

/-- `_validateAccountAndAmount`. -/
def validateAccountAndAmount (amount : ℕ) : Except Revert Unit := do
  revertIf (user = 0 ∨ user = v.self) (.vault (.invalidAllocationAccount user))
  revertIf (amount = 0) (.vault (.invalidAllocationAmount amount))

/-- `_lockAllocation`. -/
def lockAllocation (amount : ℕ) : Except Revert AssetLedger := do
  validateAccountAndAmount v user amount
  let _ ← canonicalMarket v w assetUid marketId
  let m := l.market marketId
  let pendingPrincipal := (m.account user).settlementPrincipal
  revertIf (pendingPrincipal ≠ 0)
    (.vault (.rageQuitRewardSettlementPending user marketId pendingPrincipal))
  let freeBalance ← freeBalanceOf l user
  revertIf (amount > freeBalance) (.vault (.allocationExceedsDeposit amount freeBalance))
  let m ← lockRewardEligibility w.now m user amount
  let allocation ← uadd (m.account user).allocation amount
  let allocated ← uadd (l.allocated user) amount
  let marketAllocated ← uadd m.marketAllocated amount
  let totalAllocated ← uadd l.totalAllocated amount
  return { l with
    allocated := update l.allocated user allocated
    totalAllocated
    market := update l.market marketId { m with
      marketAllocated
      account := update m.account user { m.account user with allocation } } }

/-- What the two releases have in common: the allocation of a user is taken off the
totals, and the account becomes `account`. -/
def deallocate (m : MarketLedger) (account : Account) (amount : ℕ) : Except Revert AssetLedger := do
  let allocated ← usub (l.allocated user) amount
  let marketAllocated ← usub m.marketAllocated amount
  let totalAllocated ← usub l.totalAllocated amount
  return { l with
    allocated := update l.allocated user allocated
    totalAllocated
    market := update l.market marketId { m with
      marketAllocated, account := update m.account user account } }

/-- `_releaseAllocation`. -/
def releaseAllocation : Except Revert (AssetLedger × ℕ) := do
  revertIf (user = 0 ∨ user = v.self) (.vault (.invalidAllocationAccount user))
  let _ ← canonicalMarket v w assetUid marketId
  let m := l.market marketId
  let amount := (m.account user).allocation
  revertIf (amount = 0) (.vault (.noMarketAllocation user marketId))
  let m ← removeRewardEligibility w.now m user amount
  let l ← deallocate l user marketId m { m.account user with allocation := 0 } amount
  return (l, amount)

/-- `_rageQuitAllocationLedger`: the same without a look at the market, and with a
tombstone, under which the accumulators of the time are kept. -/
def rageQuitAllocationLedger : Except Revert (AssetLedger × ℕ) := do
  revertIf (user = 0 ∨ user = v.self) (.vault (.invalidAllocationAccount user))
  revertIf (marketId = 0) (.vault (.invalidMarketId marketId))
  let _ ← canonicalAsset v w assetUid
  let m := l.market marketId
  let amount := (m.account user).allocation
  revertIf (amount = 0) (.vault (.noMarketAllocation user marketId))
  let pendingPrincipal := (m.account user).settlementPrincipal
  revertIf (pendingPrincipal ≠ 0)
    (.vault (.rageQuitRewardSettlementPending user marketId pendingPrincipal))
  let m ← removeRewardEligibility w.now m user amount
  let account := { m.account user with
    cutoff := m.latest, settlementPrincipal := amount, allocation := 0 }
  let l ← deallocate l user marketId m account amount
  return (l, amount)

/-- `_completeRageQuitRewardSettlement`: the tombstone is removed. -/
def completeRageQuitRewardSettlement : Except Revert (AssetLedger × ℕ) := do
  let m := l.market marketId
  let principal := (m.account user).settlementPrincipal
  revertIf (principal = 0) (.vault (.noRageQuitRewardSettlement user marketId))
  let account := { m.account user with settlementPrincipal := 0, cutoff := ⟨0, 0⟩ }
  return ({ l with market := update l.market marketId { m with
      account := update m.account user account } }, principal)

/-- `_recordGaugeRewardState`. -/
def recordGaugeRewardState (quoteAccumulator memeAccumulator : ℕ) : Except Revert AssetLedger := do
  let _ ← canonicalMarket v w assetUid marketId
  let m ← recordRewardState (l.market marketId) quoteAccumulator memeAccumulator
  return { l with market := update l.market marketId m }

end UserStockVaultLedger

/-! ### Exits -/

namespace UserStockVaultExits

variable (v : Immutables) (w : World) (l : AssetLedger) (assetUid : Bytes32) (user : Address)

/-- `_withdrawFreeStockUnchecked`: pay the tokens out, and check that exactly they
moved. -/
def withdrawFreeStock (amount : ℕ) : Except Revert (AssetLedger × Balances) := do
  revertIf (amount = 0) (.vault (.invalidWithdrawalAmount amount))
  let assetView ← canonicalAsset v w assetUid
  let stockToken := assetView.stockToken
  let available ← UserStockVaultLedger.freeBalanceOf l user
  revertIf (amount > available) (.vault (.insufficientFreeBalance amount available))
  let deposited ← usub (l.deposited user) amount
  let totalDeposited ← usub l.totalDeposited amount
  let b := w.balances
  let after ← orRevert (b.move stockToken v.self user amount)
    (.vault (.stockWithdrawalCallFailed stockToken))
  let vaultDecrease := if b stockToken v.self ≥ after stockToken v.self
    then b stockToken v.self - after stockToken v.self else maxUint256
  let userIncrease := if after stockToken user ≥ b stockToken user
    then after stockToken user - b stockToken user else maxUint256
  revertIf (vaultDecrease ≠ amount ∨ userIncrease ≠ amount)
    (.vault (.inexactStockWithdrawalDelta stockToken amount vaultDecrease userIncrease))
  return ({ l with deposited := update l.deposited user deposited, totalDeposited }, after)

/-- `_releaseAllocationAndWithdraw`. -/
def releaseAllocationAndWithdraw (marketId : Bytes32) :
    Except Revert (AssetLedger × Balances × ℕ) := do
  let (l, amount) ← UserStockVaultLedger.releaseAllocation v w l assetUid user marketId
  let (l, b) ← withdrawFreeStock v w l assetUid user amount
  return (l, b, amount)

/-- `_rageQuitAndWithdraw`. -/
def rageQuitAndWithdraw (marketId : Bytes32) : Except Revert (AssetLedger × Balances × ℕ) := do
  let (l, amount) ← UserStockVaultLedger.rageQuitAllocationLedger v w l assetUid user marketId
  let (l, b) ← withdrawFreeStock v w l assetUid user amount
  return (l, b, amount)

end UserStockVaultExits

/-! ### The external functions -/

namespace UserStockVault

variable (v : Immutables) (caller : Address) (s : State) (assetUid : Bytes32)

/-- `onlyAllocationManager`. -/
def onlyAllocationManager : Except Revert Unit :=
  revertIf (caller ≠ v.allocationManager)
    (.vault (.unauthorizedAllocationManager caller v.allocationManager))

/-- The caller deposits stock, for itself. -/
def depositStock (amount : ℕ) : Except Revert State := do
  let (l, b) ← UserStockVaultDeposits.depositStock v s.world (s.ledger assetUid) assetUid caller
    amount
  return s.put assetUid l b

/-- The allocation manager deposits stock of a user. -/
def depositStockFor (user : Address) (amount : ℕ) : Except Revert State := do
  onlyAllocationManager v caller
  let (l, b) ← UserStockVaultDeposits.depositStock v s.world (s.ledger assetUid) assetUid user amount
  return s.put assetUid l b

/-- The caller withdraws stock that is not allocated. -/
def withdrawFreeStock (amount : ℕ) : Except Revert State := do
  let (l, b) ← UserStockVaultExits.withdrawFreeStock v s.world (s.ledger assetUid) assetUid caller
    amount
  return s.put assetUid l b

/-- The caller leaves a market with its stock, whatever the gauge of the market does. -/
def rageQuit (marketId : Bytes32) : Except Revert (State × ℕ) := do
  let (l, b, amount) ← UserStockVaultExits.rageQuitAndWithdraw v s.world (s.ledger assetUid) assetUid
    caller marketId
  return (s.put assetUid l b, amount)

/-- The allocation manager allocates free stock of a user to a market. -/
def lockAllocation (user : Address) (marketId : Bytes32) (amount : ℕ) : Except Revert State := do
  onlyAllocationManager v caller
  let l ← UserStockVaultLedger.lockAllocation v s.world (s.ledger assetUid) assetUid user marketId
    amount
  return s.put assetUid l s.world.balances

/-- The allocation manager takes back the allocation of a user and pays its stock out. -/
def releaseAllocationAndWithdraw (user : Address) (marketId : Bytes32) :
    Except Revert (State × ℕ) := do
  onlyAllocationManager v caller
  let (l, b, amount) ← UserStockVaultExits.releaseAllocationAndWithdraw v s.world
    (s.ledger assetUid) assetUid user marketId
  return (s.put assetUid l b, amount)

/-- The allocation manager takes back the allocation of a user, which is free stock then. -/
def releaseAllocation (user : Address) (marketId : Bytes32) : Except Revert (State × ℕ) := do
  onlyAllocationManager v caller
  let (l, amount) ← UserStockVaultLedger.releaseAllocation v s.world (s.ledger assetUid) assetUid
    user marketId
  return (s.put assetUid l s.world.balances, amount)

/-- The allocation manager lets a user leave a market with its stock. -/
def rageQuitAllocation (user : Address) (marketId : Bytes32) : Except Revert (State × ℕ) := do
  onlyAllocationManager v caller
  let (l, b, amount) ← UserStockVaultExits.rageQuitAndWithdraw v s.world (s.ledger assetUid) assetUid
    user marketId
  return (s.put assetUid l b, amount)

/-- The allocation manager notes that the rewards of a user who left are settled. -/
def completeRageQuitRewardSettlement (user : Address) (marketId : Bytes32) :
    Except Revert (State × ℕ) := do
  onlyAllocationManager v caller
  let (l, principal) ← UserStockVaultLedger.completeRageQuitRewardSettlement (s.ledger assetUid) user
    marketId
  return (s.put assetUid l s.world.balances, principal)

/-- The allocation manager notes the accumulators of a gauge as the last that are known. -/
def recordGaugeRewardState (marketId : Bytes32) (quoteAccumulator memeAccumulator : ℕ) :
    Except Revert State := do
  onlyAllocationManager v caller
  let l ← UserStockVaultLedger.recordGaugeRewardState v s.world (s.ledger assetUid) assetUid marketId
    quoteAccumulator memeAccumulator
  return s.put assetUid l s.world.balances

/-! ### The vault as a machine -/

/-- The vault before anyone has used it. It has code, and the registries are sound. -/
structure Init (s : State) : Prop where
  assetsSound : Registries.AssetsSound s.world.registries
  hasCode : s.world.hasCode v.self
  ledger : ∀ assetUid, s.ledger assetUid = AssetLedger.empty

/-- **One step of the vault**: a successful call of one of its functions, or a change of
the world. The functions for the manager are called by it alone; it never locks an
allocation for itself. -/
inductive Step (platform : Platform) (bindings : MarketRegistry.Bindings) (v : Immutables) :
    State → Unit → State → Prop
  | depositStock {s s' : State} (caller : Address) (assetUid : Bytes32) (amount : ℕ)
      (h : depositStock v caller s assetUid amount = .ok s') : Step platform bindings v s () s'
  | depositStockFor {s s' : State} (caller : Address) (assetUid : Bytes32) (user : Address)
      (amount : ℕ) (h : depositStockFor v caller s assetUid user amount = .ok s') :
      Step platform bindings v s () s'
  | withdrawFreeStock {s s' : State} (caller : Address) (assetUid : Bytes32) (amount : ℕ)
      (h : withdrawFreeStock v caller s assetUid amount = .ok s') : Step platform bindings v s () s'
  | rageQuit {s s' : State} (caller : Address) (assetUid marketId : Bytes32) (amount : ℕ)
      (h : rageQuit v caller s assetUid marketId = .ok (s', amount)) :
      Step platform bindings v s () s'
  | lockAllocation {s s' : State} (caller : Address) (assetUid : Bytes32) (user : Address)
      (marketId : Bytes32) (amount : ℕ) (huser : user ≠ v.allocationManager)
      (h : lockAllocation v caller s assetUid user marketId amount = .ok s') :
      Step platform bindings v s () s'
  | releaseAllocationAndWithdraw {s s' : State} (caller : Address) (assetUid : Bytes32)
      (user : Address) (marketId : Bytes32) (amount : ℕ)
      (h : releaseAllocationAndWithdraw v caller s assetUid user marketId = .ok (s', amount)) :
      Step platform bindings v s () s'
  | releaseAllocation {s s' : State} (caller : Address) (assetUid : Bytes32) (user : Address)
      (marketId : Bytes32) (amount : ℕ)
      (h : releaseAllocation v caller s assetUid user marketId = .ok (s', amount)) :
      Step platform bindings v s () s'
  | rageQuitAllocation {s s' : State} (caller : Address) (assetUid : Bytes32) (user : Address)
      (marketId : Bytes32) (amount : ℕ)
      (h : rageQuitAllocation v caller s assetUid user marketId = .ok (s', amount)) :
      Step platform bindings v s () s'
  | completeRageQuitRewardSettlement {s s' : State} (caller : Address) (assetUid : Bytes32)
      (user : Address) (marketId : Bytes32) (principal : ℕ)
      (h : completeRageQuitRewardSettlement v caller s assetUid user marketId
        = .ok (s', principal)) : Step platform bindings v s () s'
  | recordGaugeRewardState {s s' : State} (caller : Address) (assetUid marketId : Bytes32)
      (quoteAccumulator memeAccumulator : ℕ)
      (h : recordGaugeRewardState v caller s assetUid marketId quoteAccumulator memeAccumulator
        = .ok s') : Step platform bindings v s () s'
  | world {s : State} {w : World} (h : World.Evolves platform bindings (· = v.self) s.world w) :
      Step platform bindings v s () { s with world := w }

/-- The states of the vault some run leads to. -/
abbrev Reachable (platform : Platform) (bindings : MarketRegistry.Bindings) (s : State) : Prop :=
  Transition.Reachable (Step platform bindings v) (Init v) s

end UserStockVault

end TickerGarden
