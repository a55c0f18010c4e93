import TickerGarden.Vault.Vault

/-!
# The allocation manager

The contract `AllocationManager`: the only account that may lock and release an
allocation, it moves the principal in the vault and the reward weight in the gauge of
the market together. A rage quit is the exception. It returns the principal first, and
the cleanup of the gauge is tried afterwards: whatever the gauge does, the principal is
out.

The gauge is an interface, `TickerGarden.AllocationManager.GaugeCalls`, over a state `G`
of its own; a gauge reads the vault through the manager, so its functions see the state
of the vault too. The gauge of a market is addressed by the market, for which it was
deployed. The vault is one vault: a market whose stock is kept in another one has
nothing allocated here.
-/

namespace TickerGarden

open Checked

namespace AllocationManager

open UserStockVault (Immutables State)

/-- `ACTIVATION_DELAY`: thirty seconds. -/
def activationDelay : ℕ := 30

/-- `MINIMUM_LOCK`: a day. -/
def minimumLock : ℕ := 86400

/-- **What the manager calls on the gauge of a market.** -/
structure GaugeCalls (G : Type) where
  checkpointActivations : State → Bytes32 → G → Except Revert G
  settle : State → Bytes32 → Address → G → Except Revert G
  positionOf : State → Bytes32 → Address → G → Except Revert PositionView
  addPending : State → Bytes32 → Address → (amount activationAt unlockAt : ℕ) → G →
    Except Revert G
  removeAllocation : State → Bytes32 → Address → G → Except Revert (G × ℕ)
  /-- With the principal, and the quote and the token that are forfeited. -/
  rageQuit : State → Bytes32 → Address → G → Except Revert (G × ℕ × ℕ × ℕ)

/-- How the gas of a rage quit lasts: it may be too little for the gauge to be tried, for
one of its two functions to return, and for the vault to be told. -/
structure Gas where
  enough : Bool
  rageQuit : Bool
  positionOf : Bool
  completion : Bool

/-- The components of a market, as far as an exit needs them. -/
structure ExitContext where
  gauge : Address
  assetUid : Bytes32

/-- The components of a market, as far as an increase needs them. -/
structure IncreaseContext where
  assetUid : Bytes32
  minimumAllocation : ℕ
  activationAt : ℕ
  unlockAt : ℕ

section Components

variable (v : Immutables) (w : World) (user : Address) (marketId : Bytes32)

/-- `_allocationComponents`. -/
def allocationComponents : Except Revert (MarketView × AssetView) := do
  revertIf (marketId = 0) (.allocationManager (.stockAllocationClosed marketId))
  let marketView ← MarketRegistry.market w.registries marketId
  revertIf (¬ marketView.config.stakingEnabled)
    (.allocationManager (.stockAllocationClosed marketId))
  let assetView := w.registries.asset marketView.config.assetUid
  let gauge := marketView.config.gauge
  revertIf (assetView.status = 0 ∨ assetView.status > 3 ∨ assetView.tokenDecimals < 6 ∨
      assetView.tokenDecimals > 18 ∨ ¬ w.hasCode assetView.stockToken ∨
      ¬ w.hasCode assetView.userStockVault ∨ ¬ w.hasCode gauge ∨
      assetView.stockToken = assetView.userStockVault ∨ assetView.stockToken = gauge ∨
      assetView.userStockVault = gauge)
    (.allocationManager (.invalidAllocationComponents marketId assetView.userStockVault gauge))
  return (marketView, assetView)

/-- `_minimumAllocation`. -/
def minimumAllocation (assetUid : Bytes32) : Except Revert ℕ := do
  let minimum := w.registries.minimumAllocation assetUid
  revertIf (minimum = 0) (.allocationManager (.invalidAssetMinimumAllocation assetUid minimum))
  return minimum

/-- `_allocationTimes`. -/
def allocationTimes : Except Revert (ℕ × ℕ) := do
  revertIf (w.now > maxUint64 - minimumLock)
    (.allocationManager (.allocationTimestampOverflow w.now))
  return (w.now + activationDelay, w.now + minimumLock)

/-- `_openAllocationMarket`, with the times. -/
def openAllocationMarket : Except Revert IncreaseContext := do
  let (marketView, assetView) ← allocationComponents w marketId
  revertIf (marketView.runtime.launchPhase ≠ launchPhasePoolCreated ∨
      assetView.status ≠ assetStatusActive)
    (.allocationManager (.stockAllocationClosed marketId))
  let assetUid := marketView.config.assetUid
  revertIf (¬ w.registries.assetIdentityCurrent assetUid)
    (.allocationManager (.assetIdentityDrift assetUid))
  let minimumAllocation ← minimumAllocation w assetUid
  let (activationAt, unlockAt) ← allocationTimes w
  return { assetUid, minimumAllocation, activationAt, unlockAt }

/-- `_exitContext`. -/
def exitContext : Except Revert ExitContext := do
  let (marketView, _) ← allocationComponents w marketId
  revertIf (marketView.runtime.launchPhase ≠ launchPhasePoolCreated)
    (.allocationManager (.stockAllocationClosed marketId))
  return { gauge := marketView.config.gauge, assetUid := marketView.config.assetUid }

/-- `_rageQuitContext`: neither the phase of the market nor the status of the asset is
asked for, as long as the asset is registered. -/
def rageQuitContext : Except Revert ExitContext := do
  revertIf (marketId = 0) (.allocationManager (.stockAllocationClosed marketId))
  let marketView ← MarketRegistry.market w.registries marketId
  let assetView := w.registries.asset marketView.config.assetUid
  revertIf (assetView.status = 0 ∨ assetView.status > 3 ∨ assetView.tokenDecimals < 6 ∨
      assetView.tokenDecimals > 18 ∨ ¬ w.hasCode assetView.stockToken ∨
      ¬ w.hasCode assetView.userStockVault ∨ assetView.stockToken = assetView.userStockVault)
    (.allocationManager (.invalidAllocationComponents marketId assetView.userStockVault
      marketView.config.gauge))
  return { gauge := marketView.config.gauge, assetUid := marketView.config.assetUid }

/-- `_validateAllocationRequest`. -/
def validateAllocationRequest (amount : ℕ) : Except Revert Unit := do
  revertIf (user = 0 ∨ user = v.allocationManager)
    (.allocationManager (.invalidAllocationUser user))
  revertIf (amount = 0) (.allocationManager (.invalidAllocationAmount amount))

end Components

section Calls

variable {G : Type} (calls : GaugeCalls G) (v : Immutables) (user : Address) (marketId : Bytes32)

/-- `_gaugePosition`: the active and the pending amount. -/
def gaugePosition (s : State) (g : G) : Except Revert ℕ := do
  let position ← calls.positionOf s marketId user g
  uadd position.activeAmount position.pendingAmount

/-- `_checkedPosition`: the gauge and the vault have to agree. -/
def checkedPosition (s : State) (g : G) (assetUid : Bytes32) : Except Revert ℕ := do
  let amount ← gaugePosition calls user marketId s g
  revertIf (amount ≠ (s.ledger assetUid).allocation user marketId)
    (.allocationManager .allocationLedgerMismatch)
  return amount

/-- `_executeIncrease`. -/
def executeIncrease (s : State) (g : G) (amount : ℕ) (context : IncreaseContext) :
    Except Revert (State × G) := do
  let g ← calls.checkpointActivations s marketId g
  let g ← calls.settle s marketId user g
  let currentPosition ← checkedPosition calls user marketId s g context.assetUid
  let resultingPosition ← uadd currentPosition amount
  revertIf (resultingPosition < context.minimumAllocation)
    (.allocationManager (.positionBelowMinimum resultingPosition context.minimumAllocation))
  let s ← UserStockVault.lockAllocation v v.allocationManager s context.assetUid user marketId amount
  let g ← calls.addPending s marketId user amount context.activationAt context.unlockAt g
  let position ← checkedPosition calls user marketId s g context.assetUid
  revertIf (position ≠ resultingPosition) (.allocationManager .allocationLedgerMismatch)
  return (s, g)

/-- `_increaseAllocation`: `allocate` and `increaseAllocation`. -/
def increaseAllocation (s : State) (g : G) (amount : ℕ) : Except Revert (State × G) := do
  validateAllocationRequest v user amount
  let context ← openAllocationMarket s.world marketId
  executeIncrease calls v user marketId s g amount context

/-- `_depositAndAllocate`: `depositAndAllocate`, and `stake` with one amount twice. -/
def depositAndAllocate (s : State) (g : G) (depositAmount allocationAmount : ℕ) :
    Except Revert (State × G) := do
  validateAllocationRequest v user allocationAmount
  let context ← openAllocationMarket s.world marketId
  let s ← UserStockVault.depositStockFor v v.allocationManager s context.assetUid user depositAmount
  executeIncrease calls v user marketId s g allocationAmount context

/-- The release of a position in the vault, with or without a withdrawal. -/
def releasePosition (s : State) (assetUid : Bytes32) (withdraw : Bool) : Except Revert (State × ℕ) :=
  if withdraw then
    UserStockVault.releaseAllocationAndWithdraw v v.allocationManager s assetUid user marketId
  else UserStockVault.releaseAllocation v v.allocationManager s assetUid user marketId

/-- `_closePosition`: `closeAllocation`, and `unstakeAndWithdraw` with a withdrawal. -/
def closePosition (s : State) (g : G) (withdraw : Bool) : Except Revert (State × G) := do
  revertIf (user = 0 ∨ user = v.allocationManager)
    (.allocationManager (.invalidAllocationUser user))
  let context ← exitContext s.world marketId
  let vaultPosition := (s.ledger context.assetUid).allocation user marketId
  let position ← calls.positionOf s marketId user g
  let gaugeAmount ← uadd position.activeAmount position.pendingAmount
  revertIf (gaugeAmount ≠ vaultPosition) (.allocationManager .allocationLedgerMismatch)
  revertIf (vaultPosition = 0) (.allocationManager (.noAllocationPosition user marketId))
  revertIf (s.world.now < position.unlockAt)
    (.allocationManager (.positionLockedUntil position.unlockAt))
  let (g, removed) ← calls.removeAllocation s marketId user g
  let remaining ← gaugePosition calls user marketId s g
  revertIf (removed ≠ vaultPosition ∨ remaining ≠ 0) (.allocationManager .allocationLedgerMismatch)
  let (s, released) ← releasePosition v user marketId s context.assetUid withdraw
  revertIf (released ≠ vaultPosition ∨ (s.ledger context.assetUid).allocation user marketId ≠ 0)
    (.allocationManager .allocationLedgerMismatch)
  return (s, g)

/-- Whether a position is gone from the gauge. -/
def Cleared (position : PositionView) : Prop :=
  position.activeAmount = 0 ∧ position.pendingAmount = 0 ∧ position.quoteClaimable = 0 ∧
    position.memeClaimable = 0

instance (position : PositionView) : Decidable (Cleared position) :=
  inferInstanceAs (Decidable (_ ∧ _ ∧ _ ∧ _))

/-- `_tryCompleteRageQuitRewards`: the quote and the token that were forfeited, and
whether the settlement is complete. It never fails. A gauge that has answered has
changed, also when the rest of the cleanup does not go through. -/
def tryCompleteRageQuitRewards (gas : Gas) (context : ExitContext) (principal : ℕ) (s : State)
    (g : G) : (State × G) × ℕ × ℕ × Bool :=
  if ¬ s.world.hasCode context.gauge ∨ ¬ gas.enough then ((s, g), 0, 0, false)
  else match ifGas gas.rageQuit (calls.rageQuit s marketId user g) with
    | .error _ => ((s, g), 0, 0, false)
    | .ok (g, forfeitedPrincipal, forfeitedQuote, forfeitedMeme) =>
      if forfeitedPrincipal ≠ principal then ((s, g), 0, 0, false)
      else match ifGas gas.positionOf (calls.positionOf s marketId user g) with
        | .error _ => ((s, g), 0, 0, false)
        | .ok position =>
          if ¬ Cleared position then ((s, g), 0, 0, false)
          else match ifGas gas.completion (UserStockVault.completeRageQuitRewardSettlement v
              v.allocationManager s context.assetUid user marketId) with
            | .error _ => ((s, g), 0, 0, false)
            | .ok (s, completedPrincipal) =>
              if completedPrincipal ≠ principal then ((s, g), 0, 0, false)
              else ((s, g), forfeitedQuote, forfeitedMeme, true)

/-- `_rageQuitAllocationWithSettlement`: the principal, and what the cleanup answers. -/
def rageQuitAllocationWithSettlement (gas : Gas) (s : State) (g : G) :
    Except Revert ((State × G) × ℕ × ℕ × ℕ × Bool) := do
  revertIf (user = 0 ∨ user = v.allocationManager)
    (.allocationManager (.invalidAllocationUser user))
  let context ← rageQuitContext s.world marketId
  let principal := (s.ledger context.assetUid).allocation user marketId
  revertIf (principal = 0) (.allocationManager (.noAllocationPosition user marketId))
  let (s, withdrawn) ← UserStockVault.rageQuitAllocation v v.allocationManager s context.assetUid
    user marketId
  revertIf (withdrawn ≠ principal ∨ (s.ledger context.assetUid).allocation user marketId ≠ 0)
    (.allocationManager .allocationLedgerMismatch)
  let (after, quoteForfeited, memeForfeited, completed) :=
    tryCompleteRageQuitRewards calls v user marketId gas context principal s g
  return (after, principal, quoteForfeited, memeForfeited, completed)

/-- The part of `_settleRageQuitRewards` in the gauge: a position that is gone already has
to be gone completely, and one that is not is forfeited. -/
def forfeitPosition (s : State) (g : G) (beforePosition : PositionView)
    (gaugePrincipal principal : ℕ) : Except Revert (G × ℕ × ℕ) :=
  if gaugePrincipal = 0 then do
    revertIf (beforePosition.quoteClaimable ≠ 0 ∨ beforePosition.memeClaimable ≠ 0)
      (.allocationManager .allocationLedgerMismatch)
    return (g, 0, 0)
  else do
    revertIf (gaugePrincipal ≠ principal) (.allocationManager .allocationLedgerMismatch)
    let (g, forfeitedPrincipal, quoteForfeited, memeForfeited) ← calls.rageQuit s marketId user g
    revertIf (forfeitedPrincipal ≠ principal) (.allocationManager .allocationLedgerMismatch)
    let afterPosition ← calls.positionOf s marketId user g
    revertIf (¬ Cleared afterPosition) (.allocationManager .allocationLedgerMismatch)
    return (g, quoteForfeited, memeForfeited)

/-- `_settleRageQuitRewards`: the cleanup of an earlier rage quit, in full. -/
def settleRageQuitRewards (s : State) (g : G) :
    Except Revert ((State × G) × ℕ × ℕ × ℕ) := do
  revertIf (user = 0 ∨ user = v.allocationManager)
    (.allocationManager (.invalidAllocationUser user))
  let context ← rageQuitContext s.world marketId
  let principal := (((s.ledger context.assetUid).market marketId).account user).settlementPrincipal
  revertIf (principal = 0) (.allocationManager (.noRageQuitRewardSettlement user marketId))
  let beforePosition ← calls.positionOf s marketId user g
  let gaugePrincipal ← uadd beforePosition.activeAmount beforePosition.pendingAmount
  let (g, quoteForfeited, memeForfeited) ←
    forfeitPosition calls user marketId s g beforePosition gaugePrincipal principal
  let (s, completedPrincipal) ← UserStockVault.completeRageQuitRewardSettlement v
    v.allocationManager s context.assetUid user marketId
  revertIf (completedPrincipal ≠ principal) (.allocationManager .allocationLedgerMismatch)
  return ((s, g), principal, quoteForfeited, memeForfeited)

end Calls

/-! ### What a gauge asks the manager -/

section Views

variable (v : Immutables) (s : State) (marketId : Bytes32)

/-- `rageQuitRewardCutoff`: the tombstone of a user, with the accumulators under it. -/
def rageQuitRewardCutoff (user : Address) : Except Revert (ℕ × ℕ × ℕ) := do
  let context ← rageQuitContext s.world marketId
  let account := ((s.ledger context.assetUid).market marketId).account user
  return (account.settlementPrincipal, account.cutoff.quoteAccumulator,
    account.cutoff.memeAccumulator)

/-- `rageQuitSettlementPending`. -/
def rageQuitSettlementPending (user : Address) : Except Revert (Bool × ℕ) := do
  let (principal, _, _) ← rageQuitRewardCutoff s marketId user
  return (principal ≠ 0, principal)

/-- `rewardEligibleActiveStock`. -/
def rewardEligibleActiveStock : Except Revert ℕ := do
  let context ← rageQuitContext s.world marketId
  UserStockVault.marketRewardEligible s.world.now ((s.ledger context.assetUid).market marketId)

/-- `rewardCohortEpoch`. -/
def rewardCohortEpoch : Except Revert ℕ := do
  let context ← rageQuitContext s.world marketId
  return ((s.ledger context.assetUid).market marketId).cohortEpoch

/-- `recordGaugeRewardState`, by the gauge. -/
def recordGaugeRewardState (caller : Address) (quoteAccumulator memeAccumulator : ℕ) :
    Except Revert State := do
  let context ← rageQuitContext s.world marketId
  revertIf (caller ≠ context.gauge)
    (.allocationManager (.unauthorizedRewardStateGauge caller context.gauge))
  UserStockVault.recordGaugeRewardState v v.allocationManager s context.assetUid marketId
    quoteAccumulator memeAccumulator

end Views

end AllocationManager

end TickerGarden
