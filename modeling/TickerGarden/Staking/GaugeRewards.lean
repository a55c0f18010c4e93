import TickerGarden.Staking.Gauge

/-!
# The functions of a gauge

What `MemeStockGauge` does with fees: it credits them, settles users, pays a claim out to
the `ProtocolFeeVault`, and forfeits the rewards of a user that leaves early. On top of it
are the external functions of the contract, each with its caller and the state of the
vault, which the gauge reads through the manager: the weight that counts for rewards, the
cohort, and whether a user has quit.

A cohort is over when nothing counts for rewards any more. What a fee left over then
belongs to nobody: it is forfeited, before anyone else can join.
-/

namespace TickerGarden

open Checked Function

namespace MemeStockGauge

open UserStockVault (Immutables State)

/-! ### Forfeiture -/

section Forfeiture

variable (s : Storage) (i : RewardIndex)

/-- `_collectForfeitedReward`: what is forfeited in whole units. The fractions are kept. -/
def collectForfeitedReward (pendingFee userRemainder : ℕ) (absorbGlobalRemainder : Bool) :
    Except Revert (Storage × ℕ) := do
  revertIf (userRemainder ≥ indexPrecision) (.gauge (.invalidUserRewardRemainder userRemainder))
  let precisionRemainder ← uadd (s.forfeiturePrecisionRemainders i) userRemainder
  let globalRemainder := if absorbGlobalRemainder then (s.rewardStates i).indexRemainder else 0
  let amount ← uadd pendingFee (globalRemainder / indexPrecision)
  let precisionRemainder ← uadd precisionRemainder (globalRemainder % indexPrecision)
  let amount ← uadd amount (precisionRemainder / indexPrecision)
  let state := s.rewardStates i
  let indexRemainder := if absorbGlobalRemainder then 0 else state.indexRemainder
  let precision := precisionRemainder % indexPrecision
  return ({ s with
    rewardStates := update s.rewardStates i { state with indexRemainder }
    forfeiturePrecisionRemainders :=
      update s.forfeiturePrecisionRemainders i precision }, amount)

/-- `_forfeitReward`, of a user: the claim and the fraction. -/
def forfeitReward (user : Address) (absorbGlobalRemainder : Bool) :
    Except Revert (Storage × ℕ) := do
  let p := s.positions user
  let reward := p.rewards i
  let (s, amount) ← collectForfeitedReward s i reward.pendingFee reward.userRemainder
    absorbGlobalRemainder
  return (s.setPosition user { p with
    rewards := update p.rewards i { reward with pendingFee := 0, userRemainder := 0 } },
    amount)

/-- Amounts that are added to what waits for the fee vault. -/
def deferForfeiture (amount : RewardIndex → ℕ) : Except Revert Storage := do
  let quote ← uadd (s.deferredForfeiture .quote) (amount .quote)
  let meme ← uadd (s.deferredForfeiture .meme) (amount .meme)
  return { s with deferredForfeiture := RewardIndex.pair quote meme }

/-- The remainders of a cohort that is over are forfeited. -/
def reserveRemainders : Except Revert Storage := do
  let (s, quoteAmount) ← collectForfeitedReward s .quote 0 0 true
  let (s, memeAmount) ← collectForfeitedReward s .meme 0 0 true
  if quoteAmount = 0 ∧ memeAmount = 0 then .ok s
  else deferForfeiture s (RewardIndex.pair quoteAmount memeAmount)

end Forfeiture

section Rewards

variable (id : GaugeIdentity) (vs : State)

/-- `_reserveOrphanedRemainders`: whether the cohort is still the one the gauge saw last,
and whether anything counts for rewards now. -/
def reserveOrphanedRemainders (s : Storage) : Except Revert Storage := do
  let epoch ← AllocationManager.rewardCohortEpoch vs id.marketId
  let endedCohort := epoch ≠ s.observedRewardCohortEpoch
  let s := { s with observedRewardCohortEpoch := epoch }
  if endedCohort then reserveRemainders s
  else do
    let eligible ← AllocationManager.rewardEligibleActiveStock vs id.marketId
    if eligible ≠ 0 then .ok s else reserveRemainders s

/-- `_checkpointRewardActivations`. -/
def checkpointRewardActivations (s : Storage) : Except Revert Storage := do
  let s ← reserveOrphanedRemainders id vs s
  checkpointWheel vs.world.now s.accumulators s

/-! ### Credits -/

/-- `_rewardIndex`. -/
def rewardIndex (feeAsset : Address) : Except Revert RewardIndex :=
  if feeAsset = id.quoteAsset then .ok .quote
  else if feeAsset = id.memeToken then .ok .meme
  else .error (.gauge (.unsupportedRewardAsset feeAsset))

/-- The arithmetic of `_increaseRewardAccumulator`: by how much the accumulator grows, and
what remains. Two fractions are added that are below the active stock each. -/
def accumulatorIncrease (amount indexRemainder activeStock : ℕ) : Except Revert (ℕ × ℕ) := do
  let carry := indexRemainder / activeStock
  let normalizedRemainder := indexRemainder % activeStock
  let whole ← mulDiv amount indexPrecision activeStock
  let fraction := amount * indexPrecision % activeStock
  let overflows := fraction ≠ 0 ∧ normalizedRemainder ≥ activeStock - fraction
  let fractionalCarry := if overflows then 1 else 0
  let indexRemainder := if overflows then normalizedRemainder - (activeStock - fraction)
    else normalizedRemainder + fraction
  let accumulatorDelta ← uadd carry whole
  let accumulatorDelta ← uadd accumulatorDelta fractionalCarry
  return (accumulatorDelta, indexRemainder)

/-- `_increaseRewardAccumulator`, and what it tells the vault. -/
def increaseRewardAccumulator (v : Immutables) (self : Address) (s : Storage) (i : RewardIndex)
    (amount : ℕ) : Except Revert ((State × Storage) × ℕ × ℕ) :=
  let state := s.rewardStates i
  if amount = 0 then .ok ((vs, s), 0, state.indexRemainder)
  else do
    let activeStock ← AllocationManager.rewardEligibleActiveStock vs id.marketId
    revertIf (activeStock = 0) (.gauge (.stakerCreditWithoutActiveStock amount))
    let (accumulatorDelta, indexRemainder) ←
      accumulatorIncrease amount state.indexRemainder activeStock
    let accFeePerShare ← uadd state.accFeePerShare accumulatorDelta
    let s := { s with
      rewardStates := update s.rewardStates i { accFeePerShare, indexRemainder } }
    let vs ← AllocationManager.recordGaugeRewardState v vs id.marketId self (s.accumulators .quote)
      (s.accumulators .meme)
    return ((vs, s), accumulatorDelta, indexRemainder)

/-- `_applyStakerFee`. -/
def applyStakerFee (v : Immutables) (self : Address) (s : Storage) (i : RewardIndex)
    (feeAsset : Address) (amount : ℕ) (feeId : Bytes32) :
    Except Revert ((State × Storage) × ℕ × ℕ) := do
  let ((vs, s), accumulatorDelta, indexRemainder) ←
    increaseRewardAccumulator id vs v self s i amount
  return ((vs, s.emit (.stakerFeeCredited feeAsset feeId amount accumulatorDelta indexRemainder)),
    accumulatorDelta, indexRemainder)

/-! ### Settlement -/

/-- `_settlePosition`. -/
def settlePosition (s : Storage) (user : Address) : Except Revert Storage := do
  let s ← checkpointRewardActivations id vs s
  revertIf (user = 0) (.gauge (.invalidSettlementUser user))
  let s ← materializePending vs.world.now user s.accumulators s
  settleActivePosition user s

/-- `_requireNoRageQuitSettlement`. -/
def requireNoRageQuitSettlement (user : Address) : Except Revert Unit := do
  let (pending, principal) ← AllocationManager.rageQuitSettlementPending vs id.marketId user
  revertIf (pending = true)
    (.gauge (.rageQuitRewardSettlementPending user id.marketId principal))

/-- `_previewTerm`: `_accrueRewardTerm`, without a write. -/
def previewTerm (claimable remainder amount startingAccumulator currentAccumulator : ℕ) :
    Except Revert (ℕ × ℕ) := do
  revertIf (currentAccumulator < startingAccumulator)
    (.gauge (.rewardAccumulatorRegression startingAccumulator currentAccumulator))
  revertIf (remainder ≥ indexPrecision) (.gauge (.invalidUserRewardRemainder remainder))
  let accumulatorDelta := currentAccumulator - startingAccumulator
  if amount = 0 ∨ accumulatorDelta = 0 then .ok (claimable, remainder)
  else do
    let whole ← mulDiv amount accumulatorDelta indexPrecision
    let fraction := amount * accumulatorDelta % indexPrecision
    let merged ← uadd remainder fraction
    let nextClaimable ← uadd claimable whole
    let nextClaimable ← uadd nextClaimable (merged / indexPrecision)
    return (nextClaimable, merged % indexPrecision)

/-- `_previewClaimableAt`: a slot that was activated after the cutoff earned nothing. -/
def previewClaimableAt (s : Storage) (user : Address) (i : RewardIndex) (accumulatorCutoff : ℕ) :
    Except Revert ℕ := do
  let p := s.positions user
  let reward := p.rewards i
  let (claimable, remainder) ← previewTerm reward.pendingFee reward.userRemainder p.activeAmount
    reward.accumulatorPaid accumulatorCutoff
  let snapshot := s.snapshots p.pendingGeneration
  if p.pendingAmount ≠ 0 ∧ snapshot.refs ≠ 0 ∧ snapshot.accumulator i ≤ accumulatorCutoff then do
    let (claimable, _) ← previewTerm claimable remainder p.pendingAmount (snapshot.accumulator i)
      accumulatorCutoff
    return claimable
  else .ok claimable

/-- `_previewClaimable`. -/
def previewClaimable (s : Storage) (user : Address) (i : RewardIndex) : Except Revert ℕ :=
  previewClaimableAt s user i (s.accumulators i)

/-- `_consumeClaimable`: the claim is paid out, and the fraction stays. -/
def consumeClaimable (s : Storage) (user : Address) (i : RewardIndex) : Storage × ℕ :=
  let p := s.positions user
  let reward := p.rewards i
  (s.setPosition user
    { p with rewards := update p.rewards i { reward with pendingFee := 0 } },
    reward.pendingFee)

/-! ### Rage quits -/

/-- `_materializeOrCancelPending`: what was activated before the cutoff has earned, and
what was not is taken out. -/
def materializeOrCancelPending (s : Storage) (user : Address) (cutoff : RewardIndex → ℕ) :
    Except Revert Storage :=
  let p := s.positions user
  if p.pendingAmount = 0 then .ok s
  else
    let snapshot := s.snapshots p.pendingGeneration
    let cancelled := { p with pendingAmount := 0, pendingGeneration := 0 }
    if snapshot.refs = 0 then do
      let s ← unscheduleActivation s p.pendingGeneration p.pendingAmount
      return s.setPosition user cancelled
    else if snapshot.accumulator .quote ≤ cutoff .quote ∧ snapshot.accumulator .meme ≤ cutoff .meme then
      materializePending vs.world.now user cutoff s
    else do
      let active ← usub s.wheel.active p.pendingAmount
      let s := { s with wheel := { s.wheel with active } }
      return (s.setPosition user cancelled).setSnapshot p.pendingGeneration snapshot.release

/-- `_rageQuitPosition`: the principal, and what is forfeited. -/
def rageQuitPosition (s : Storage) (user : Address) (cutoff : RewardIndex → ℕ) :
    Except Revert (Storage × ℕ × ℕ × ℕ) := do
  revertIf (user = 0) (.gauge (.invalidRageQuitUser user))
  let s ← checkpointRewardActivations id vs s
  let before := s.positions user
  let principal ← uadd before.activeAmount before.pendingAmount
  revertIf (principal = 0) (.gauge (.noRageQuitPosition user))
  let s ← materializeOrCancelPending vs s user cutoff
  let p ← settleActivePositionAt (s.positions user) cutoff
  let active ← usub s.wheel.active p.activeAmount
  let s := { s with wheel := { s.wheel with active } }
  let s := s.setPosition user { p with activeAmount := 0, unlockAt := 0 }
  let eligible ← AllocationManager.rewardEligibleActiveStock vs id.marketId
  let (s, quoteForfeited) ← forfeitReward s .quote user (eligible = 0)
  let (s, memeForfeited) ← forfeitReward s .meme user (eligible = 0)
  return (s.emit (.gaugeRageQuit user principal (RewardIndex.pair quoteForfeited memeForfeited)),
    principal, quoteForfeited, memeForfeited)

end Rewards

/-! ### The external functions -/

section External

variable (id : GaugeIdentity) (caller : Address) (vs : State) (s : Storage)

/-- The functions for the manager. -/
def onlyAllocationManager : Except Revert Unit :=
  revertIf (caller ≠ id.allocationManager)
    (.gauge (.unauthorizedAllocationModule caller id.allocationManager))

/-- The functions for the fee vault. -/
def onlyFeeVault : Except Revert Unit :=
  revertIf (caller ≠ id.protocolFeeVault)
    (.gauge (.unauthorizedFeeVault caller id.protocolFeeVault))

/-- The allocation manager adds stock of a user, which waits for its activation. -/
def addPending (user : Address) (amount activationAt unlockAt : ℕ) : Except Revert Storage := do
  onlyAllocationManager id caller
  addPendingStock vs.world.now user s amount activationAt unlockAt

/-- The allocation manager takes out the stock of a user, active or not. -/
def removeAllocation (user : Address) : Except Revert (Storage × ℕ) := do
  onlyAllocationManager id caller
  removeStock vs.world.now user s

/-- `_tryFlushDeferredForfeiture`: the fee vault may refuse the amounts, and then they
wait on. -/
def tryFlushDeferredForfeiture (recorded : Bool) : Storage :=
  if s.deferredForfeiture .quote = 0 ∧ s.deferredForfeiture .meme = 0 then s
  else if recorded then
    { s with deferredForfeiture := fun _ => 0 }.emit (.forfeitureRecordFlushed s.deferredForfeiture)
  else s

/-- Forfeitures that the vault did not take are offered again, by anybody. -/
def flushDeferredForfeiture (recorded : Bool) : Except Revert Storage :=
  .ok (tryFlushDeferredForfeiture s recorded)

/-- What is due is activated, by anybody, and forfeitures are offered again. -/
def checkpointActivations (recorded : Bool) : Except Revert Storage := do
  let s ← checkpointRewardActivations id vs s
  return tryFlushDeferredForfeiture s recorded

/-- The position of a user is settled, for the allocation manager or the fee vault, unless the user
has left and is not settled. -/
def settle (user : Address) : Except Revert Storage := do
  revertIf (caller ≠ id.allocationManager ∧ caller ≠ id.protocolFeeVault)
    (.gauge (.unauthorizedSettlementCaller caller))
  requireNoRageQuitSettlement id vs user
  settlePosition id vs s user

/-- The fee vault credits a fee to the stock that is active, once what is due is activated. -/
def creditStakerFee (v : Immutables) (self : Address) (feeAsset : Address) (amount : ℕ)
    (feeId : Bytes32) : Except Revert ((State × Storage) × ℕ × ℕ) := do
  onlyFeeVault id caller
  let s ← checkpointRewardActivations id vs s
  let i ← rewardIndex id feeAsset
  applyStakerFee id vs v self s i feeAsset amount feeId

/-- The lock of a position: while it has stock, a claim has to wait for the end of it. -/
def requireUnlocked (user : Address) : Except Revert Unit :=
  let p := s.positions user
  if p.activeAmount ≠ 0 ∨ p.pendingAmount ≠ 0 then do
    revertIf (p.unlockAt = 0) (.gauge (.invalidPositionLock user p.unlockAt))
    revertIf (vs.world.now < p.unlockAt) (.gauge (.positionLockedUntil p.unlockAt))
  else .ok ()

/-- `consumeClaimableAssets`: the user is settled, and what is selected is paid out. -/
def consumeClaimableAssets (user : Address) (assets : BitVec 8) :
    Except Revert (Storage × ℕ × ℕ) := do
  revertIf (assets = 0 ∨ assets > 3) (.gauge (.invalidRewardIndex assets.toNat))
  onlyFeeVault id caller
  requireNoRageQuitSettlement id vs user
  requireUnlocked vs s user
  let s ← settlePosition id vs s user
  let (s, quote) := if assets &&& 1 ≠ 0 then consumeClaimable s user .quote else (s, 0)
  let (s, meme) := if assets &&& 2 ≠ 0 then consumeClaimable s user .meme else (s, 0)
  return (s, quote, meme)

/-- `consumeClaimable`, of both assets. -/
def consumeClaimableBoth (user : Address) : Except Revert (Storage × ℕ × ℕ) :=
  consumeClaimableAssets id caller vs s user 3

/-- `rageQuit`: the rewards of the user up to the cutoff are forfeited, together with the
remainders its checkpoint set aside. The fee vault may refuse them, and then they wait. -/
def rageQuit (user : Address) (recorded : Bool) : Except Revert (Storage × ℕ × ℕ × ℕ) := do
  onlyAllocationManager id caller
  let (expectedPrincipal, quoteCutoff, memeCutoff) ←
    AllocationManager.rageQuitRewardCutoff vs id.marketId user
  let prior := s.deferredForfeiture
  let (s, principal, quoteForfeited, memeForfeited) ←
    rageQuitPosition id vs s user (RewardIndex.pair quoteCutoff memeCutoff)
  revertIf (principal ≠ expectedPrincipal)
    (.gauge (.rageQuitRewardSettlementPending user id.marketId expectedPrincipal))
  let quoteIsolated ← usub (s.deferredForfeiture .quote) (prior .quote)
  let quoteForfeited ← uadd quoteForfeited quoteIsolated
  let memeIsolated ← usub (s.deferredForfeiture .meme) (prior .meme)
  let memeForfeited ← uadd memeForfeited memeIsolated
  let s := { s with deferredForfeiture := prior }
  let forfeited := RewardIndex.pair quoteForfeited memeForfeited
  if (quoteForfeited = 0 ∧ memeForfeited = 0) ∨ recorded then
    .ok (s, principal, quoteForfeited, memeForfeited)
  else do
    let s ← deferForfeiture s forfeited
    return (s.emit (.forfeitureRecordDeferred user forfeited s.deferredForfeiture),
      principal, quoteForfeited, memeForfeited)

/-- `positionOf`: a user that has quit is shown the claim at the cutoff. -/
def positionOf (user : Address) : Except Revert PositionView := do
  let stored := s.positions user
  let (rageQuitPrincipal, quoteCutoff, memeCutoff) ←
    AllocationManager.rageQuitRewardCutoff vs id.marketId user
  let quoteClaimable ← if rageQuitPrincipal = 0 then previewClaimable s user .quote
    else previewClaimableAt s user .quote quoteCutoff
  let memeClaimable ← if rageQuitPrincipal = 0 then previewClaimable s user .meme
    else previewClaimableAt s user .meme memeCutoff
  return {
    activeAmount := stored.activeAmount
    pendingAmount := stored.pendingAmount
    pendingGeneration := stored.pendingGeneration
    unlockAt := stored.unlockAt
    quoteClaimable
    memeClaimable }

end External

end MemeStockGauge

end TickerGarden
