import TickerGarden.Staking.AllocationManager

/-!
# The gauge of a market

The contract `MemeStockGauge`: it shares the fees of the stakers of one market among
them. A fee in one of the two assets increases an **accumulator**, the reward of one unit
of stock, in units of `10^-27`; what a user has earned is settled lazily, from the
accumulator of the last settlement to the present one, and the fractions are carried.

Stock counts from thirty seconds after it was added. Until then it is *pending*, in a
wheel of thirty-two slots like the one of the vault. A checkpoint activates the slots that
are due, and leaves a **snapshot** of the accumulators for each of them; a user whose slot
was activated is *materialised* from the snapshot at the next settlement, and the last
one deletes it.

The weight a fee is divided by is not the gauge's: the vault is asked for it, through the
manager. A gauge carries its identity in its code, and knows the caller of a function.
-/

namespace TickerGarden

open Checked

namespace MemeStockGauge

open UserStockVault (Immutables State)

/-- `ACTIVATION_WHEEL_SIZE`. -/
abbrev activationWheelSize : ℕ := 32

/-- `ACTIVATION_DELAY`: thirty seconds. -/
def activationDelay : ℕ := 30

/-- `MINIMUM_POSITION_LOCK`: a day. -/
def minimumPositionLock : ℕ := 86400

/-- `INDEX_PRECISION`. -/
def indexPrecision : ℕ := 10 ^ 27

/-! ### What is kept -/

/-- `QUOTE_REWARD_INDEX` and `MEME_REWARD_INDEX`: the assets rewards are paid in. -/
inductive RewardIndex
  | quote
  | meme
deriving DecidableEq

/-- A value for each of the two assets. -/
def RewardIndex.pair {α : Type} (quote meme : α) : RewardIndex → α
  | .quote => quote
  | .meme => meme

/-- What a user has earned of one asset: the accumulator up to which it is counted, the amount, and
the remainder of the division. -/
structure GaugeUserReward where
  accumulatorPaid : ℕ
  pendingFee : ℕ
  userRemainder : ℕ
deriving DecidableEq

/-- The stock of a user in the gauge: what is active, what waits to be, in which generation of which
wheel, and the rewards. -/
structure GaugePosition where
  activeAmount : ℕ
  pendingAmount : ℕ
  pendingGeneration : ℕ
  unlockAt : ℕ
  rewards : RewardIndex → GaugeUserReward

/-- The accumulators of the time a slot was activated, and how many users are still to be
materialised from it. -/
structure StoredActivationSnapshot where
  accumulator : RewardIndex → ℕ
  refs : ℕ

/-- What the gauge keeps of one asset: the accumulated fee of a unit of active stock, and the
remainder of the division. -/
structure GaugeRewardState where
  accFeePerShare : ℕ
  indexRemainder : ℕ

/-- What a gauge emits. -/
inductive Event
  | activationBucketProcessed (generation amount : ℕ) (accumulator : RewardIndex → ℕ) (refs : ℕ)
  | pendingMaterialized (user : Address) (generation amount : ℕ)
  | pendingScheduled (user : Address) (amount generation unlockAt : ℕ)
  | pendingRescheduled (user : Address)
      (oldGeneration newGeneration combinedAmount unlockAt : ℕ)
  | stakerFeeCredited (feeAsset : Address) (feeId : Bytes32)
      (amount accumulatorDelta indexRemainder : ℕ)
  | gaugeRageQuit (user : Address) (principal : ℕ) (forfeited : RewardIndex → ℕ)
  | forfeitureRecordDeferred (user : Address) (amount totalDeferred : RewardIndex → ℕ)
  | forfeitureRecordFlushed (amount : RewardIndex → ℕ)

/-- The storage of a gauge, with the events it has emitted: all of them name its market. -/
structure Storage where
  /-- `_activationWheel`, `_storedTotalActiveStock` and `_totalPendingStock`. -/
  wheel : TimingWheel.Ledger activationWheelSize
  snapshots : ℕ → StoredActivationSnapshot
  positions : Address → GaugePosition
  rewardStates : RewardIndex → GaugeRewardState
  forfeiturePrecisionRemainders : RewardIndex → ℕ
  /-- `_deferredQuoteForfeiture` and `_deferredMemeForfeiture`. -/
  deferredForfeiture : RewardIndex → ℕ
  observedRewardCohortEpoch : ℕ
  log : List Event

/-- A snapshot nobody is left in. -/
def StoredActivationSnapshot.empty : StoredActivationSnapshot := ⟨fun _ => 0, 0⟩

/-- A position nothing was ever added to. -/
def GaugePosition.empty : GaugePosition := ⟨0, 0, 0, 0, fun _ => ⟨0, 0, 0⟩⟩

/-- The storage of a gauge that was just deployed. -/
def Storage.empty : Storage where
  wheel := TimingWheel.Ledger.empty _
  snapshots _ := StoredActivationSnapshot.empty
  positions _ := GaugePosition.empty
  rewardStates _ := ⟨0, 0⟩
  forfeiturePrecisionRemainders _ := 0
  deferredForfeiture _ := 0
  observedRewardCohortEpoch := 0
  log := []

namespace Storage

variable (s : Storage)

/-- The present accumulators. -/
def accumulators (i : RewardIndex) : ℕ := (s.rewardStates i).accFeePerShare

/-- An event is written to the log. -/
def emit (e : Event) : Storage := { s with log := s.log ++ [e] }

/-- The position of a user is written. -/
def setPosition (user : Address) (p : GaugePosition) : Storage :=
  { s with positions := Function.update s.positions user p }

/-- The snapshot of a generation is written. -/
def setSnapshot (generation : ℕ) (snapshot : StoredActivationSnapshot) : Storage :=
  { s with snapshots := Function.update s.snapshots generation snapshot }

end Storage

/-! ### The wheel -/

/-- The errors of the wheel. -/
def wheelErrors : TimingWheel.Errors Revert where
  invalidBucket amount refs := .gauge (.invalidActivationBucket amount refs)
  collision slotIndex existing requested :=
    .gauge (.activationSlotCollision slotIndex existing requested)
  notFound generation := .gauge (.pendingGenerationNotFound generation)
  invalidSlot slotIndex generation amount refs :=
    .gauge (.invalidActivationSlotState slotIndex generation amount refs)

/-- `_recordActivationSnapshot`. -/
def recordActivationSnapshot (current : RewardIndex → ℕ) (slot : TimingWheel.Slot) (s : Storage) :
    Except Revert Storage := do
  revertIf (slot.refs = 0) (.gauge (.invalidActivationSnapshot slot.generation 0 false))
  let existing := s.snapshots slot.generation
  revertIf (existing.accumulator .quote ≠ 0 ∨ existing.accumulator .meme ≠ 0 ∨ existing.refs ≠ 0)
    (.gauge (.activationSnapshotAlreadyProcessed slot.generation))
  return (s.setSnapshot slot.generation ⟨current, slot.refs⟩).emit
    (.activationBucketProcessed slot.generation slot.amount current slot.refs)

section Wheel

variable (now : ℕ) (current : RewardIndex → ℕ) (s : Storage)

/-- `_checkpointActivations`. -/
def checkpointWheel : Except Revert Storage := do
  let (wheel, s) ← TimingWheel.checkpoint wheelErrors (recordActivationSnapshot current) now
    (s.wheel, s)
  return { s with wheel }

/-- `_nextActivationGeneration`. -/
def nextActivationGeneration : Except Revert ℕ := do
  revertIf (now > maxUint64 - activationDelay) (.gauge (.activationTimestampOverflow now))
  return now + activationDelay

/-- `_scheduleActivation`, of the position of one user. -/
def scheduleActivation (generation amount : ℕ) : Except Revert Storage := do
  revertIf (amount = 0) (.gauge (.invalidActivationBucket amount 1))
  let expectedGeneration ← nextActivationGeneration now
  revertIf (generation ≠ expectedGeneration)
    (.gauge (.invalidActivationGeneration generation expectedGeneration))
  let wheel ← TimingWheel.schedule wheelErrors s.wheel generation amount 1
  return { s with wheel }

/-- `_unscheduleActivation`, of the position of one user. -/
def unscheduleActivation (generation amount : ℕ) : Except Revert Storage := do
  let wheel ← TimingWheel.unschedule wheelErrors s.wheel generation amount 1
  return { s with wheel }

end Wheel

/-! ### Accrual -/

section Accrual

variable (reward : GaugeUserReward)

/-- `_accrueRewardTerm`: what an amount earns while the accumulator goes from one value to
another. The paid index stays. -/
def accrueRewardTerm (amount startingAccumulator currentAccumulator : ℕ) :
    Except Revert GaugeUserReward := do
  revertIf (currentAccumulator < startingAccumulator)
    (.gauge (.rewardAccumulatorRegression startingAccumulator currentAccumulator))
  revertIf (reward.userRemainder ≥ indexPrecision)
    (.gauge (.invalidUserRewardRemainder reward.userRemainder))
  let accumulatorDelta := currentAccumulator - startingAccumulator
  if amount = 0 ∨ accumulatorDelta = 0 then .ok reward
  else do
    let whole ← mulDiv amount accumulatorDelta indexPrecision
    let fraction := amount * accumulatorDelta % indexPrecision
    let merged ← uadd reward.userRemainder fraction
    let accrued ← uadd whole (merged / indexPrecision)
    let pendingFee ← uadd reward.pendingFee accrued
    return { reward with pendingFee, userRemainder := merged % indexPrecision }

/-- `_settleRewardToCurrent`. -/
def settleRewardToCurrent (amount currentAccumulator : ℕ) : Except Revert GaugeUserReward := do
  let reward ← accrueRewardTerm reward amount reward.accumulatorPaid currentAccumulator
  return { reward with accumulatorPaid := currentAccumulator }

/-- `_settleMaterializingReward`: the active amount earns from the paid index on, and the
pending one from the snapshot on. -/
def settleMaterializingReward (activeAmount pendingAmount snapshotAccumulator
    currentAccumulator : ℕ) : Except Revert GaugeUserReward := do
  let reward ← accrueRewardTerm reward activeAmount reward.accumulatorPaid currentAccumulator
  let reward ← accrueRewardTerm reward pendingAmount snapshotAccumulator currentAccumulator
  return { reward with accumulatorPaid := currentAccumulator }

end Accrual

section Positions

variable (p : GaugePosition)

/-- A settlement of the rewards of a position: the quote first, and then the token. -/
def settleRewards (settle : RewardIndex → GaugeUserReward → Except Revert GaugeUserReward) :
    Except Revert GaugePosition := do
  let quote ← settle .quote (p.rewards .quote)
  let meme ← settle .meme (p.rewards .meme)
  return { p with rewards := RewardIndex.pair quote meme }

/-- `_settleActivePositionAt`. -/
def settleActivePositionAt (accumulator : RewardIndex → ℕ) : Except Revert GaugePosition :=
  settleRewards p fun i reward => settleRewardToCurrent reward p.activeAmount (accumulator i)

/-- `_settleMaterializingPosition`. -/
def settleMaterializingPosition (snapshot : StoredActivationSnapshot) (current : RewardIndex → ℕ) :
    Except Revert GaugePosition :=
  settleRewards p fun i reward => settleMaterializingReward reward p.activeAmount p.pendingAmount
    (snapshot.accumulator i) (current i)

end Positions

/-! ### Positions -/

/-- One reference of a snapshot is used up: the last one deletes it. -/
def StoredActivationSnapshot.release (snapshot : StoredActivationSnapshot) :
    StoredActivationSnapshot :=
  if snapshot.refs = 1 then .empty else { snapshot with refs := snapshot.refs - 1 }

section Lifecycle

variable (now : ℕ) (user : Address) (current : RewardIndex → ℕ) (s : Storage)

/-- `_materializePending`: nothing happens as long as the slot was not activated. -/
def materializePending : Except Revert Storage :=
  let p := s.positions user
  if p.pendingAmount = 0 then do
    revertIf (p.pendingGeneration ≠ 0)
      (.gauge (.invalidGaugePosition user p.pendingAmount p.pendingGeneration))
    return s
  else do
    revertIf (p.pendingGeneration = 0)
      (.gauge (.invalidGaugePosition user p.pendingAmount p.pendingGeneration))
    let snapshot := s.snapshots p.pendingGeneration
    if snapshot.refs = 0 then do
      revertIf (p.pendingGeneration ≤ now) (.gauge (.pendingGenerationNotFound p.pendingGeneration))
      return s
    else do
      let settled ← settleMaterializingPosition p snapshot current
      let activeAmount ← uadd p.activeAmount p.pendingAmount
      let s := s.setPosition user
        { settled with activeAmount, pendingAmount := 0, pendingGeneration := 0 }
      let s := s.setSnapshot p.pendingGeneration snapshot.release
      return s.emit (.pendingMaterialized user p.pendingGeneration p.pendingAmount)

/-- `_settleActivePosition`, of a user. -/
def settleActivePosition : Except Revert Storage := do
  let p ← settleActivePositionAt (s.positions user) s.accumulators
  return s.setPosition user p

/-- `_nextPositionUnlockAt`. -/
def nextPositionUnlockAt : Except Revert ℕ := do
  revertIf (now > maxUint64 - minimumPositionLock) (.gauge (.positionLockTimestampOverflow now))
  return now + minimumPositionLock

/-- The end of `_addPending`: what was pending is scheduled again, with the new amount. -/
def schedulePending (amount generation unlockAt : ℕ) : Except Revert Storage :=
  let p := s.positions user
  if p.pendingAmount = 0 then do
    revertIf (p.pendingGeneration ≠ 0)
      (.gauge (.invalidGaugePosition user p.pendingAmount p.pendingGeneration))
    let s ← scheduleActivation now s generation amount
    let s := s.setPosition user
      { p with pendingAmount := amount, pendingGeneration := generation, unlockAt }
    return s.emit (.pendingScheduled user amount generation unlockAt)
  else do
    revertIf (p.pendingGeneration = 0)
      (.gauge (.invalidGaugePosition user p.pendingAmount p.pendingGeneration))
    let s ← unscheduleActivation s p.pendingGeneration p.pendingAmount
    let combinedAmount ← uadd p.pendingAmount amount
    let s ← scheduleActivation now s generation combinedAmount
    let s := s.setPosition user
      { p with pendingAmount := combinedAmount, pendingGeneration := generation, unlockAt }
    return s.emit
      (.pendingRescheduled user p.pendingGeneration generation combinedAmount unlockAt)

/-- `_addPending`, at the present accumulators. -/
def addPendingStock (amount suppliedGeneration suppliedUnlockAt : ℕ) : Except Revert Storage := do
  let s ← checkpointWheel now s.accumulators s
  revertIf (user = 0) (.gauge (.invalidPendingUser user))
  revertIf (amount = 0) (.gauge (.invalidPendingAmount amount))
  let generation ← nextActivationGeneration now
  let unlockAt ← nextPositionUnlockAt now
  revertIf (suppliedGeneration ≠ generation ∨ suppliedUnlockAt ≠ unlockAt)
    (.gauge (.invalidPendingSchedule suppliedGeneration suppliedUnlockAt generation unlockAt))
  let s ← materializePending now user s.accumulators s
  let s ← settleActivePosition user s
  schedulePending now user s amount generation unlockAt

/-- `_removeAllocation`, at the present accumulators: the whole position, once its lock is
over. -/
def removeStock : Except Revert (Storage × ℕ) := do
  let s ← checkpointWheel now s.accumulators s
  revertIf (user = 0) (.gauge (.invalidRemovalUser user))
  let s ← materializePending now user s.accumulators s
  let p := s.positions user
  revertIf (p.pendingAmount ≠ 0 ∨ p.pendingGeneration ≠ 0)
    (.gauge (.pendingPositionNotMaterialized user p.pendingAmount p.pendingGeneration))
  revertIf (p.activeAmount = 0) (.gauge (.noActiveAllocation user))
  revertIf (p.unlockAt = 0) (.gauge (.invalidPositionLock user p.unlockAt))
  revertIf (now < p.unlockAt) (.gauge (.positionLockedUntil p.unlockAt))
  let p ← settleActivePositionAt p s.accumulators
  let active ← usub s.wheel.active p.activeAmount
  let s := { s with wheel := { s.wheel with active } }
  return (s.setPosition user { p with activeAmount := 0, unlockAt := 0 }, p.activeAmount)

end Lifecycle

end MemeStockGauge

end TickerGarden
