import TickerGarden.Staking.GaugeRuns
import TickerGarden.Vault.Vault

/-!
# The failures of a wheel

The gauge and the vault each keep a wheel, and each checks it as it goes. The failures of
these checks, `TickerGarden.MemeStockGauge.WheelFailure`, would mean that the bookkeeping
is wrong. None of the functions raises one of them on a wheel that is sound.

There is one lemma for each function, and it only looks at the functions called. A failure needs
an argument in three places. A slot that is to be scheduled is free, or has the right generation,
as a checkpoint has emptied all that is due (`slot_free`). The wheel of the vault is scheduled
after the position has left its slot, and that slot is free for it too (`slot_free_cancelled`).
And a position that is due when it is materialized has been activated, so that there is a
snapshot for it.
-/

namespace TickerGarden

open Checked TimingWheel Function

namespace MemeStockGauge

open UserStockVault (Immutables State AssetLedger MarketLedger MarketSound)

/-- **The failures of a wheel.** -/
def WheelFailure : Revert → Prop
  | .gauge (.activationSlotCollision _ _ _) => True
  | .gauge (.pendingGenerationNotFound _) => True
  | .gauge (.invalidActivationSlotState _ _ _ _) => True
  | .gauge (.activationSnapshotAlreadyProcessed _) => True
  | .vault (.rewardActivationSlotCollision _ _ _) => True
  | .vault (.rewardActivationBucketNotFound _) => True
  | .vault (.invalidRewardActivationSlot _ _ _ _) => True
  | _ => False

/-! ### How the gauge fails -/

section Failures

variable {id : GaugeIdentity} {caller self : Address} {v : Immutables} {vs : State} {s : Storage}
  {user : Address} {marketId : Bytes32} {i : RewardIndex} {now amount : ℕ}

theorem failsOnly_rageQuitContext :
    FailsOnly (AllocationManager.rageQuitContext vs.world marketId) (¬ WheelFailure ·) := by
  simp [AllocationManager.rageQuitContext, MarketRegistry.market, WheelFailure]

theorem failsOnly_rewardCohortEpoch :
    FailsOnly (AllocationManager.rewardCohortEpoch vs marketId) (¬ WheelFailure ·) := by
  simp [AllocationManager.rewardCohortEpoch, failsOnly_rageQuitContext]

theorem failsOnly_rewardEligibleActiveStock :
    FailsOnly (AllocationManager.rewardEligibleActiveStock vs marketId) (¬ WheelFailure ·) := by
  simp only [AllocationManager.rewardEligibleActiveStock, failsOnly_bind]
  refine ⟨failsOnly_rageQuitContext, fun _ _ => ?_⟩
  rw [UserStockVault.marketRewardEligible, eligible]
  split
  · exact failsOnly_ok
  · refine failsOnly_foldlM (fun _ _ => ?_) _
    split
    · exact failsOnly_uadd id
    · exact failsOnly_ok

theorem failsOnly_rageQuitRewardCutoff :
    FailsOnly (AllocationManager.rageQuitRewardCutoff vs marketId user) (¬ WheelFailure ·) := by
  simp [AllocationManager.rageQuitRewardCutoff, failsOnly_rageQuitContext]

theorem failsOnly_requireNoRageQuitSettlement :
    FailsOnly (requireNoRageQuitSettlement id vs user) (¬ WheelFailure ·) := by
  simp only [requireNoRageQuitSettlement, AllocationManager.rageQuitSettlementPending,
    failsOnly_bind, failsOnly_revertIf]
  exact ⟨⟨failsOnly_rageQuitRewardCutoff, fun _ _ => failsOnly_ok⟩, fun _ _ _ => not_false⟩

theorem failsOnly_collectForfeitedReward {fee remainder : ℕ} {absorb : Bool} :
    FailsOnly (collectForfeitedReward s i fee remainder absorb) (¬ WheelFailure ·) := by
  simp [collectForfeitedReward, failsOnly_uadd, WheelFailure]

theorem failsOnly_deferForfeiture {amount : RewardIndex → ℕ} :
    FailsOnly (deferForfeiture s amount) (¬ WheelFailure ·) := by
  simp [deferForfeiture, failsOnly_uadd, WheelFailure]

theorem failsOnly_reserveRemainders : FailsOnly (reserveRemainders s) (¬ WheelFailure ·) := by
  simp [reserveRemainders, failsOnly_collectForfeitedReward, failsOnly_deferForfeiture]

theorem failsOnly_reserveOrphanedRemainders :
    FailsOnly (reserveOrphanedRemainders id vs s) (¬ WheelFailure ·) := by
  simp [reserveOrphanedRemainders, failsOnly_rewardCohortEpoch, failsOnly_rewardEligibleActiveStock,
    failsOnly_reserveRemainders]

theorem failsOnly_accrueRewardTerm {reward : GaugeUserReward} {start current : ℕ} :
    FailsOnly (accrueRewardTerm reward amount start current) (¬ WheelFailure ·) := by
  simp [accrueRewardTerm, failsOnly_uadd, failsOnly_mulDiv, WheelFailure]

theorem failsOnly_settleRewards {p : GaugePosition}
    {settle : RewardIndex → GaugeUserReward → Except Revert GaugeUserReward}
    (h : ∀ i r, FailsOnly (settle i r) (¬ WheelFailure ·)) :
    FailsOnly (settleRewards p settle) (¬ WheelFailure ·) := by
  simp [settleRewards, h]

theorem failsOnly_settleActivePositionAt {p : GaugePosition} {accumulator : RewardIndex → ℕ} :
    FailsOnly (settleActivePositionAt p accumulator) (¬ WheelFailure ·) :=
  failsOnly_settleRewards fun _ _ => by simp [settleRewardToCurrent, failsOnly_accrueRewardTerm]

theorem failsOnly_settleActivePosition :
    FailsOnly (settleActivePosition user s) (¬ WheelFailure ·) := by
  simp [settleActivePosition, failsOnly_settleActivePositionAt]

theorem failsOnly_settleMaterializingPosition {p : GaugePosition}
    {snapshot : StoredActivationSnapshot} {current : RewardIndex → ℕ} :
    FailsOnly (settleMaterializingPosition p snapshot current) (¬ WheelFailure ·) :=
  failsOnly_settleRewards fun _ _ => by
    simp [settleMaterializingReward, failsOnly_accrueRewardTerm]

theorem failsOnly_forfeitReward {absorb : Bool} :
    FailsOnly (forfeitReward s i user absorb) (¬ WheelFailure ·) := by
  simp [forfeitReward, failsOnly_collectForfeitedReward]

variable (h : WheelSound now s)

include h

theorem failsOnly_checkpointWheel {current : RewardIndex → ℕ} :
    FailsOnly (checkpointWheel now current s) (¬ WheelFailure ·) := fun e he => by
  rw [h.checkpointWheel_error he]
  exact not_false

/-- Materialising a user does not fail once a checkpoint has emptied what is due. -/
theorem failsOnly_materializePending {current : RewardIndex → ℕ}
    (hlive : ∀ g, Live s.wheel g → now < g) :
    FailsOnly (materializePending now user current s) (¬ WheelFailure ·) := by
  have hzero : s.generation user = 0 ↔ s.pendingAmount user = 0 := h.generation_eq_zero
  rw [materializePending]
  simp only [failsOnly_ite, failsOnly_bind, failsOnly_revertIf]
  refine ⟨fun _ => ⟨fun _ => not_false, fun _ _ => failsOnly_ok⟩, fun hp => ⟨fun _ => not_false,
    fun _ _ => ⟨fun hrefs => ⟨fun hle => ?_, fun _ _ => failsOnly_ok⟩, fun _ => ?_⟩⟩⟩
  · -- a slot that is due was activated
    have hg : s.generation user ≠ 0 := fun hc => hp (hzero.mp hc)
    have hl : Live s.wheel (s.generation user) :=
      not_not.mp fun hc => (h.refs_ne_zero_iff hg).mpr hc hrefs
    exact absurd hle (not_le.mpr (hlive _ hl))
  · exact ⟨failsOnly_settleMaterializingPosition, fun _ _ =>
      ⟨failsOnly_uadd not_false, fun _ _ => failsOnly_ok⟩⟩

/-- The slot of the next generation is free once a checkpoint has emptied what is due. -/
theorem slot_free (hlive : ∀ g, Live s.wheel g → now < g) :
    (s.wheel.wheel (slotIndex _ (now + activationDelay))).generation = 0 ∨
      (s.wheel.wheel (slotIndex _ (now + activationDelay))).generation = now + activationDelay :=
  h.wheel.slot_free (by decide) fun g hg => ⟨hlive g hg, h.live_le hg⟩

omit h in
/-- A schedule does not fail for the wheel if its slot is free. -/
theorem failsOnly_scheduleActivation {generation : ℕ}
    (hslot : (s.wheel.wheel (slotIndex _ (now + activationDelay))).generation = 0 ∨
      (s.wheel.wheel (slotIndex _ (now + activationDelay))).generation = now + activationDelay) :
    FailsOnly (scheduleActivation now s generation amount) (¬ WheelFailure ·) := by
  simp only [scheduleActivation, nextActivationGeneration, failsOnly_bind, failsOnly_revertIf]
  refine ⟨fun _ => not_false, fun _ hamount => ⟨⟨fun _ => not_false, fun _ _ => failsOnly_ok⟩,
    fun expected hexpected => ⟨fun _ => not_false, fun _ hgeneration => ⟨?_, fun _ _ => failsOnly_ok⟩⟩⟩⟩
  simp only [bind_eq_ok, pure_eq_ok, Except.ok.injEq] at hexpected
  obtain ⟨-, -, rfl⟩ := hexpected
  obtain rfl := not_not.mp (revertIf_eq_ok.mp hgeneration)
  intro e he
  rw [schedule_error (revertIf_eq_ok.mp hamount) hslot he]
  exact not_false

/-- Scheduling a pending amount again does not fail for the wheel. -/
theorem failsOnly_schedulePending {generation unlockAt : ℕ} (hlive : ∀ g, Live s.wheel g → now < g)
    (hpending : s.generation user ≠ 0 → Live s.wheel (s.generation user)) :
    FailsOnly (schedulePending now user s amount generation unlockAt) (¬ WheelFailure ·) := by
  have hzero : s.generation user = 0 ↔ s.pendingAmount user = 0 := h.generation_eq_zero
  rw [schedulePending]
  simp only [failsOnly_ite, failsOnly_bind, failsOnly_revertIf]
  refine ⟨fun _ => ⟨fun _ => not_false, fun _ _ => ⟨failsOnly_scheduleActivation (slot_free h hlive),
    fun _ _ => failsOnly_ok⟩⟩, fun hp => ⟨fun _ => not_false, fun _ _ => ?_⟩⟩
  have hg : s.generation user ≠ 0 := fun hc => hp (hzero.mp hc)
  have hcancel : unschedule wheelErrors s.wheel (s.positions user).pendingGeneration
      (s.positions user).pendingAmount 1 = .ok (s.unscheduledFor user).wheel :=
    h.wheel.unschedule_eq (hpending hg)
  -- the wheel without the user is sound, and nothing in it is due
  have hmid := (Move.unschedule (hpending hg)).wheelSound h
  have hfree : ∀ g, Live (s.unscheduledFor user).wheel g → now < g := fun g hl => by
    have hwheel : (s.unscheduledFor user).wheel = s.wheelWithout user := (if_neg hg).symm
    rw [hwheel] at hl
    exact hlive g (of_live_wheelWithout hpending hl)
  have hslot := slot_free hmid hfree
  rw [unscheduleActivation, hcancel]
  refine ⟨failsOnly_ok, fun s₁ hs₁ => ?_⟩
  obtain rfl := Except.ok.inj hs₁
  exact ⟨failsOnly_uadd not_false, fun _ _ => ⟨failsOnly_scheduleActivation hslot,
    fun _ _ => failsOnly_ok⟩⟩

omit h in
/-- The checkpoint of a settlement, and what it leaves in the wheel. -/
theorem checked_of_checkpointWheel {current : RewardIndex → ℕ} {s' : Storage}
    (h : WheelSound now s) (hok : checkpointWheel now current s = .ok s') :
    WheelSound now s' ∧ ∀ g, Live s'.wheel g → now < g := by
  rw [h.of_checkpointWheel hok]
  exact ⟨h.checkpointed, fun g hl => lt_of_live_checkpointed hl⟩

omit h in
theorem failsOnly_consumption {α : Type} {x : Except Revert Storage} {f : Storage → α}
    (hx : FailsOnly x (¬ WheelFailure ·)) :
    FailsOnly (x >>= fun s => .ok (f s)) (¬ WheelFailure ·) :=
  failsOnly_bind.mpr ⟨hx, fun _ _ => failsOnly_ok⟩

theorem failsOnly_addPendingStock {generation unlockAt : ℕ} :
    FailsOnly (addPendingStock now user s amount generation unlockAt) (¬ WheelFailure ·) := by
  simp only [addPendingStock, failsOnly_bind, failsOnly_revertIf]
  refine ⟨failsOnly_checkpointWheel h, fun s₁ hcheck => ⟨fun _ => not_false, fun _ _ =>
    ⟨fun _ => not_false, fun _ _ => ⟨?_, fun _ _ => ⟨?_, fun _ _ => ⟨fun _ => not_false, fun _ _ => ?_⟩⟩⟩⟩⟩⟩
  · simp [nextActivationGeneration, WheelFailure]
  · simp [nextPositionUnlockAt, WheelFailure]
  · obtain ⟨h₁, hlive⟩ := checked_of_checkpointWheel h hcheck
    refine ⟨failsOnly_materializePending h₁ hlive, fun s₂ hmat => ⟨failsOnly_settleActivePosition,
      fun s₃ hsettle => ?_⟩⟩
    have hmat' : Moves now user 0 0 s₁ s₂ := moves_materializePending h₁ hmat
    have hsettle' : Moves now user 0 0 s₂ s₃ := moves_settleActivePosition hsettle
    obtain ⟨hwheel, hgen, -⟩ := settleActivePosition_frame hsettle
    -- neither of the two touches the slots
    have hslots : s₂.wheel = s₁.wheel := by
      rcases of_materializePending h₁ hmat with ⟨rfl, -⟩ | ⟨settled, -, -, -, rfl⟩
      · rfl
      · rfl
    refine failsOnly_schedulePending (hsettle'.wheelSound (hmat'.wheelSound h₁)) (fun g hl => ?_)
      fun hg => ?_
    · rw [hwheel, hslots] at hl
      exact hlive g hl
    · rw [hgen] at hg ⊢
      rw [hwheel]
      exact live_of_materializePending h₁ hmat hg

theorem failsOnly_removeStock : FailsOnly (removeStock now user s) (¬ WheelFailure ·) := by
  simp only [removeStock, failsOnly_bind, failsOnly_revertIf]
  refine ⟨failsOnly_checkpointWheel h, fun s₁ hcheck => ⟨fun _ => not_false, fun _ _ => ?_⟩⟩
  obtain ⟨h₁, hlive⟩ := checked_of_checkpointWheel h hcheck
  exact ⟨failsOnly_materializePending h₁ hlive, fun _ _ => ⟨fun _ => not_false, fun _ _ =>
    ⟨fun _ => not_false, fun _ _ => ⟨fun _ => not_false, fun _ _ => ⟨fun _ => not_false, fun _ _ =>
      ⟨failsOnly_settleActivePositionAt, fun _ _ => ⟨failsOnly_usub not_false,
        fun _ _ => failsOnly_ok⟩⟩⟩⟩⟩⟩⟩

end Failures

section External

variable {id : GaugeIdentity} {caller self : Address} {v : Immutables} {vs : State} {s : Storage}
  {user : Address} {amount : ℕ} (h : WheelSound vs.world.now s)

theorem failsOnly_onlyAllocationManager :
    FailsOnly (onlyAllocationManager id caller) (¬ WheelFailure ·) := by
  simp [onlyAllocationManager, WheelFailure]

theorem failsOnly_onlyFeeVault : FailsOnly (onlyFeeVault id caller) (¬ WheelFailure ·) := by
  simp [onlyFeeVault, WheelFailure]

theorem failsOnly_canonicalMarket {assetUid marketId : Bytes32} :
    FailsOnly (UserStockVaultIdentity.canonicalMarket v vs.world assetUid marketId)
      (¬ WheelFailure ·) := by
  simp [UserStockVaultIdentity.canonicalMarket, UserStockVaultIdentity.canonicalAsset,
    UserStockVaultIdentity.marketForAsset, MarketRegistry.market, WheelFailure]

theorem failsOnly_recordGaugeRewardState {assetUid marketId : Bytes32} {quote meme : ℕ} :
    FailsOnly (UserStockVault.recordGaugeRewardState v caller vs assetUid marketId quote meme)
      (¬ WheelFailure ·) := by
  simp only [UserStockVault.recordGaugeRewardState, UserStockVault.onlyAllocationManager,
    UserStockVaultLedger.recordGaugeRewardState, UserStockVault.recordRewardState, failsOnly_bind,
    failsOnly_revertIf]
  exact ⟨fun _ => not_false, fun _ _ => ⟨⟨failsOnly_canonicalMarket, fun _ _ => ⟨⟨fun _ => not_false,
    fun _ _ => failsOnly_ok⟩, fun _ _ => failsOnly_ok⟩⟩, fun _ _ => failsOnly_ok⟩⟩

theorem failsOnly_accumulatorIncrease {remainder activeStock : ℕ} :
    FailsOnly (accumulatorIncrease amount remainder activeStock) (¬ WheelFailure ·) := by
  simp only [accumulatorIncrease, failsOnly_bind]
  exact ⟨failsOnly_mulDiv fun _ => not_false, fun _ _ => ⟨failsOnly_uadd not_false, fun _ _ =>
    ⟨failsOnly_uadd not_false, fun _ _ => failsOnly_ok⟩⟩⟩

theorem failsOnly_managerRecord {marketId : Bytes32} {quote meme : ℕ} :
    FailsOnly (AllocationManager.recordGaugeRewardState v vs marketId self quote meme)
      (¬ WheelFailure ·) := by
  simp only [AllocationManager.recordGaugeRewardState, failsOnly_bind, failsOnly_revertIf]
  exact ⟨failsOnly_rageQuitContext, fun _ _ => ⟨fun _ => not_false,
    fun _ _ => failsOnly_recordGaugeRewardState⟩⟩

theorem failsOnly_increaseRewardAccumulator {i : RewardIndex} :
    FailsOnly (increaseRewardAccumulator id vs v self s i amount) (¬ WheelFailure ·) := by
  simp only [increaseRewardAccumulator, failsOnly_ite, failsOnly_bind, failsOnly_revertIf]
  exact ⟨fun _ => failsOnly_ok, fun _ => ⟨failsOnly_rewardEligibleActiveStock, fun _ _ =>
    ⟨fun _ => not_false, fun _ _ => ⟨failsOnly_accumulatorIncrease, fun _ _ =>
      ⟨failsOnly_uadd not_false, fun _ _ => ⟨failsOnly_managerRecord, fun _ _ => failsOnly_ok⟩⟩⟩⟩⟩⟩

include h

theorem failsOnly_checkpointRewardActivations :
    FailsOnly (checkpointRewardActivations id vs s) (¬ WheelFailure ·) := by
  refine failsOnly_bind.mpr ⟨failsOnly_reserveOrphanedRemainders, fun s₁ hreserve => ?_⟩
  have hforfeited := of_reserveOrphanedRemainders hreserve
  have hmoves : Moves vs.world.now 0 0 0 s s₁ := hforfeited.sameStock.moves
  exact failsOnly_checkpointWheel (hmoves.wheelSound h)

theorem failsOnly_settlePosition : FailsOnly (settlePosition id vs s user) (¬ WheelFailure ·) := by
  simp only [settlePosition, failsOnly_bind, failsOnly_revertIf]
  refine ⟨failsOnly_checkpointRewardActivations h, fun s₁ hcheck =>
    ⟨fun _ => not_false, fun _ _ => ?_⟩⟩
  obtain ⟨s₀, -, h₀, rfl⟩ := of_checkpointRewardActivations h hcheck
  exact ⟨failsOnly_materializePending h₀.checkpointed fun g hl => lt_of_live_checkpointed hl,
    fun _ _ => failsOnly_settleActivePosition⟩

theorem failsOnly_addPending {activationAt unlockAt : ℕ} :
    FailsOnly (addPending id caller vs s user amount activationAt unlockAt) (¬ WheelFailure ·) :=
  failsOnly_bind.mpr ⟨failsOnly_onlyAllocationManager, fun _ _ => failsOnly_addPendingStock h⟩

theorem failsOnly_removeAllocation :
    FailsOnly (removeAllocation id caller vs s user) (¬ WheelFailure ·) :=
  failsOnly_bind.mpr ⟨failsOnly_onlyAllocationManager, fun _ _ => failsOnly_removeStock h⟩

theorem failsOnly_checkpointActivations {recorded : Bool} :
    FailsOnly (checkpointActivations id vs s recorded) (¬ WheelFailure ·) :=
  failsOnly_consumption (failsOnly_checkpointRewardActivations h)

theorem failsOnly_settle : FailsOnly (settle id caller vs s user) (¬ WheelFailure ·) := by
  simp only [settle, failsOnly_bind, failsOnly_revertIf]
  exact ⟨fun _ => not_false, fun _ _ => ⟨failsOnly_requireNoRageQuitSettlement,
    fun _ _ => failsOnly_settlePosition h⟩⟩

theorem failsOnly_creditStakerFee {feeAsset : Address} {feeId : Bytes32} :
    FailsOnly (creditStakerFee id caller vs s v self feeAsset amount feeId) (¬ WheelFailure ·) := by
  have hindex : FailsOnly (rewardIndex id feeAsset) (¬ WheelFailure ·) := by
    simp [rewardIndex, WheelFailure]
  simp only [creditStakerFee, applyStakerFee, failsOnly_bind]
  exact ⟨failsOnly_onlyFeeVault, fun _ _ => ⟨failsOnly_checkpointRewardActivations h,
    fun _ _ => ⟨hindex, fun _ _ => ⟨failsOnly_increaseRewardAccumulator, fun _ _ => failsOnly_ok⟩⟩⟩⟩

theorem failsOnly_consumeClaimableAssets {assets : BitVec 8} :
    FailsOnly (consumeClaimableAssets id caller vs s user assets) (¬ WheelFailure ·) := by
  have hunlocked : FailsOnly (requireUnlocked vs s user) (¬ WheelFailure ·) := by
    simp [requireUnlocked, WheelFailure]
  simp only [consumeClaimableAssets, failsOnly_bind, failsOnly_revertIf]
  exact ⟨fun _ => not_false, fun _ _ => ⟨failsOnly_onlyFeeVault, fun _ _ =>
    ⟨failsOnly_requireNoRageQuitSettlement, fun _ _ => ⟨hunlocked, fun _ _ =>
      ⟨failsOnly_settlePosition h, fun _ _ => failsOnly_ok⟩⟩⟩⟩⟩

theorem failsOnly_materializeOrCancelPending {cutoff : RewardIndex → ℕ}
    (hlive : ∀ g, Live s.wheel g → vs.world.now < g) :
    FailsOnly (materializeOrCancelPending vs s user cutoff) (¬ WheelFailure ·) := by
  have hzero : s.generation user = 0 ↔ s.pendingAmount user = 0 := h.generation_eq_zero
  rw [materializeOrCancelPending]
  simp only [failsOnly_ite, failsOnly_bind]
  refine ⟨fun _ => failsOnly_ok, fun hp => ⟨fun hrefs => ?_, fun _ =>
    ⟨fun _ => failsOnly_materializePending h hlive, fun _ => ⟨failsOnly_usub not_false,
      fun _ _ => failsOnly_ok⟩⟩⟩⟩
  -- a pending amount without a snapshot is in the wheel
  have hg : s.generation user ≠ 0 := fun hc => hp (hzero.mp hc)
  have hl : Live s.wheel (s.generation user) :=
    not_not.mp fun hc => (h.refs_ne_zero_iff hg).mpr hc hrefs
  have hcancel : unschedule wheelErrors s.wheel (s.positions user).pendingGeneration
      (s.positions user).pendingAmount 1 = .ok (s.unscheduledFor user).wheel :=
    h.wheel.unschedule_eq hl
  rw [unscheduleActivation, hcancel]
  exact ⟨failsOnly_ok, fun _ _ => failsOnly_ok⟩

theorem failsOnly_rageQuitPosition {cutoff : RewardIndex → ℕ} :
    FailsOnly (rageQuitPosition id vs s user cutoff) (¬ WheelFailure ·) := by
  simp only [rageQuitPosition, failsOnly_bind, failsOnly_revertIf]
  refine ⟨fun _ => not_false, fun _ _ => ⟨failsOnly_checkpointRewardActivations h,
    fun s₁ hcheck => ⟨failsOnly_uadd not_false, fun _ _ => ⟨fun _ => not_false, fun _ _ => ?_⟩⟩⟩⟩
  obtain ⟨s₀, -, h₀, rfl⟩ := of_checkpointRewardActivations h hcheck
  exact ⟨failsOnly_materializeOrCancelPending h₀.checkpointed fun g hl => lt_of_live_checkpointed hl,
    fun _ _ => ⟨failsOnly_settleActivePositionAt, fun _ _ => ⟨failsOnly_usub not_false, fun _ _ =>
      ⟨failsOnly_rewardEligibleActiveStock, fun _ _ => ⟨failsOnly_forfeitReward, fun _ _ =>
        ⟨failsOnly_forfeitReward, fun _ _ => failsOnly_ok⟩⟩⟩⟩⟩⟩

theorem failsOnly_rageQuit {recorded : Bool} :
    FailsOnly (rageQuit id caller vs s user recorded) (¬ WheelFailure ·) := by
  simp only [rageQuit, failsOnly_bind, failsOnly_revertIf, failsOnly_ite]
  exact ⟨failsOnly_onlyAllocationManager, fun _ _ => ⟨failsOnly_rageQuitRewardCutoff, fun _ _ =>
    ⟨failsOnly_rageQuitPosition h, fun _ _ => ⟨fun _ => not_false, fun _ _ =>
      ⟨failsOnly_usub not_false, fun _ _ => ⟨failsOnly_uadd not_false, fun _ _ =>
        ⟨failsOnly_usub not_false, fun _ _ => ⟨failsOnly_uadd not_false, fun _ _ =>
          ⟨fun _ => failsOnly_ok, fun _ => ⟨failsOnly_deferForfeiture,
            fun _ _ => failsOnly_ok⟩⟩⟩⟩⟩⟩⟩⟩⟩⟩

end External

/-! ### How the vault fails -/

section Market

variable {now : ℕ} {m : MarketLedger} {user : Address} {amount : ℕ} (h : MarketSound now m)

include h

/-- The slot of the next generation is free, once a user is taken out of the wheel. -/
theorem slot_free_cancelled :
    ((m.cancelled now user).wheel (slotIndex _ (now + UserStockVault.rewardActivationDelay))).generation = 0 ∨
      ((m.cancelled now user).wheel
        (slotIndex _ (now + UserStockVault.rewardActivationDelay))).generation
        = now + UserStockVault.rewardActivationDelay := by
  have hwithout := h.represents_cancelled user
  refine hwithout.slot_free (by decide) fun g hl => ?_
  -- somebody else is pending at what is in the wheel
  obtain ⟨v, hv⟩ := hwithout.exists_owner hl
  rcases eq_or_ne v user with rfl | hne
  · rw [update_self] at hv
    exact absurd hv.symm hl.1
  · rw [update_of_ne hne] at hv
    refine ⟨?_, hv ▸ h.generation_le v⟩
    have hchecked : Live (m.checkpointed now).eligibility g := by
      rw [MarketLedger.cancelled] at hl
      split at hl
      · rename_i hlt
        rcases eq_or_ne g (m.account user).pendingGeneration with rfl | hgne
        · exact (h.live_checkpointed user).mpr hlt
        · exact (live_unscheduled_of_ne ((h.live_checkpointed user).mpr hlt).2 hgne).mp hl
      · exact hl
    exact (live_checkpointed.mp hchecked).2

/-- **A lock does not fail for the wheel.** -/
theorem failsOnly_lockRewardEligibility :
    FailsOnly (UserStockVault.lockRewardEligibility now m user amount) (¬ WheelFailure ·) := by
  have hcancel := h.unscheduleRewardEligibility_eq user
  have haccount : (m.checkpointed now).account = m.account := rfl
  rw [UserStockVault.lockRewardEligibility, h.checkpointRewardEligibility_eq, ok_bind]
  dsimp only
  rw [haccount, hcancel, ok_bind]
  refine failsOnly_bind.mpr ⟨?_, fun generation hgeneration => failsOnly_bind.mpr
    ⟨failsOnly_uadd not_false, fun combined hcombined => ?_⟩⟩
  · simp [UserStockVault.nextRewardActivationGeneration, WheelFailure]
  · simp only [UserStockVault.nextRewardActivationGeneration, bind_eq_ok, revertIf_eq_ok, pure_eq_ok,
      Except.ok.injEq] at hgeneration
    obtain ⟨-, -, rfl⟩ := hgeneration
    refine failsOnly_bind.mpr ⟨fun e he => ?_, fun _ _ => failsOnly_ok⟩
    rcases eq_or_ne combined 0 with rfl | hne
    · -- nothing to schedule
      rw [schedule, revertIf_pos (Or.inl rfl)] at he
      obtain rfl := Except.error.inj he
      exact not_false
    · rw [schedule_error hne (slot_free_cancelled h) he]
      exact not_false

end Market

section Vault

variable {caller : Address} {v : Immutables} {vs : State} {user : Address} {amount : ℕ}
  {assetUid marketId : Bytes32}

theorem failsOnly_canonicalAsset :
    FailsOnly (UserStockVaultIdentity.canonicalAsset v vs.world assetUid) (¬ WheelFailure ·) := by
  simp [UserStockVaultIdentity.canonicalAsset, WheelFailure]

theorem failsOnly_freeBalanceOf {l : AssetLedger} :
    FailsOnly (UserStockVaultLedger.freeBalanceOf l user) (¬ WheelFailure ·) := by
  simp [UserStockVaultLedger.freeBalanceOf, WheelFailure]

theorem failsOnly_vaultManager :
    FailsOnly (UserStockVault.onlyAllocationManager v caller) (¬ WheelFailure ·) := by
  simp [UserStockVault.onlyAllocationManager, WheelFailure]

theorem failsOnly_deposit {l : AssetLedger} :
    FailsOnly (UserStockVaultDeposits.depositStock v vs.world l assetUid user amount)
      (¬ WheelFailure ·) := by
  simp only [UserStockVaultDeposits.depositStock, UserStockVaultIdentity.activeCanonicalAsset,
    failsOnly_bind, failsOnly_revertIf, failsOnly_orRevert]
  exact ⟨fun _ => not_false, fun _ _ => ⟨fun _ => not_false, fun _ _ => ⟨⟨failsOnly_canonicalAsset,
    fun _ _ => ⟨fun _ => not_false, fun _ _ => ⟨fun _ => not_false, fun _ _ => failsOnly_ok⟩⟩⟩,
    fun _ _ => ⟨fun _ => not_false, fun _ _ => ⟨fun _ => not_false, fun _ _ => ⟨fun _ => not_false,
      fun _ _ => ⟨failsOnly_uadd not_false, fun _ _ => ⟨failsOnly_uadd not_false,
        fun _ _ => failsOnly_ok⟩⟩⟩⟩⟩⟩⟩⟩

theorem failsOnly_withdraw {l : AssetLedger} :
    FailsOnly (UserStockVaultExits.withdrawFreeStock v vs.world l assetUid user amount)
      (¬ WheelFailure ·) := by
  simp only [UserStockVaultExits.withdrawFreeStock, failsOnly_bind, failsOnly_revertIf,
    failsOnly_orRevert]
  exact ⟨fun _ => not_false, fun _ _ => ⟨failsOnly_canonicalAsset, fun _ _ =>
    ⟨failsOnly_freeBalanceOf, fun _ _ => ⟨fun _ => not_false, fun _ _ => ⟨failsOnly_usub not_false,
      fun _ _ => ⟨failsOnly_usub not_false, fun _ _ => ⟨fun _ => not_false, fun _ _ =>
        ⟨fun _ => not_false, fun _ _ => failsOnly_ok⟩⟩⟩⟩⟩⟩⟩⟩

theorem failsOnly_deallocate {l : AssetLedger} {m : MarketLedger} {account : UserStockVault.Account} :
    FailsOnly (UserStockVaultLedger.deallocate l user marketId m account amount)
      (¬ WheelFailure ·) := by
  simp only [UserStockVaultLedger.deallocate, failsOnly_bind]
  exact ⟨failsOnly_usub not_false, fun _ _ => ⟨failsOnly_usub not_false, fun _ _ =>
    ⟨failsOnly_usub not_false, fun _ _ => failsOnly_ok⟩⟩⟩

theorem failsOnly_completion {l : AssetLedger} :
    FailsOnly (UserStockVaultLedger.completeRageQuitRewardSettlement l user marketId)
      (¬ WheelFailure ·) := by
  simp [UserStockVaultLedger.completeRageQuitRewardSettlement, WheelFailure]

variable {l : AssetLedger} (h : MarketSound vs.world.now (l.market marketId))

include h

theorem failsOnly_lock :
    FailsOnly (UserStockVaultLedger.lockAllocation v vs.world l assetUid user marketId amount)
      (¬ WheelFailure ·) := by
  simp only [UserStockVaultLedger.lockAllocation, UserStockVaultLedger.validateAccountAndAmount,
    failsOnly_bind, failsOnly_revertIf]
  exact ⟨⟨fun _ => not_false, fun _ _ => fun _ => not_false⟩, fun _ _ => ⟨failsOnly_canonicalMarket,
    fun _ _ => ⟨fun _ => not_false, fun _ _ => ⟨failsOnly_freeBalanceOf, fun _ _ =>
      ⟨fun _ => not_false, fun _ _ => ⟨failsOnly_lockRewardEligibility h, fun _ _ =>
        ⟨failsOnly_uadd not_false, fun _ _ => ⟨failsOnly_uadd not_false, fun _ _ =>
          ⟨failsOnly_uadd not_false, fun _ _ => ⟨failsOnly_uadd not_false,
            fun _ _ => failsOnly_ok⟩⟩⟩⟩⟩⟩⟩⟩⟩⟩

theorem failsOnly_remove :
    FailsOnly (UserStockVault.removeRewardEligibility vs.world.now (l.market marketId) user
      ((l.market marketId).account user).allocation) (¬ WheelFailure ·) := by
  rw [h.removeRewardEligibility_eq user]
  exact failsOnly_ok

theorem failsOnly_release :
    FailsOnly (UserStockVaultLedger.releaseAllocation v vs.world l assetUid user marketId)
      (¬ WheelFailure ·) := by
  simp only [UserStockVaultLedger.releaseAllocation, failsOnly_bind, failsOnly_revertIf]
  exact ⟨fun _ => not_false, fun _ _ => ⟨failsOnly_canonicalMarket, fun _ _ => ⟨fun _ => not_false,
    fun _ _ => ⟨failsOnly_remove h, fun _ _ => ⟨failsOnly_deallocate, fun _ _ => failsOnly_ok⟩⟩⟩⟩⟩

theorem failsOnly_quit :
    FailsOnly (UserStockVaultLedger.rageQuitAllocationLedger v vs.world l assetUid user marketId)
      (¬ WheelFailure ·) := by
  simp only [UserStockVaultLedger.rageQuitAllocationLedger, failsOnly_bind, failsOnly_revertIf]
  exact ⟨fun _ => not_false, fun _ _ => ⟨fun _ => not_false, fun _ _ => ⟨failsOnly_canonicalAsset,
    fun _ _ => ⟨fun _ => not_false, fun _ _ => ⟨fun _ => not_false, fun _ _ => ⟨failsOnly_remove h,
      fun _ _ => ⟨failsOnly_deallocate, fun _ _ => failsOnly_ok⟩⟩⟩⟩⟩⟩⟩

end Vault

end MemeStockGauge

end TickerGarden
