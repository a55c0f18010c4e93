import TickerGarden.Lib.TimingWheel
import TickerGarden.Errors

/-!
# The reward eligibility of a market

What `UserStockVault` keeps for one market of an asset: the allocations of its users,
and how much of them counts for rewards. An allocation counts from thirty seconds after
it was locked, and until then it is *pending*, in a wheel of thirty-two slots. The wheel
moves lazily, before each operation, so that the stored amounts lag behind; what they
would be at a given time is `TickerGarden.UserStockVault.marketRewardEligible`.

The invariant of a market is `TickerGarden.UserStockVault.MarketSound`. It speaks of the
accounts alone: the stored totals are sums over the users, and the wheel represents
their pending amounts. In particular the eligible amount at any time is a sum over the
users, `TickerGarden.UserStockVault.MarketSound.marketRewardEligible_eq`: everything a
user has allocated, less what is still pending at that time.
-/

namespace TickerGarden

open Checked Function

namespace UserStockVault

/-- `REWARD_ACTIVATION_WHEEL_SIZE`. -/
abbrev rewardActivationWheelSize : ℕ := 32

/-- `REWARD_ACTIVATION_DELAY`: thirty seconds. -/
def rewardActivationDelay : ℕ := 30

/-- A pair of reward accumulators. -/
structure AccumulatorPair where
  quoteAccumulator : ℕ
  memeAccumulator : ℕ
deriving DecidableEq

/-- What is kept for a user in a market. -/
structure Account where
  /-- `_allocation`. -/
  allocation : ℕ
  /-- `_rewardEligibilityPositions`. -/
  pendingGeneration : ℕ
  pendingAmount : ℕ
  /-- `_rageQuitSettlementPrincipals`: the tombstone of a rage quit. -/
  settlementPrincipal : ℕ
  /-- `_rageQuitRewardCutoffs`. -/
  cutoff : AccumulatorPair

/-- What is kept for a market. -/
structure MarketLedger where
  /-- `_rewardActivationWheels`, `_storedRewardActive` and `_rewardPending`. -/
  eligibility : TimingWheel.Ledger rewardActivationWheelSize
  /-- `_rewardCohortEpochs`: a 256-bit counter that an exit increases by one, and that no
  run can exhaust. -/
  cohortEpoch : ℕ
  /-- `_latestRewardAccumulators`. -/
  latest : AccumulatorPair
  /-- `_marketAllocated`. -/
  marketAllocated : ℕ
  account : Address → Account

/-- A market nobody has used. -/
def MarketLedger.empty : MarketLedger where
  eligibility := TimingWheel.Ledger.empty _
  cohortEpoch := 0
  latest := ⟨0, 0⟩
  marketAllocated := 0
  account _ := ⟨0, 0, 0, 0, ⟨0, 0⟩⟩

/-! ### The source functions -/

/-- The errors of the wheel. -/
def wheelErrors : TimingWheel.Errors Revert where
  invalidBucket amount refs := .vault (.invalidRewardActivationBucket amount refs)
  collision slotIndex existing requested :=
    .vault (.rewardActivationSlotCollision slotIndex existing requested)
  notFound generation := .vault (.rewardActivationBucketNotFound generation)
  invalidSlot slotIndex generation amount refs :=
    .vault (.invalidRewardActivationSlot slotIndex generation amount refs)

section Source

variable (now : ℕ) (m : MarketLedger) (user : Address)

/-- `_checkpointRewardEligibility`: the vault records nothing about the slots. -/
def checkpointRewardEligibility : Except Revert MarketLedger := do
  let (eligibility, ()) ← TimingWheel.checkpoint wheelErrors (fun _ u => .ok u) now (m.eligibility, ())
  return { m with eligibility }

/-- `_materializeRewardEligibility`. -/
def materializeRewardEligibility (position : Account) : Account :=
  if position.pendingAmount ≠ 0 ∧ position.pendingGeneration ≤ now then
    { position with pendingGeneration := 0, pendingAmount := 0 }
  else position

/-- `_nextRewardActivationGeneration`. -/
def nextRewardActivationGeneration : Except Revert ℕ := do
  revertIf (now > maxUint64 - rewardActivationDelay)
    (.vault (.rewardActivationTimestampOverflow now))
  return now + rewardActivationDelay

/-- `_unscheduleRewardEligibility`, of what is pending. -/
def unscheduleRewardEligibility (position : Account) :
    Except Revert (TimingWheel.Ledger rewardActivationWheelSize) :=
  if position.pendingAmount ≠ 0 then
    TimingWheel.unschedule wheelErrors m.eligibility position.pendingGeneration
      position.pendingAmount 1
  else .ok m.eligibility

/-- `_lockRewardEligibility`: what was pending is scheduled again, with the new amount. -/
def lockRewardEligibility (amount : ℕ) : Except Revert MarketLedger := do
  let m ← checkpointRewardEligibility now m
  let position := materializeRewardEligibility now (m.account user)
  let eligibility ← unscheduleRewardEligibility m position
  let generation ← nextRewardActivationGeneration now
  let combinedPending ← uadd position.pendingAmount amount
  let eligibility ← TimingWheel.schedule wheelErrors eligibility generation combinedPending 1
  return { m with
    eligibility
    account := update m.account user
      { position with pendingGeneration := generation, pendingAmount := combinedPending } }

/-- `_removeRewardEligibility`: a removal of all that is active ends a cohort. -/
def removeRewardEligibility (allocationAmount : ℕ) : Except Revert MarketLedger := do
  let m ← checkpointRewardEligibility now m
  let position := materializeRewardEligibility now (m.account user)
  revertIf (position.pendingAmount > allocationAmount)
    (.vault (.rewardEligibilityLedgerMismatch allocationAmount position.pendingAmount))
  let eligibility ← unscheduleRewardEligibility m position
  let activeAmount := allocationAmount - position.pendingAmount
  let storedActive := eligibility.active
  revertIf (activeAmount > storedActive)
    (.vault (.rewardEligibilityLedgerMismatch storedActive activeAmount))
  return { m with
    eligibility := { eligibility with active := storedActive - activeAmount }
    cohortEpoch :=
      if activeAmount ≠ 0 ∧ activeAmount = storedActive then m.cohortEpoch + 1 else m.cohortEpoch
    account := update m.account user
      { position with pendingGeneration := 0, pendingAmount := 0 } }

/-- `_recordGaugeRewardState`: the accumulators only grow. -/
def recordRewardState (quoteAccumulator memeAccumulator : ℕ) : Except Revert MarketLedger := do
  revertIf (quoteAccumulator < m.latest.quoteAccumulator ∨ memeAccumulator < m.latest.memeAccumulator)
    (.vault (.rewardAccumulatorRegression m.latest.quoteAccumulator quoteAccumulator
      m.latest.memeAccumulator memeAccumulator))
  return { m with latest := ⟨quoteAccumulator, memeAccumulator⟩ }

/-- `_marketRewardEligible`: the active amount, with the slots that are due. -/
def marketRewardEligible : Except Revert ℕ :=
  TimingWheel.eligible now m.eligibility

end Source

/-! ### What counts, and when -/

/-- What is still pending at a time. -/
def Account.pendingAt (t : ℕ) (a : Account) : ℕ :=
  if t < a.pendingGeneration then a.pendingAmount else 0

/-- What counts for rewards at a time. -/
def Account.eligibleAt (t : ℕ) (a : Account) : ℕ := a.allocation - a.pendingAt t

/-- **The ledger of a market is sound** at a time: its totals are sums over the users,
and its wheel represents what they have pending. -/
structure MarketSound (now : ℕ) (m : MarketLedger) : Prop where
  wheel : TimingWheel.Represents m.eligibility (fun u => (m.account u).pendingGeneration)
    fun u => (m.account u).pendingAmount
  total : m.eligibility.active + m.eligibility.pending = ∑ u, (m.account u).allocation
  marketAllocated_eq : m.marketAllocated = ∑ u, (m.account u).allocation
  bounded : m.marketAllocated ≤ maxUint256
  pending_le : ∀ u, (m.account u).pendingAmount ≤ (m.account u).allocation
  settled : ∀ u, (m.account u).allocation ≠ 0 → (m.account u).settlementPrincipal = 0
  generation_le : ∀ u, (m.account u).pendingGeneration ≤ now + rewardActivationDelay
  live : ∀ u, now < (m.account u).pendingGeneration →
    TimingWheel.Live m.eligibility (m.account u).pendingGeneration

theorem marketSound_empty (now : ℕ) : MarketSound now MarketLedger.empty where
  wheel := ⟨fun _ => Or.inl rfl, (Finset.sum_const_zero).symm, fun _ => Iff.rfl⟩
  total := (Finset.sum_const_zero).symm
  marketAllocated_eq := (Finset.sum_const_zero).symm
  bounded := Nat.zero_le _
  pending_le _ := le_rfl
  settled _ h := absurd rfl h
  generation_le _ := Nat.zero_le _
  live _ h := absurd h (Nat.not_lt_zero _)

/-- The ledger after a checkpoint. -/
def MarketLedger.checkpointed (now : ℕ) (m : MarketLedger) : MarketLedger :=
  { m with eligibility := TimingWheel.checkpointed now m.eligibility }

namespace MarketSound

variable {now : ℕ} {m m' : MarketLedger} (h : MarketSound now m)

include h

/-- Time passes, and the ledger stays sound. -/
theorem mono {t : ℕ} (hle : now ≤ t) : MarketSound t m where
  wheel := h.wheel
  total := h.total
  marketAllocated_eq := h.marketAllocated_eq
  bounded := h.bounded
  pending_le := h.pending_le
  settled := h.settled
  generation_le u := (h.generation_le u).trans (Nat.add_le_add_right hle _)
  live u hu := h.live u (hle.trans_lt hu)

/-- The totals fit in a word. -/
theorem stored_le : m.eligibility.active + m.eligibility.pending ≤ maxUint256 := by
  rw [h.total, ← h.marketAllocated_eq]
  exact h.bounded

/-- **A checkpoint always goes through.** -/
theorem checkpointRewardEligibility_eq :
    checkpointRewardEligibility now m = .ok (m.checkpointed now) := by
  have hrec : (TimingWheel.dueSlots now m.eligibility (List.finRange _)).foldlM
      (fun (u : Unit) _ => (.ok u : Except Revert Unit)) () = .ok () := by
    induction TimingWheel.dueSlots now m.eligibility (List.finRange _) with
    | nil => rfl
    | cons slot slots ih => rwa [List.foldlM_cons, ok_bind]
  have hcheck : TimingWheel.checkpoint wheelErrors (fun _ u => .ok u) now (m.eligibility, ())
      = .ok (TimingWheel.checkpointed now m.eligibility, ()) := h.wheel.checkpoint_eq h.stored_le hrec
  rw [checkpointRewardEligibility, hcheck]
  rfl

/-- **A checkpoint keeps the ledger sound.** -/
theorem checkpointed : MarketSound now (m.checkpointed now) where
  wheel := h.wheel.checkpointed
  total := by
    have hle := h.wheel.dueAmount_le now
    have htotal := h.total
    rw [MarketLedger.checkpointed, TimingWheel.checkpointed]
    dsimp only
    omega
  marketAllocated_eq := h.marketAllocated_eq
  bounded := h.bounded
  pending_le := h.pending_le
  settled := h.settled
  generation_le := h.generation_le
  live u hu := TimingWheel.live_checkpointed.mpr ⟨h.live u hu, hu⟩

/-- Who is pending is in the wheel after a checkpoint, and nobody else. -/
theorem live_checkpointed (u : Address) :
    TimingWheel.Live (m.checkpointed now).eligibility (m.account u).pendingGeneration ↔
      now < (m.account u).pendingGeneration := by
  rw [MarketLedger.checkpointed, TimingWheel.live_checkpointed]
  exact ⟨And.right, fun hu => ⟨h.live u hu, hu⟩⟩

/-- What is pending after a checkpoint. -/
theorem pending_checkpointed :
    (m.checkpointed now).eligibility.pending = ∑ u, (m.account u).pendingAt now := by
  rw [h.checkpointed.wheel.pending_eq]
  refine Finset.sum_congr rfl fun u _ => ?_
  rw [Account.pendingAt]
  exact if_congr (h.live_checkpointed u) rfl rfl

omit h in
/-- What is pending at some time is part of what was pending. -/
theorem pendingAt_le_pending (t : ℕ) (a : Account) : a.pendingAt t ≤ a.pendingAmount := by
  rw [Account.pendingAt]
  split
  · exact le_rfl
  · exact Nat.zero_le _

theorem pendingAt_le (t : ℕ) (u : Address) :
    (m.account u).pendingAt t ≤ (m.account u).allocation :=
  (pendingAt_le_pending t _).trans (h.pending_le u)

/-- What is active after a checkpoint. -/
theorem active_checkpointed :
    (m.checkpointed now).eligibility.active = ∑ u, (m.account u).eligibleAt now := by
  have htotal := h.checkpointed.total
  have hpending := h.pending_checkpointed
  have hsplit : ∑ u, (m.account u).eligibleAt now + ∑ u, (m.account u).pendingAt now
      = ∑ u, (m.account u).allocation := by
    rw [← Finset.sum_add_distrib]
    exact Finset.sum_congr rfl fun u _ => Nat.sub_add_cancel (h.pendingAt_le now u)
  have haccount : (m.checkpointed now).account = m.account := rfl
  rw [haccount] at htotal
  omega

/-- What is left of a position is what is still pending. -/
theorem materializeRewardEligibility_eq (u : Address) :
    materializeRewardEligibility now (m.account u) = { m.account u with
      pendingGeneration := if now < (m.account u).pendingGeneration
        then (m.account u).pendingGeneration else 0
      pendingAmount := (m.account u).pendingAt now } := by
  have hzero := h.wheel.zero u
  rw [materializeRewardEligibility, Account.pendingAt]
  rcases eq_or_ne (m.account u).pendingAmount 0 with h0 | hne
  · -- nothing was pending
    have hnot : ¬ now < (m.account u).pendingGeneration := by
      rw [hzero.mpr h0]
      exact Nat.not_lt_zero now
    rw [if_neg fun hc => hc.1 h0, if_neg hnot, if_neg hnot]
    have hgeneration := hzero.mpr h0
    generalize m.account u = a at h0 hgeneration ⊢
    obtain ⟨_, _, _, _, _⟩ := a
    dsimp only at h0 hgeneration ⊢
    rw [h0, hgeneration]
  · by_cases hle : (m.account u).pendingGeneration ≤ now
    · rw [if_pos ⟨hne, hle⟩, if_neg (not_lt.mpr hle), if_neg (not_lt.mpr hle)]
    · rw [if_neg fun hc => hle hc.2, if_pos (not_le.mp hle), if_pos (not_le.mp hle)]

end MarketSound

/-! ### Removing and locking -/

/-- The wheel a checkpoint and the removal of a user's pending amount leave. -/
def MarketLedger.cancelled (now : ℕ) (m : MarketLedger) (user : Address) :
    TimingWheel.Ledger rewardActivationWheelSize :=
  if now < (m.account user).pendingGeneration then
    TimingWheel.unscheduled (m.checkpointed now).eligibility (m.account user).pendingGeneration
      (m.account user).pendingAmount
  else (m.checkpointed now).eligibility

/-- The ledger after the removal of all a user has. -/
def MarketLedger.removed (now : ℕ) (m : MarketLedger) (user : Address) : MarketLedger :=
  let activeAmount := (m.account user).eligibleAt now
  let storedActive := (m.checkpointed now).eligibility.active
  { m with
    eligibility := { m.cancelled now user with active := storedActive - activeAmount }
    cohortEpoch :=
      if activeAmount ≠ 0 ∧ activeAmount = storedActive then m.cohortEpoch + 1 else m.cohortEpoch
    account := update m.account user
      { m.account user with pendingGeneration := 0, pendingAmount := 0 } }

/-- The ledger after an amount is locked for a user. -/
def MarketLedger.locked (now : ℕ) (m : MarketLedger) (user : Address) (amount : ℕ) : MarketLedger :=
  { m with
    eligibility := TimingWheel.scheduled (m.cancelled now user) (now + rewardActivationDelay)
      ((m.account user).pendingAt now + amount)
    account := update m.account user
      { m.account user with
        pendingGeneration := now + rewardActivationDelay
        pendingAmount := (m.account user).pendingAt now + amount } }

/-- The account of a user for whom an amount is locked. -/
def Account.lockedAt (now : ℕ) (a : Account) (amount : ℕ) : Account :=
  { a with
    allocation := a.allocation + amount
    pendingGeneration := now + rewardActivationDelay
    pendingAmount := a.pendingAt now + amount }

/-- The ledger after an allocation is locked: the eligibility, and the allocation. -/
def MarketLedger.withLock (now : ℕ) (m : MarketLedger) (user : Address) (amount : ℕ) :
    MarketLedger :=
  { m.locked now user amount with
    marketAllocated := m.marketAllocated + amount
    account := update m.account user ((m.account user).lockedAt now amount) }

/-- The ledger after an allocation is removed, and the account of the user is another. -/
def MarketLedger.withRemoval (now : ℕ) (m : MarketLedger) (user : Address) (account : Account) :
    MarketLedger :=
  { m.removed now user with
    marketAllocated := m.marketAllocated - (m.account user).allocation
    account := update m.account user account }

/-- The account of a user whose settlement is complete. -/
def Account.settled (a : Account) : Account :=
  { a with settlementPrincipal := 0, cutoff := ⟨0, 0⟩ }

/-- The ledger after the settlement of a user is complete. -/
def MarketLedger.completed (m : MarketLedger) (user : Address) : MarketLedger :=
  { m with account := update m.account user (m.account user).settled }

section Accounts

variable {now : ℕ} {m : MarketLedger} {user u : Address} {amount : ℕ} {account : Account}

@[simp] theorem withLock_account_self :
    (m.withLock now user amount).account user = (m.account user).lockedAt now amount :=
  update_self ..

theorem withLock_account_of_ne (hu : u ≠ user) :
    (m.withLock now user amount).account u = m.account u :=
  update_of_ne hu ..

@[simp] theorem withRemoval_account_self :
    (m.withRemoval now user account).account user = account :=
  update_self ..

theorem withRemoval_account_of_ne (hu : u ≠ user) :
    (m.withRemoval now user account).account u = m.account u :=
  update_of_ne hu ..

@[simp] theorem completed_account_self :
    (m.completed user).account user = (m.account user).settled :=
  update_self ..

theorem completed_account_of_ne (hu : u ≠ user) : (m.completed user).account u = m.account u :=
  update_of_ne hu ..

end Accounts

/-- An account nothing is allocated to. -/
structure Account.Vacant (a : Account) : Prop where
  allocation : a.allocation = 0
  pendingGeneration : a.pendingGeneration = 0
  pendingAmount : a.pendingAmount = 0

/-- The account of a user that is released. -/
def Account.released (a : Account) : Account :=
  { a with allocation := 0, pendingGeneration := 0, pendingAmount := 0 }

/-- The account of a user that has quit: a tombstone, under the accumulators of the
time. -/
def Account.quit (a : Account) (latest : AccumulatorPair) : Account where
  allocation := 0
  pendingGeneration := 0
  pendingAmount := 0
  settlementPrincipal := a.allocation
  cutoff := latest

theorem Account.vacant_released (a : Account) : a.released.Vacant := ⟨rfl, rfl, rfl⟩

theorem Account.vacant_quit (a : Account) (latest : AccumulatorPair) : (a.quit latest).Vacant :=
  ⟨rfl, rfl, rfl⟩

namespace MarketSound

variable {now : ℕ} {m m' : MarketLedger} (h : MarketSound now m) (user : Address)

include h

variable {user} in
/-- A pending amount is there as long as its time has not come. -/
theorem pendingAt_eq_zero : (m.account user).pendingAt now = 0 ↔
    ¬ now < (m.account user).pendingGeneration := by
  rw [Account.pendingAt]
  split
  · rename_i hlt
    refine iff_of_false (fun hc => ?_) (not_not.mpr hlt)
    have hzero : (m.account user).pendingGeneration = 0 := (h.wheel.zero user).mpr hc
    omega
  · rename_i hlt
    exact iff_of_true rfl hlt

/-- **A pending amount can always be taken out of the wheel.** -/
theorem unscheduleRewardEligibility_eq :
    unscheduleRewardEligibility (m.checkpointed now)
      (materializeRewardEligibility now (m.account user)) = .ok (m.cancelled now user) := by
  rw [h.materializeRewardEligibility_eq, unscheduleRewardEligibility, MarketLedger.cancelled]
  dsimp only
  by_cases hlt : now < (m.account user).pendingGeneration
  · have hpending : (m.account user).pendingAt now = (m.account user).pendingAmount := if_pos hlt
    rw [if_pos (by rw [Ne, h.pendingAt_eq_zero]; exact not_not.mpr hlt), if_pos hlt, if_pos hlt,
      hpending]
    exact h.checkpointed.wheel.unschedule_eq (E := wheelErrors) ((h.live_checkpointed user).mpr hlt)
  · rw [if_neg (not_not.mpr (h.pendingAt_eq_zero.mpr hlt)), if_neg hlt]

omit h in
/-- The active amount does not change when a pending one is taken out. -/
theorem active_cancelled :
    (m.cancelled now user).active = (m.checkpointed now).eligibility.active := by
  rw [MarketLedger.cancelled]
  split <;> rfl

/-- What is left in the wheel. -/
theorem pending_cancelled : (m.cancelled now user).pending + (m.account user).pendingAt now
    = (m.checkpointed now).eligibility.pending := by
  have hle := Sums.le_sum (fun u => (m.account u).pendingAt now) user
  rw [← h.pending_checkpointed] at hle
  rw [MarketLedger.cancelled]
  by_cases hlt : now < (m.account user).pendingGeneration
  · have hpending : (m.account user).pendingAt now = (m.account user).pendingAmount := if_pos hlt
    rw [if_pos hlt, TimingWheel.unscheduled]
    dsimp only at hle ⊢
    omega
  · rw [if_neg hlt, h.pendingAt_eq_zero.mpr hlt, Nat.add_zero]

/-- What a user has that counts is part of what is active. -/
theorem eligibleAt_le_active :
    (m.account user).eligibleAt now ≤ (m.checkpointed now).eligibility.active := by
  rw [h.active_checkpointed]
  exact Sums.le_sum (fun u => (m.account u).eligibleAt now) user

/-- The wheel represents the users without the one whose pending amount is taken out. -/
theorem wheel_cancelled {gen amt : Address → ℕ}
    (hgen : ∀ v, v ≠ user → gen v = (m.account v).pendingGeneration)
    (hamt : ∀ v, v ≠ user → amt v = (m.account v).pendingAmount) (hgen0 : gen user = 0)
    (hamt0 : amt user = 0) : TimingWheel.Represents (m.cancelled now user) gen amt := by
  rw [MarketLedger.cancelled]
  split
  · rename_i hlt
    exact h.checkpointed.wheel.unscheduled ((h.live_checkpointed user).mpr hlt) hgen hamt hgen0 hamt0
  · rename_i hlt
    exact h.checkpointed.wheel.forget (fun hl => hlt ((h.live_checkpointed user).mp hl)) hgen hamt
      hgen0 hamt0

/-- Who else is pending stays in the wheel. -/
theorem live_cancelled {v : Address} (hv : v ≠ user)
    (hlt : now < (m.account v).pendingGeneration) :
    TimingWheel.Live (m.cancelled now user) (m.account v).pendingGeneration := by
  rw [MarketLedger.cancelled]
  have hlive := (h.live_checkpointed v).mpr hlt
  split
  · rename_i hltu
    exact h.checkpointed.wheel.live_unscheduled ((h.live_checkpointed user).mpr hltu) hv hlive
  · exact hlive

/-- **A removal always goes through.** -/
theorem removeRewardEligibility_eq :
    removeRewardEligibility now m user (m.account user).allocation = .ok (m.removed now user) := by
  have hle := h.pendingAt_le now user
  have hactive : (m.account user).allocation - (m.account user).pendingAt now
      ≤ (m.checkpointed now).eligibility.active := h.eligibleAt_le_active user
  have hposition := h.materializeRewardEligibility_eq user
  have hcancel := h.unscheduleRewardEligibility_eq user
  have haccount : (m.checkpointed now).account = m.account := rfl
  have hamount : (materializeRewardEligibility now (m.account user)).pendingAmount
      = (m.account user).pendingAt now := by rw [hposition]
  rw [removeRewardEligibility, h.checkpointRewardEligibility_eq, ok_bind]
  dsimp only
  rw [haccount, hamount, revertIf_neg (not_lt.mpr hle), ok_bind, hcancel, ok_bind,
    active_cancelled user, revertIf_neg (not_lt.mpr hactive), ok_bind, hposition]
  rfl

/-- **One user's account is replaced**: what the rest of the ledger has to do for it to
stay sound. -/
theorem replaced {user : Address} (hother : ∀ v, v ≠ user → m'.account v = m.account v)
    (hwheel : TimingWheel.Represents m'.eligibility (fun u => (m'.account u).pendingGeneration)
      fun u => (m'.account u).pendingAmount)
    (htotal : m'.eligibility.active + m'.eligibility.pending + (m.account user).allocation
      = m.eligibility.active + m.eligibility.pending + (m'.account user).allocation)
    (hmarket : m'.marketAllocated + (m.account user).allocation
      = m.marketAllocated + (m'.account user).allocation)
    (hbounded : m'.marketAllocated ≤ maxUint256)
    (hpending : (m'.account user).pendingAmount ≤ (m'.account user).allocation)
    (hsettled : (m'.account user).allocation ≠ 0 → (m'.account user).settlementPrincipal = 0)
    (hgeneration : (m'.account user).pendingGeneration ≤ now + rewardActivationDelay)
    (hlive : ∀ u, now < (m'.account u).pendingGeneration →
      TimingWheel.Live m'.eligibility (m'.account u).pendingGeneration) :
    MarketSound now m' := by
  have hsum := Sums.sum_of_eq_off (fun u => (m.account u).allocation)
    (fun u => (m'.account u).allocation) fun v hv => by rw [hother v hv]
  have htotal₀ := h.total
  have hmarket₀ := h.marketAllocated_eq
  refine ⟨hwheel, by omega, by omega, hbounded, fun u => ?_, fun u hu => ?_, fun u => ?_, hlive⟩
  · rcases eq_or_ne u user with rfl | hne
    · exact hpending
    · rw [hother u hne]
      exact h.pending_le u
  · rcases eq_or_ne u user with rfl | hne
    · exact hsettled hu
    · rw [hother u hne] at hu ⊢
      exact h.settled u hu
  · rcases eq_or_ne u user with rfl | hne
    · exact hgeneration
    · rw [hother u hne]
      exact h.generation_le u

/-- **A removal keeps the ledger sound**, once the allocation is gone too. -/
theorem withRemoval {account : Account} (hvacant : account.Vacant) :
    MarketSound now (m.withRemoval now user account) := by
  have hother : ∀ v, v ≠ user → (m.withRemoval now user account).account v = m.account v :=
    fun v hv => withRemoval_account_of_ne hv
  have hself : (m.withRemoval now user account).account user = account := withRemoval_account_self
  have hle := Sums.le_sum (fun u => (m.account u).allocation) user
  rw [← h.marketAllocated_eq] at hle
  have hmarket : (m.withRemoval now user account).marketAllocated
      = m.marketAllocated - (m.account user).allocation := rfl
  refine h.replaced hother ?_ ?_ ?_ ?_ ?_ ?_ ?_ fun u hu => ?_
  · exact (h.wheel_cancelled user (fun v hv => by rw [hother v hv])
      (fun v hv => by rw [hother v hv]) (by rw [hself, hvacant.pendingGeneration])
      (by rw [hself, hvacant.pendingAmount])).congr rfl rfl
  · have htotal := h.checkpointed.total
    have hpending := h.pending_cancelled user
    have hactive : (m.account user).allocation - (m.account user).pendingAt now
        ≤ (m.checkpointed now).eligibility.active := h.eligibleAt_le_active user
    have hpending_le := h.pendingAt_le now user
    have hsame : (m.checkpointed now).account = m.account := rfl
    have hactive' : (m.withRemoval now user account).eligibility.active
        = (m.checkpointed now).eligibility.active
          - ((m.account user).allocation - (m.account user).pendingAt now) := rfl
    have hpending' : (m.withRemoval now user account).eligibility.pending
        = (m.cancelled now user).pending := rfl
    rw [hsame, ← h.total] at htotal
    rw [hself, hvacant.allocation]
    omega
  · rw [hself, hvacant.allocation]
    omega
  · rw [hmarket]
    exact (Nat.sub_le _ _).trans h.bounded
  · rw [hself, hvacant.allocation, hvacant.pendingAmount]
  · intro hne
    rw [hself] at hne
    exact absurd hvacant.allocation hne
  · rw [hself, hvacant.pendingGeneration]
    exact Nat.zero_le _
  · rcases eq_or_ne u user with rfl | hne
    · rw [hself, hvacant.pendingGeneration] at hu
      exact absurd hu (Nat.not_lt_zero _)
    · rw [hother u hne] at hu ⊢
      exact h.live_cancelled user hne hu

/-- **A lock that goes through** schedules all that is pending, with the new amount. -/
theorem of_lockRewardEligibility {amount : ℕ}
    (hok : lockRewardEligibility now m user amount = .ok m') :
    now + rewardActivationDelay ≤ maxUint64 ∧ (m.account user).pendingAt now + amount ≠ 0 ∧
      (((m.cancelled now user).wheel
          (TimingWheel.slotIndex _ (now + rewardActivationDelay))).generation = 0 ∨
        ((m.cancelled now user).wheel
          (TimingWheel.slotIndex _ (now + rewardActivationDelay))).generation
            = now + rewardActivationDelay) ∧
      m' = m.locked now user amount := by
  have hposition := h.materializeRewardEligibility_eq user
  have hcancel := h.unscheduleRewardEligibility_eq user
  have haccount : (m.checkpointed now).account = m.account := rfl
  have hamount : (materializeRewardEligibility now (m.account user)).pendingAmount
      = (m.account user).pendingAt now := by rw [hposition]
  rw [lockRewardEligibility, h.checkpointRewardEligibility_eq, ok_bind] at hok
  dsimp only at hok
  rw [haccount, hcancel, ok_bind, hamount] at hok
  simp only [nextRewardActivationGeneration, bind_eq_ok, revertIf_eq_ok, uadd_eq_ok, pure_eq_ok,
    Except.ok.injEq, not_lt] at hok
  obtain ⟨_, ⟨-, htime, rfl⟩, _, ⟨-, rfl⟩, eligibility, hschedule, rfl⟩ := hok
  obtain ⟨hne, hslot, -, rfl⟩ := TimingWheel.of_schedule hschedule
  refine ⟨?_, hne, hslot, ?_⟩
  · have : rewardActivationDelay ≤ maxUint64 := by decide
    omega
  · rw [hposition]
    rfl

/-- The wheel without the user represents the others. -/
theorem represents_cancelled : TimingWheel.Represents (m.cancelled now user)
    (update (fun v => (m.account v).pendingGeneration) user 0)
    (update (fun v => (m.account v).pendingAmount) user 0) :=
  h.wheel_cancelled user (fun v hv => update_of_ne hv _ _) (fun v hv => update_of_ne hv _ _)
    (update_self ..) (update_self ..)

/-- **A lock keeps the ledger sound**, once the allocation is there too. -/
theorem withLock {amount : ℕ} (hok : lockRewardEligibility now m user amount = .ok m')
    (hsettled : (m.account user).settlementPrincipal = 0)
    (hbounded : m.marketAllocated + amount ≤ maxUint256) :
    MarketSound now (m.withLock now user amount) := by
  obtain ⟨-, hne, hslot, -⟩ := h.of_lockRewardEligibility user hok
  have hother : ∀ v, v ≠ user → (m.withLock now user amount).account v = m.account v :=
    fun v hv => withLock_account_of_ne hv
  have hself : (m.withLock now user amount).account user = (m.account user).lockedAt now amount :=
    withLock_account_self
  have hdelay : now < now + rewardActivationDelay := Nat.lt_add_of_pos_right (by decide)
  have heligibility : (m.withLock now user amount).eligibility
      = TimingWheel.scheduled (m.cancelled now user) (now + rewardActivationDelay)
          ((m.account user).pendingAt now + amount) := rfl
  -- the wheel without the user, who then joins it with the new generation
  have hwithout := h.represents_cancelled user
  refine h.replaced hother ?_ ?_ ?_ hbounded ?_ ?_ ?_ fun u hu => ?_
  · refine hwithout.scheduled (u := user) (update_self ..)
      (fun v hv => ?_) (fun v hv => ?_) ?_ ?_ (by omega) hne hslot fun v hv => ?_
    · rw [hother v hv, update_of_ne hv]
    · rw [hother v hv, update_of_ne hv]
    · rw [hself]
      rfl
    · rw [hself]
      rfl
    · -- whoever has this generation is pending
      rcases eq_or_ne v user with rfl | hvne
      · rw [update_self] at hv
        omega
      · rw [update_of_ne hvne] at hv
        rw [← hv]
        exact h.live_cancelled user hvne (by omega)
  · have htotal := h.checkpointed.total
    have hpending := h.pending_cancelled user
    have hactive : (m.cancelled now user).active = (m.checkpointed now).eligibility.active :=
      active_cancelled user
    have hpending_le := h.pendingAt_le now user
    have hsame : (m.checkpointed now).account = m.account := rfl
    have hactive' : (m.withLock now user amount).eligibility.active = (m.cancelled now user).active :=
      rfl
    have hpending' : (m.withLock now user amount).eligibility.pending
        = (m.cancelled now user).pending + ((m.account user).pendingAt now + amount) := rfl
    have hallocation : ((m.account user).lockedAt now amount).allocation
        = (m.account user).allocation + amount := rfl
    rw [hsame, ← h.total] at htotal
    rw [hself, hallocation]
    omega
  · rw [hself, Account.lockedAt, MarketLedger.withLock]
    dsimp only
    omega
  · have hle := h.pendingAt_le now user
    rw [hself, Account.lockedAt]
    dsimp only
    omega
  · rw [hself]
    exact fun _ => hsettled
  · rw [hself, Account.lockedAt]
  · rw [heligibility, TimingWheel.live_scheduled (by omega) hslot]
    rcases eq_or_ne u user with rfl | hune
    · rw [hself]
      exact Or.inr rfl
    · rw [hother u hune] at hu ⊢
      exact Or.inl (h.live_cancelled user hune hu)

/-- Removing a tombstone keeps the ledger sound. -/
theorem completed : MarketSound now (m.completed user) := by
  have hother : ∀ v, v ≠ user → (m.completed user).account v = m.account v :=
    fun v hv => completed_account_of_ne hv
  have hself : (m.completed user).account user = (m.account user).settled := completed_account_self
  -- the pending amounts are the same
  have hgeneration : ∀ v, ((m.completed user).account v).pendingGeneration
      = (m.account v).pendingGeneration := fun v => by
    rcases eq_or_ne v user with rfl | hne
    · rw [hself]
      rfl
    · rw [hother v hne]
  have hamount : ∀ v, ((m.completed user).account v).pendingAmount = (m.account v).pendingAmount :=
    fun v => by
      rcases eq_or_ne v user with rfl | hne
      · rw [hself]
        rfl
      · rw [hother v hne]
  refine h.replaced hother ?_ ?_ ?_ h.bounded ?_ ?_ ?_ fun u hu => ?_
  · rw [funext hgeneration, funext hamount]
    exact h.wheel.congr rfl rfl
  · rw [hself]
    rfl
  · rw [hself]
    rfl
  · rw [hself]
    exact h.pending_le user
  · rw [hself]
    exact fun _ => rfl
  · rw [hself]
    exact h.generation_le user
  · rw [hgeneration u] at hu ⊢
    exact h.live u hu

/-- Recording the accumulators keeps the ledger sound. -/
theorem recorded {quoteAccumulator memeAccumulator : ℕ}
    (hok : recordRewardState m quoteAccumulator memeAccumulator = .ok m') :
    m.latest.quoteAccumulator ≤ quoteAccumulator ∧ m.latest.memeAccumulator ≤ memeAccumulator ∧
      m' = { m with latest := ⟨quoteAccumulator, memeAccumulator⟩ } ∧ MarketSound now m' := by
  simp only [recordRewardState, bind_eq_ok, revertIf_eq_ok, pure_eq_ok, Except.ok.injEq, not_or,
    not_lt] at hok
  obtain ⟨-, ⟨hquote, hmeme⟩, rfl⟩ := hok
  exact ⟨hquote, hmeme, rfl, h.wheel, h.total, h.marketAllocated_eq, h.bounded, h.pending_le,
    h.settled, h.generation_le, h.live⟩

end MarketSound

end UserStockVault

end TickerGarden
