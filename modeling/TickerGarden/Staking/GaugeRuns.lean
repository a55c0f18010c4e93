import TickerGarden.Staking.GaugeMoves

/-!
# The functions of a gauge, as runs of moves

What each function of a gauge does when it goes through: it is a run of moves of one user
(`Moves`), and the stock of that user grows by what enters in the run less what leaves
(`Moves.stock_eq`). No other user is touched (`Moves.positions_of_ne`).

Giving a reward up, or keeping it back, changes neither the wheel nor a position nor what a
share has earned (`Forfeited`), and this composes in the same way. The external functions are
then put together from these: one that checkpoints the wheel first and goes on with the position
of the user is the composition of the two runs.
-/

namespace TickerGarden

open Checked TimingWheel Function

namespace MemeStockGauge

open UserStockVault (Immutables State)

/-! ### Runs -/

/-- **A run of moves** for a user: what enters its stock in it, and what leaves it. -/
def Moves (now : ℕ) (user : Address) (entered left : ℕ) (s s' : Storage) : Prop :=
  ∃ flows, Transition.Run (Move now user) s flows s' ∧ (flows.map Flow.entered).sum = entered ∧
    (flows.map Flow.left).sum = left

namespace Moves

variable {now : ℕ} {user v : Address} {a b c d : ℕ} {s t u : Storage}

theorem refl (s : Storage) : Moves now user 0 0 s s := ⟨[], .refl s, rfl, rfl⟩

theorem single {flow : Flow} (k : Move now user s flow t) :
    Moves now user flow.entered flow.left s t :=
  ⟨[flow], .single k, List.sum_singleton, List.sum_singleton⟩

theorem trans (h : Moves now user a b s t) (k : Moves now user c d t u) :
    Moves now user (a + c) (b + d) s u := by
  obtain ⟨fs, hrun, rfl, rfl⟩ := h
  obtain ⟨gs, hrun', rfl, rfl⟩ := k
  refine ⟨fs ++ gs, hrun.append hrun', ?_, ?_⟩
  · rw [List.map_append, List.sum_append]
  · rw [List.map_append, List.sum_append]

/-- Moves through which nothing enters or leaves. -/
theorem trans_keep (h : Moves now user a b s t) (k : Moves now user 0 0 t u) :
    Moves now user a b s u := h.trans k

theorem keep_trans (h : Moves now user 0 0 s t) (k : Moves now user a b t u) :
    Moves now user a b s u := by
  have := h.trans k
  rwa [Nat.zero_add, Nat.zero_add] at this

section Results

variable (k : Moves now user a b s t)

include k

theorem wheelSound (h : WheelSound now s) : WheelSound now t := by
  obtain ⟨flows, hrun, -⟩ := k
  exact hrun.invariant (fun _ _ _ h k => k.wheelSound h) h

theorem historySound (h : WheelSound now s) (hh : HistorySound now s) : HistorySound now t := by
  obtain ⟨flows, hrun, -⟩ := k
  have hboth := hrun.invariant (I := fun s => WheelSound now s ∧ HistorySound now s)
    (fun _ _ _ h k => ⟨k.wheelSound h.1, h.2.move h.1 k⟩) ⟨h, hh⟩
  exact hboth.2

theorem positions_of_ne (hv : v ≠ user) : t.positions v = s.positions v := by
  obtain ⟨flows, hrun, -⟩ := k
  exact hrun.invariant (I := fun x => x.positions v = s.positions v)
    (fun _ _ _ h k => (k.positions_of_ne hv).trans h) rfl

/-- **What a user has** changes by what enters and leaves. -/
theorem stock_eq : t.stock user + b = s.stock user + a := by
  obtain ⟨flows, hrun, rfl, rfl⟩ := k
  refine hrun.invariant_history (I := fun flows x => x.stock user + (flows.map Flow.left).sum
    = s.stock user + (flows.map Flow.entered).sum) (fun flows x flow y h k => ?_) rfl
  have hmove := k.stock_eq
  rw [List.map_append, List.sum_append, List.map_append, List.sum_append, List.map_singleton,
    List.map_singleton, List.sum_singleton, List.sum_singleton]
  omega

/-- What the others have does not change. -/
theorem stock_of_ne (hv : v ≠ user) : t.stock v = s.stock v := by
  rw [Storage.stock, Storage.activeAmount, Storage.pendingAmount, k.positions_of_ne hv]
  rfl

end Results

end Moves

/-! ### Forfeiture -/

/-- **Only what is forfeited changes**, and the remainders shrink. -/
structure Forfeited (s s' : Storage) : Prop where
  wheel : s'.wheel = s.wheel
  snapshots : s'.snapshots = s.snapshots
  positions : s'.positions = s.positions
  log : s'.log = s.log
  accumulators : s'.accumulators = s.accumulators
  remainder_le : ∀ i, (s'.rewardStates i).indexRemainder ≤ (s.rewardStates i).indexRemainder

namespace Forfeited

variable {s t u : Storage}

theorem trans (h : Forfeited s t) (k : Forfeited t u) : Forfeited s u where
  wheel := k.wheel.trans h.wheel
  snapshots := k.snapshots.trans h.snapshots
  positions := k.positions.trans h.positions
  log := k.log.trans h.log
  accumulators := k.accumulators.trans h.accumulators
  remainder_le i := (k.remainder_le i).trans (h.remainder_le i)

theorem sameStock (h : Forfeited s t) : SameStock s t where
  wheel := h.wheel
  snapshots := h.snapshots
  positions := h.positions
  processed := by rw [Storage.processed, h.log, Storage.processed]
  materialized := by rw [Storage.materialized, h.log, Storage.materialized]
  accumulators_le i := by rw [h.accumulators]

end Forfeited

section Functions

variable {id : GaugeIdentity} {vs : State} {s s' : Storage} {i : RewardIndex} {user : Address}
  {now amount fee remainder : ℕ} {absorb : Bool} {current : RewardIndex → ℕ}

theorem of_collectForfeitedReward
    (hok : collectForfeitedReward s i fee remainder absorb = .ok (s', amount)) : Forfeited s s' := by
  simp only [collectForfeitedReward, bind_eq_ok, revertIf_eq_ok, uadd_eq_ok, pure_eq_ok,
    Except.ok.injEq, Prod.mk.injEq] at hok
  obtain ⟨-, -, _, -, _, -, _, -, _, -, rfl, -⟩ := hok
  refine ⟨rfl, rfl, rfl, rfl, funext fun j => ?_, fun j => ?_⟩
  · rw [Storage.accumulators, Storage.accumulators]
    dsimp only
    rcases eq_or_ne j i with rfl | hne
    · rw [update_self]
    · rw [update_of_ne hne]
  · dsimp only
    rcases eq_or_ne j i with rfl | hne
    · rw [update_self]
      dsimp only
      split
      · exact Nat.zero_le _
      · exact le_rfl
    · rw [update_of_ne hne]

theorem of_deferForfeiture {amount : RewardIndex → ℕ} (hok : deferForfeiture s amount = .ok s') :
    Forfeited s s' := by
  simp only [deferForfeiture, bind_eq_ok, uadd_eq_ok, pure_eq_ok, Except.ok.injEq] at hok
  obtain ⟨_, -, _, -, rfl⟩ := hok
  exact ⟨rfl, rfl, rfl, rfl, rfl, fun _ => le_rfl⟩

theorem of_reserveRemainders (hok : reserveRemainders s = .ok s') : Forfeited s s' := by
  simp only [reserveRemainders, bind_eq_ok, Prod.exists] at hok
  obtain ⟨s₁, _, hquote, s₂, _, hmeme, hok⟩ := hok
  have hboth := (of_collectForfeitedReward hquote).trans (of_collectForfeitedReward hmeme)
  split at hok
  · rwa [← Except.ok.inj hok]
  · exact hboth.trans (of_deferForfeiture hok)

theorem of_reserveOrphanedRemainders (hok : reserveOrphanedRemainders id vs s = .ok s') :
    Forfeited s s' := by
  simp only [reserveOrphanedRemainders, bind_eq_ok] at hok
  obtain ⟨epoch, -, hok⟩ := hok
  have hobserved : Forfeited s { s with observedRewardCohortEpoch := epoch } :=
    ⟨rfl, rfl, rfl, rfl, rfl, fun _ => le_rfl⟩
  split at hok
  · exact hobserved.trans (of_reserveRemainders hok)
  · simp only [bind_eq_ok] at hok
    obtain ⟨eligible, -, hok⟩ := hok
    split at hok
    · rwa [← Except.ok.inj hok]
    · exact hobserved.trans (of_reserveRemainders hok)

/-! ### Settlement -/

/-- **A settlement of rewards** goes through for both assets, and touches nothing else. -/
theorem settleRewards_eq_ok {p p' : GaugePosition}
    {settle : RewardIndex → GaugeUserReward → Except Revert GaugeUserReward} :
    settleRewards p settle = .ok p' ↔
      (∀ i, settle i (p.rewards i) = .ok (p'.rewards i)) ∧ p' = { p with rewards := p'.rewards } := by
  simp only [settleRewards, bind_eq_ok, pure_eq_ok, Except.ok.injEq]
  constructor
  · rintro ⟨quote, hquote, meme, hmeme, rfl⟩
    refine ⟨fun i => ?_, rfl⟩
    cases i with
    | quote => exact hquote
    | meme => exact hmeme
  · rintro ⟨hsettle, hp⟩
    refine ⟨_, hsettle .quote, _, hsettle .meme, ?_⟩
    rw [hp]
    congr 1
    funext i
    cases i with
    | quote => rfl
    | meme => rfl

theorem of_settleActivePosition (hok : settleActivePosition user s = .ok s') :
    ∃ p, settleActivePositionAt (s.positions user) s.accumulators = .ok p ∧
      s' = s.setPosition user { s.positions user with rewards := p.rewards } := by
  simp only [settleActivePosition, bind_eq_ok, pure_eq_ok, Except.ok.injEq] at hok
  obtain ⟨p, hsettle, rfl⟩ := hok
  refine ⟨p, hsettle, ?_⟩
  rw [← (settleRewards_eq_ok.mp hsettle).2]

/-! ### What the functions do -/

variable (h : WheelSound now s)

include h

theorem of_materializePending (hok : materializePending now user current s = .ok s') :
    (s' = s ∧ (s.generation user ≠ 0 → Live s.wheel (s.generation user))) ∨
      ∃ settled, s.generation user ≠ 0 ∧ (s.snapshots (s.generation user)).refs ≠ 0 ∧
        settleMaterializingPosition (s.positions user) (s.snapshots (s.generation user)) current
          = .ok settled ∧ s' = s.materializedWith user settled := by
  have hzero : s.generation user = 0 ↔ s.pendingAmount user = 0 := h.generation_eq_zero
  rw [materializePending] at hok
  dsimp only at hok
  split at hok
  · rename_i hp
    simp only [bind_eq_ok, revertIf_eq_ok, pure_eq_ok, Except.ok.injEq] at hok
    obtain ⟨-, -, rfl⟩ := hok
    exact Or.inl ⟨rfl, fun hg => absurd (hzero.mpr hp) hg⟩
  · rename_i hp
    have hg : (s.positions user).pendingGeneration ≠ 0 := fun hc => hp (hzero.mp hc)
    rw [revertIf_neg hg, ok_bind] at hok
    split at hok
    · rename_i hrefs
      simp only [bind_eq_ok, revertIf_eq_ok, pure_eq_ok, Except.ok.injEq] at hok
      obtain ⟨-, -, rfl⟩ := hok
      exact Or.inl ⟨rfl, fun _ => not_not.mp fun hl => (h.refs_ne_zero_iff hg).mpr hl hrefs⟩
    · rename_i hrefs
      simp only [bind_eq_ok, uadd_eq_ok, pure_eq_ok, Except.ok.injEq] at hok
      obtain ⟨settled, hsettle, _, ⟨-, rfl⟩, rfl⟩ := hok
      exact Or.inr ⟨settled, hg, hrefs, hsettle, rfl⟩

omit h in
/-- A checkpoint leaves nothing in the wheel that is due. -/
theorem lt_of_live_checkpointed {g : ℕ} (hl : Live (s.checkpointed now current).wheel g) : now < g :=
  (live_checkpointed.mp hl).2

theorem moves_checkpointWheel (hok : checkpointWheel now s.accumulators s = .ok s') :
    Moves now user 0 0 s s' := by
  rw [h.of_checkpointWheel hok]
  exact .single (.checkpoint s)

theorem moves_materializePending (hok : materializePending now user current s = .ok s') :
    Moves now user 0 0 s s' := by
  rcases of_materializePending h hok with ⟨rfl, -⟩ | ⟨settled, hg, hrefs, hsettle, rfl⟩
  · exact .refl s'
  · exact .single (.materialize hg hrefs hsettle)

omit h in
theorem moves_settleActivePosition (hok : settleActivePosition user s = .ok s') :
    Moves now user 0 0 s s' := by
  obtain ⟨p, -, rfl⟩ := of_settleActivePosition hok
  exact .single (.rewards p.rewards)

omit h in
theorem of_scheduleActivation {generation : ℕ}
    (hok : scheduleActivation now s generation amount = .ok s') :
    amount ≠ 0 ∧ generation = now + activationDelay ∧
      ((s.wheel.wheel (slotIndex _ generation)).generation = 0 ∨
        (s.wheel.wheel (slotIndex _ generation)).generation = generation) ∧
      s' = { s with wheel := scheduled s.wheel generation amount } := by
  simp only [scheduleActivation, nextActivationGeneration, bind_eq_ok, revertIf_eq_ok, pure_eq_ok,
    Except.ok.injEq, not_not] at hok
  obtain ⟨_, hamount, _, ⟨_, -, rfl⟩, _, hg, wheel, hschedule, rfl⟩ := hok
  obtain ⟨-, hslot, -, rfl⟩ := of_schedule hschedule
  exact ⟨hamount, hg, hslot, rfl⟩

/-- **Scheduling a pending amount**, with what was pending. -/
theorem of_schedulePending {generation unlockAt : ℕ} (hamount : amount ≠ 0)
    (hlive : s.generation user ≠ 0 → Live s.wheel (s.generation user))
    (hok : schedulePending now user s amount generation unlockAt = .ok s') :
    Move now user s (.enter amount) s' ∧ s' = s.scheduledFor user now amount unlockAt := by
  have hzero : s.generation user = 0 ↔ s.pendingAmount user = 0 := h.generation_eq_zero
  -- the slot is free, and the storage is the expected one
  suffices hboth : (((s.wheelWithout user).wheel (slotIndex _ (now + activationDelay))).generation = 0 ∨
      ((s.wheelWithout user).wheel (slotIndex _ (now + activationDelay))).generation
        = now + activationDelay) ∧ s' = s.scheduledFor user now amount unlockAt by
    obtain ⟨hslot, rfl⟩ := hboth
    exact ⟨.schedule unlockAt hamount hlive hslot, rfl⟩
  rw [schedulePending] at hok
  dsimp only at hok
  split at hok
  · rename_i hp
    have hg : s.generation user = 0 := hzero.mpr hp
    have hp' : s.pendingAmount user = 0 := hp
    have hwheel : s.wheelWithout user = s.wheel := if_pos hg
    simp only [bind_eq_ok, revertIf_eq_ok, pure_eq_ok, Except.ok.injEq] at hok
    obtain ⟨-, -, s₁, hschedule, rfl⟩ := hok
    obtain ⟨-, rfl, hslot, rfl⟩ := of_scheduleActivation hschedule
    refine ⟨by rwa [hwheel], ?_⟩
    rw [Storage.scheduledFor, Storage.scheduleEvent, hwheel, if_pos hg, hp', Nat.zero_add]
  · rename_i hp
    have hg : (s.positions user).pendingGeneration ≠ 0 := fun hc => hp (hzero.mp hc)
    have hg' : s.generation user ≠ 0 := hg
    have hwheel : s.wheelWithout user
        = unscheduled s.wheel (s.generation user) (s.pendingAmount user) := if_neg hg'
    rw [revertIf_neg hg, ok_bind, unscheduleActivation] at hok
    simp only [bind_eq_ok, uadd_eq_ok, pure_eq_ok, Except.ok.injEq] at hok
    obtain ⟨_, ⟨wheel, hcancel, rfl⟩, _, ⟨-, rfl⟩, s₁, hschedule, rfl⟩ := hok
    obtain ⟨-, -, rfl⟩ := of_unschedule hcancel
    obtain ⟨-, rfl, hslot, rfl⟩ := of_scheduleActivation hschedule
    refine ⟨by rw [hwheel]; exact hslot, ?_⟩
    rw [Storage.scheduledFor, Storage.scheduleEvent, hwheel, if_neg hg']
    rfl

/-- What is pending for a user that is not materialised is in the wheel. -/
theorem live_of_materializePending (hok : materializePending now user current s = .ok s')
    (hg : s'.generation user ≠ 0) : Live s'.wheel (s'.generation user) := by
  rcases of_materializePending h hok with ⟨rfl, hlive⟩ | ⟨settled, -, -, -, rfl⟩
  · exact hlive hg
  · rw [Storage.generation, materializedWith_self] at hg
    exact absurd rfl hg

omit h in
/-- A settlement of the rewards leaves the rest of the position. -/
theorem settleActivePosition_frame (hok : settleActivePosition user s = .ok s') :
    s'.wheel = s.wheel ∧ s'.generation = s.generation ∧ s'.pendingAmount = s.pendingAmount ∧
      s'.activeAmount = s.activeAmount := by
  obtain ⟨p, -, rfl⟩ := of_settleActivePosition hok
  have hsame : ∀ u, (s.setPosition user { s.positions user with rewards := p.rewards }).positions u
      = { s.positions u with
        rewards := ((s.setPosition user { s.positions user with
          rewards := p.rewards }).positions u).rewards } := fun u => by
    rcases eq_or_ne u user with rfl | hne
    · rw [setPosition_self]
    · rw [setPosition_of_ne hne]
  refine ⟨rfl, funext fun u => ?_, funext fun u => ?_, funext fun u => ?_⟩
  · rw [Storage.generation, hsame u]
    rfl
  · rw [Storage.pendingAmount, hsame u]
    rfl
  · rw [Storage.activeAmount, hsame u]
    rfl

/-- **Adding stock** settles the user first: what is pending then is still to come, and it is
scheduled again, with the amount. -/
theorem of_addPendingStock {generation unlockAt : ℕ}
    (hok : addPendingStock now user s amount generation unlockAt = .ok s') :
    ∃ s₁ lock, Moves now user 0 0 s s₁ ∧ (s₁.generation user ≠ 0 → now < s₁.generation user) ∧
      Move now user s₁ (.enter amount) s' ∧ s' = s₁.scheduledFor user now amount lock := by
  simp only [addPendingStock, bind_eq_ok, revertIf_eq_ok] at hok
  obtain ⟨s₁, hcheck, -, -, -, hamount, g, -, _, -, -, -, s₂, hmat, s₃, hsettle, hok⟩ := hok
  have hcheck' : Moves now user 0 0 s s₁ := moves_checkpointWheel h hcheck
  have h₁ := hcheck'.wheelSound h
  have hmat' : Moves now user 0 0 s₁ s₂ := moves_materializePending h₁ hmat
  have h₂ := hmat'.wheelSound h₁
  have hsettle' : Moves now user 0 0 s₂ s₃ := moves_settleActivePosition hsettle
  obtain ⟨hwheel, hgen, -⟩ := settleActivePosition_frame hsettle
  have hlive : s₃.generation user ≠ 0 → Live s₃.wheel (s₃.generation user) := fun hg => by
    rw [hgen] at hg ⊢
    rw [hwheel]
    exact live_of_materializePending h₁ hmat hg
  -- neither the materialisation nor the settlement touches the slots
  have hslots : s₃.wheel = s₁.wheel := by
    rw [hwheel]
    rcases of_materializePending h₁ hmat with ⟨rfl, -⟩ | ⟨settled, -, -, -, rfl⟩
    · rfl
    · rfl
  refine ⟨s₃, _, (hcheck'.trans_keep hmat').trans_keep hsettle', fun hg => ?_,
    of_schedulePending (hsettle'.wheelSound h₂) hamount hlive hok⟩
  have hl := hlive hg
  rw [hslots, h.of_checkpointWheel hcheck] at hl
  exact lt_of_live_checkpointed hl

theorem moves_addPendingStock {generation unlockAt : ℕ}
    (hok : addPendingStock now user s amount generation unlockAt = .ok s') :
    Moves now user amount 0 s s' := by
  obtain ⟨s₁, _, hmoves, -, hmove, -⟩ := of_addPendingStock h hok
  exact hmoves.keep_trans (.single hmove)

omit h in
/-- A settled position whose active amount is taken out. -/
theorem setPosition_dropped {rewards : RewardIndex → GaugeUserReward} :
    { s with wheel := { s.wheel with active := s.wheel.active - s.activeAmount user } }.setPosition user
        { s.positions user with rewards, activeAmount := 0, unlockAt := 0 }
      = (s.setPosition user { s.positions user with rewards }).droppedFor user := by
  rw [Storage.droppedFor, Storage.activeAmount, Storage.activeAmount, setPosition_self, Storage.setPosition,
    Storage.setPosition, Storage.setPosition]
  dsimp only
  rw [update_idem]

omit h in
/-- A settlement after which the active amount is taken out. -/
theorem moves_settle_drop {p : GaugePosition} {accumulator : RewardIndex → ℕ}
    (hsettle : settleActivePositionAt (s.positions user) accumulator = .ok p)
    (hle : p.activeAmount ≤ s.wheel.active) :
    Moves now user 0 (s.activeAmount user) s
      ({ s with wheel := { s.wheel with active := s.wheel.active - p.activeAmount } }.setPosition user
        { p with activeAmount := 0, unlockAt := 0 }) := by
  have hp := (settleRewards_eq_ok.mp hsettle).2
  have hactive : p.activeAmount = s.activeAmount user := by rw [hp]; rfl
  rw [hactive] at hle ⊢
  -- the rewards first, and then the stock
  generalize p.rewards = rewards at hp
  subst hp
  rw [setPosition_dropped]
  have hself : (s.setPosition user { s.positions user with rewards }).activeAmount user
      = s.activeAmount user := by
    rw [Storage.activeAmount, setPosition_self]
    rfl
  have hdrop : Move now user (s.setPosition user { s.positions user with rewards }) _ _ :=
    .drop (by rwa [hself])
  rw [hself] at hdrop
  exact Moves.keep_trans (.single (.rewards rewards)) (.single hdrop)

theorem moves_removeStock (hok : removeStock now user s = .ok (s', amount)) :
    Moves now user 0 amount s s' ∧ s'.stock user = 0 := by
  simp only [removeStock, bind_eq_ok, revertIf_eq_ok, usub_eq_ok, pure_eq_ok, Except.ok.injEq,
    Prod.mk.injEq] at hok
  obtain ⟨s₁, hcheck, -, -, s₂, hmat, -, hpending, -, -, -, -, -, -, p, hsettle, _, ⟨hle, rfl⟩, rfl,
    rfl⟩ := hok
  have hcheck' : Moves now user 0 0 s s₁ := moves_checkpointWheel h hcheck
  have hmat' : Moves now user 0 0 s₁ s₂ := moves_materializePending (hcheck'.wheelSound h) hmat
  have hp := (settleRewards_eq_ok.mp hsettle).2
  have hactive : p.activeAmount = s₂.activeAmount user := by rw [hp]; rfl
  refine ⟨?_, ?_⟩
  · have hdrop : Moves now user 0 _ s₂ _ := moves_settle_drop hsettle hle
    rw [← hactive] at hdrop
    exact (hcheck'.trans_keep hmat').keep_trans hdrop
  · rw [Storage.stock, Storage.activeAmount, Storage.pendingAmount, setPosition_self]
    dsimp only
    rw [hp, Nat.zero_add]
    exact not_not.mp (not_or.mp hpending).1

end Functions

/-! ### The external functions -/

section External

variable {id : GaugeIdentity} {caller self : Address} {v : Immutables} {vs vs' : State}
  {s s' : Storage} {user : Address} {amount : ℕ}

/-- A move of the fees. -/
theorem SameStock.moves {now : ℕ} (h : SameStock s s') : Moves now user 0 0 s s' :=
  .single (.fees h)

/-- An event that is not about the stock. -/
theorem sameStock_emit {e : Event} (hprocessed : e.processed? = none)
    (hmaterialized : e.materialized? = none) : SameStock s (s.emit e) where
  wheel := rfl
  snapshots := rfl
  positions := rfl
  processed := by
    rw [Storage.processed, Storage.emit]
    dsimp only
    rw [List.filterMap_append, List.filterMap_cons_none hprocessed]
    exact List.append_nil _
  materialized := by
    rw [Storage.materialized, Storage.emit]
    dsimp only
    rw [List.filterMap_append, List.filterMap_cons_none hmaterialized]
    exact List.append_nil _
  accumulators_le _ := le_rfl

theorem sameStock_tryFlushDeferredForfeiture {recorded : Bool} :
    SameStock s (tryFlushDeferredForfeiture s recorded) := by
  rw [tryFlushDeferredForfeiture]
  split
  · exact .refl s
  · split
    · have hzero : SameStock s { s with deferredForfeiture := fun _ => 0 } :=
        ⟨rfl, rfl, rfl, rfl, rfl, fun _ => le_rfl⟩
      exact hzero.trans (sameStock_emit rfl rfl)
    · exact .refl s

/-- `_forfeitReward`, without what it collects. -/
theorem moves_forfeitReward {now : ℕ} {i : RewardIndex} {absorb : Bool}
    (hok : forfeitReward s i user absorb = .ok (s', amount)) : Moves now user 0 0 s s' := by
  simp only [forfeitReward, bind_eq_ok, pure_eq_ok, Except.ok.injEq, Prod.mk.injEq, Prod.exists] at hok
  obtain ⟨s₁, _, hcollect, rfl, -⟩ := hok
  have hforfeited := of_collectForfeitedReward hcollect
  have hmove : Moves now user 0 0 s s₁ := hforfeited.sameStock.moves
  rw [← hforfeited.positions]
  exact hmove.trans_keep (.single (.rewards _))

theorem moves_consumeClaimable {now : ℕ} {i : RewardIndex} :
    Moves now user 0 0 s (consumeClaimable s user i).1 :=
  .single (.rewards _)

/-- The part of `_increaseRewardAccumulator` that is in the gauge. -/
theorem sameStock_increaseRewardAccumulator {i : RewardIndex} {delta remainder : ℕ}
    (hok : increaseRewardAccumulator id vs v self s i amount = .ok ((vs', s'), delta, remainder)) :
    SameStock s s' := by
  rw [increaseRewardAccumulator] at hok
  dsimp only at hok
  split at hok
  · simp only [Except.ok.injEq, Prod.mk.injEq] at hok
    obtain ⟨⟨-, rfl⟩, -⟩ := hok
    exact .refl s
  · simp only [bind_eq_ok, revertIf_eq_ok, uadd_eq_ok, pure_eq_ok, Except.ok.injEq, Prod.mk.injEq,
      Prod.exists] at hok
    obtain ⟨_, -, -, -, _, _, -, _, ⟨-, rfl⟩, _, -, ⟨-, rfl⟩, -, -⟩ := hok
    refine ⟨rfl, rfl, rfl, rfl, rfl, fun j => ?_⟩
    rw [Storage.accumulators, Storage.accumulators]
    dsimp only
    rcases eq_or_ne j i with rfl | hne
    · rw [update_self]
      exact Nat.le_add_right _ _
    · rw [update_of_ne hne]

variable (h : WheelSound vs.world.now s)

include h

theorem of_checkpointRewardActivations (hok : checkpointRewardActivations id vs s = .ok s') :
    ∃ s₁, Forfeited s s₁ ∧ WheelSound vs.world.now s₁ ∧
      s' = s₁.checkpointed vs.world.now s₁.accumulators := by
  simp only [checkpointRewardActivations, bind_eq_ok] at hok
  obtain ⟨s₁, hreserve, hcheck⟩ := hok
  have hforfeited := of_reserveOrphanedRemainders hreserve
  have hmoves : Moves vs.world.now 0 0 0 s s₁ := hforfeited.sameStock.moves
  have h₁ : WheelSound vs.world.now s₁ := hmoves.wheelSound h
  exact ⟨s₁, hforfeited, h₁, h₁.of_checkpointWheel hcheck⟩

theorem moves_checkpointRewardActivations (hok : checkpointRewardActivations id vs s = .ok s') :
    Moves vs.world.now user 0 0 s s' := by
  obtain ⟨s₁, hforfeited, -, rfl⟩ := of_checkpointRewardActivations h hok
  exact hforfeited.sameStock.moves.trans_keep (.single (.checkpoint s₁))

theorem moves_settlePosition (hok : settlePosition id vs s user = .ok s') :
    Moves vs.world.now user 0 0 s s' := by
  simp only [settlePosition, bind_eq_ok, revertIf_eq_ok] at hok
  obtain ⟨s₁, hcheck, -, -, s₂, hmat, hsettle⟩ := hok
  have hcheck' : Moves vs.world.now user 0 0 s s₁ := moves_checkpointRewardActivations h hcheck
  have hmat' : Moves vs.world.now user 0 0 s₁ s₂ :=
    moves_materializePending (hcheck'.wheelSound h) hmat
  exact (hcheck'.trans_keep hmat').trans_keep (moves_settleActivePosition hsettle)

theorem moves_addPending {activationAt unlockAt : ℕ}
    (hok : addPending id caller vs s user amount activationAt unlockAt = .ok s') :
    Moves vs.world.now user amount 0 s s' := by
  simp only [addPending, bind_eq_ok] at hok
  obtain ⟨-, -, hok⟩ := hok
  exact moves_addPendingStock h hok

theorem moves_removeAllocation (hok : removeAllocation id caller vs s user = .ok (s', amount)) :
    Moves vs.world.now user 0 amount s s' ∧ s'.stock user = 0 := by
  simp only [removeAllocation, bind_eq_ok] at hok
  obtain ⟨-, -, hok⟩ := hok
  exact moves_removeStock h hok

theorem moves_settle (hok : settle id caller vs s user = .ok s') :
    Moves vs.world.now user 0 0 s s' := by
  simp only [settle, bind_eq_ok] at hok
  obtain ⟨-, -, -, -, hok⟩ := hok
  exact moves_settlePosition h hok

theorem moves_checkpointActivations {recorded : Bool}
    (hok : checkpointActivations id vs s recorded = .ok s') : Moves vs.world.now user 0 0 s s' := by
  simp only [checkpointActivations, bind_eq_ok, pure_eq_ok, Except.ok.injEq] at hok
  obtain ⟨s₁, hcheck, rfl⟩ := hok
  exact (moves_checkpointRewardActivations h hcheck).trans_keep
    sameStock_tryFlushDeferredForfeiture.moves

theorem moves_creditStakerFee {feeAsset : Address} {feeId : Bytes32} {delta remainder : ℕ}
    (hok : creditStakerFee id caller vs s v self feeAsset amount feeId
      = .ok ((vs', s'), delta, remainder)) : Moves vs.world.now user 0 0 s s' := by
  simp only [creditStakerFee, applyStakerFee, bind_eq_ok, pure_eq_ok, Except.ok.injEq, Prod.mk.injEq,
    Prod.exists] at hok
  obtain ⟨-, -, s₁, hcheck, i, -, _, s₂, d, r, hincrease, ⟨-, rfl⟩, -, -⟩ := hok
  have hfees := (sameStock_increaseRewardAccumulator hincrease).trans
    (sameStock_emit (e := .stakerFeeCredited feeAsset feeId amount d r) rfl rfl)
  exact (moves_checkpointRewardActivations h hcheck).trans_keep hfees.moves

theorem moves_consumeClaimableAssets {assets : BitVec 8} {quote meme : ℕ}
    (hok : consumeClaimableAssets id caller vs s user assets = .ok (s', quote, meme)) :
    Moves vs.world.now user 0 0 s s' := by
  simp only [consumeClaimableAssets, bind_eq_ok, pure_eq_ok, Except.ok.injEq, Prod.mk.injEq] at hok
  obtain ⟨-, -, -, -, -, -, -, -, s₁, hsettle, rfl, -, -⟩ := hok
  have hsettle' : Moves vs.world.now user 0 0 s s₁ := moves_settlePosition h hsettle
  have hconsume : ∀ (c : Prop) [Decidable c] (t : Storage) (i : RewardIndex),
      Moves vs.world.now user 0 0 t (if c then consumeClaimable t user i else (t, 0)).1 := by
    intro c _ t i
    split
    · exact moves_consumeClaimable
    · exact .refl t
  exact (hsettle'.trans_keep (hconsume _ _ _)).trans_keep (hconsume _ _ _)

/-! ### A rage quit -/

theorem moves_materializeOrCancelPending {cutoff : RewardIndex → ℕ}
    (hok : materializeOrCancelPending vs s user cutoff = .ok s') :
    ∃ a, Moves vs.world.now user 0 a s s' ∧ s'.pendingAmount user = 0 ∧
      a + s'.activeAmount user = s.stock user := by
  have hzero : s.generation user = 0 ↔ s.pendingAmount user = 0 := h.generation_eq_zero
  rw [materializeOrCancelPending] at hok
  dsimp only at hok
  split at hok
  · rename_i hp
    obtain rfl := Except.ok.inj hok
    refine ⟨0, .refl s, hp, ?_⟩
    have hp' : s.pendingAmount user = 0 := hp
    rw [Storage.stock, hp']
    omega
  · rename_i hp
    have hg : s.generation user ≠ 0 := fun hc => hp (hzero.mp hc)
    split at hok
    · -- the slot is still in the wheel
      rename_i hrefs
      have hlive : Live s.wheel (s.generation user) :=
        not_not.mp fun hc => (h.refs_ne_zero_iff hg).mpr hc hrefs
      simp only [unscheduleActivation, bind_eq_ok, pure_eq_ok, Except.ok.injEq] at hok
      obtain ⟨_, ⟨wheel, hcancel, rfl⟩, rfl⟩ := hok
      obtain ⟨-, -, rfl⟩ := of_unschedule hcancel
      refine ⟨s.pendingAmount user, .single (.unschedule hlive), ?_, ?_⟩
      · rw [Storage.pendingAmount, setPosition_self]
      · rw [Storage.activeAmount, setPosition_self, Storage.stock, Storage.activeAmount]
        exact Nat.add_comm _ _
    · rename_i hrefs
      split at hok
      · -- it was activated before the cutoff
        rcases of_materializePending h hok with ⟨-, hlive⟩ | ⟨settled, -, -, hsettle, rfl⟩
        · exact absurd (hlive hg) ((h.refs_ne_zero_iff hg).mp hrefs)
        · refine ⟨0, .single (.materialize hg hrefs hsettle), ?_, ?_⟩
          · rw [Storage.pendingAmount, materializedWith_self]
          · rw [Storage.activeAmount, materializedWith_self, Nat.zero_add]
            rfl
      · simp only [bind_eq_ok, usub_eq_ok, pure_eq_ok, Except.ok.injEq] at hok
        obtain ⟨_, ⟨hle, rfl⟩, rfl⟩ := hok
        refine ⟨s.pendingAmount user, .single (.forget hg hrefs hle), ?_, ?_⟩
        · show ((s.forgottenFor user).positions user).pendingAmount = 0
          rw [forgottenFor_self]
          rfl
        · show s.pendingAmount user + ((s.forgottenFor user).positions user).activeAmount = s.stock user
          rw [forgottenFor_self]
          exact Nat.add_comm _ _

theorem moves_rageQuitPosition {cutoff : RewardIndex → ℕ} {principal quote meme : ℕ}
    (hok : rageQuitPosition id vs s user cutoff = .ok (s', principal, quote, meme)) :
    Moves vs.world.now user 0 principal s s' ∧ s'.stock user = 0 := by
  simp only [rageQuitPosition, bind_eq_ok, revertIf_eq_ok, uadd_eq_ok, usub_eq_ok, pure_eq_ok,
    Except.ok.injEq, Prod.mk.injEq, Prod.exists] at hok
  obtain ⟨-, -, s₁, hcheck, _, ⟨-, rfl⟩, -, -, s₂, hcancel, p, hsettle, _, ⟨hle, rfl⟩, eligible, -,
    s₃, q, hquote, s₄, m, hmeme, rfl, rfl, rfl, rfl⟩ := hok
  have hcheck' : Moves vs.world.now user 0 0 s s₁ := moves_checkpointRewardActivations h hcheck
  obtain ⟨a, hcancel', hnone, hsum⟩ :=
    moves_materializeOrCancelPending (hcheck'.wheelSound h) hcancel
  have hdrop : Moves vs.world.now user 0 _ s₂ _ := moves_settle_drop hsettle hle
  have hforfeit : Moves vs.world.now user 0 0 _ s₄ :=
    (moves_forfeitReward hquote).trans_keep (moves_forfeitReward hmeme)
  have hemit : SameStock s₄ (s₄.emit (.gaugeRageQuit user (s₁.stock user) (RewardIndex.pair q m))) :=
    sameStock_emit rfl rfl
  have hlast : Moves vs.world.now user 0 0 s₄ _ := hemit.moves
  have hall := (hcheck'.keep_trans ((hcancel'.trans hdrop).trans_keep hforfeit)).trans_keep hlast
  rw [hsum] at hall
  refine ⟨hall, ?_⟩
  -- nothing is left after the move out
  have hstock := hall.stock_eq
  have hkeep := hcheck'.stock_eq
  show (s₄.emit (.gaugeRageQuit user (s₁.stock user) (RewardIndex.pair q m))).stock user = 0
  omega

theorem moves_rageQuit {recorded : Bool} {principal quote meme : ℕ}
    (hok : rageQuit id caller vs s user recorded = .ok (s', principal, quote, meme)) :
    Moves vs.world.now user 0 principal s s' ∧ s'.stock user = 0 := by
  simp only [rageQuit, bind_eq_ok, revertIf_eq_ok, usub_eq_ok, uadd_eq_ok, Prod.exists] at hok
  obtain ⟨-, -, _, _, _, -, s₁, before, q, m, hquit, -, -, _, ⟨-, rfl⟩, _, ⟨-, rfl⟩, _, ⟨-, rfl⟩, _,
    ⟨-, rfl⟩, hok⟩ := hok
  obtain ⟨hmoves, hzero⟩ := moves_rageQuitPosition h hquit
  have hprior : SameStock s₁ { s₁ with deferredForfeiture := s.deferredForfeiture } :=
    ⟨rfl, rfl, rfl, rfl, rfl, fun _ => le_rfl⟩
  -- the record of what is forfeited does not touch the stock
  obtain ⟨hkept, rfl⟩ : SameStock s₁ s' ∧ before = principal := by
    split at hok
    · simp only [Except.ok.injEq, Prod.mk.injEq] at hok
      obtain ⟨rfl, hprincipal, -⟩ := hok
      exact ⟨hprior, hprincipal⟩
    · simp only [bind_eq_ok, pure_eq_ok, Except.ok.injEq, Prod.mk.injEq] at hok
      obtain ⟨s₂, hdefer, rfl, hprincipal, -⟩ := hok
      exact ⟨(hprior.trans (of_deferForfeiture hdefer).sameStock).trans (sameStock_emit rfl rfl),
        hprincipal⟩
  refine ⟨hmoves.trans_keep hkept.moves, ?_⟩
  rw [Storage.stock, Storage.activeAmount, Storage.pendingAmount, hkept.positions]
  exact hzero

end External

end MemeStockGauge

end TickerGarden
