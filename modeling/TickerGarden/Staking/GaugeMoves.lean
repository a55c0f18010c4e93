import TickerGarden.Staking.GaugeWheel
import TickerGarden.Lib.Transition

/-!
# The moves of a gauge

Every function of a gauge that goes through is a run of a few **moves**,
`TickerGarden.MemeStockGauge.Move`, for one user. What is preserved is shown of a move,
and holds of the functions: the wheel stays sound, the position of nobody else is touched,
and what a user has changes by what enters and leaves.

The log tells what became of the pending amounts. A generation is processed at most once,
a user is materialised at most once from each, and never from a generation it is still
pending in: that is `TickerGarden.MemeStockGauge.HistorySound`.
-/

namespace TickerGarden

open Checked TimingWheel Function

namespace MemeStockGauge

open UserStockVault (State)

/-! ### What is logged -/

/-- The generation of a slot that was activated. -/
def Event.processed? : Event → Option ℕ
  | .activationBucketProcessed generation _ _ _ => some generation
  | _ => none

/-- A user that was materialised, and from which generation. -/
def Event.materialized? : Event → Option (Address × ℕ)
  | .pendingMaterialized user generation _ => some (user, generation)
  | _ => none

namespace Storage

variable (s : Storage) (user : Address)

/-- The generations that were activated, in the order of the log. -/
def processed : List ℕ := s.log.filterMap Event.processed?

/-- The users whose pending stock became active, with the generation of it, in the order of the log.
-/
def materialized : List (Address × ℕ) := s.log.filterMap Event.materialized?

/-- What a user has in the gauge. -/
def stock : ℕ := s.activeAmount user + s.pendingAmount user

/-! ### The results of the moves -/

/-- A user is materialised, and its rewards are those of `settled`. -/
def materializedWith (settled : GaugePosition) : Storage :=
  ((s.setPosition user { settled with
      activeAmount := s.activeAmount user + s.pendingAmount user
      pendingAmount := 0
      pendingGeneration := 0 }).setSnapshot (s.generation user)
    (s.snapshots (s.generation user)).release).emit
    (.pendingMaterialized user (s.generation user) (s.pendingAmount user))

/-- The position of a user without its pending amount. -/
def withoutPending : GaugePosition :=
  { s.positions user with pendingAmount := 0, pendingGeneration := 0 }

/-- The pending amount of a user is taken out of the wheel. -/
def unscheduledFor : Storage :=
  { s with wheel := unscheduled s.wheel (s.generation user) (s.pendingAmount user) }.setPosition user
    (s.withoutPending user)

/-- The wheel without what a user has pending. -/
def wheelWithout : Ledger activationWheelSize :=
  if s.generation user = 0 then s.wheel
  else unscheduled s.wheel (s.generation user) (s.pendingAmount user)

/-- The event of a schedule. -/
def scheduleEvent (amount generation unlockAt : ℕ) : Event :=
  if s.generation user = 0 then .pendingScheduled user amount generation unlockAt
  else .pendingRescheduled user (s.generation user) generation amount unlockAt

/-- All that is pending for a user is scheduled again, with an amount. -/
def scheduledFor (now amount unlockAt : ℕ) : Storage :=
  let combinedAmount := s.pendingAmount user + amount
  let generation := now + activationDelay
  ({ s with
    wheel := TimingWheel.scheduled (s.wheelWithout user) generation combinedAmount }.setPosition user
      { s.positions user with
        pendingAmount := combinedAmount, pendingGeneration := generation, unlockAt }).emit
    (s.scheduleEvent user combinedAmount generation unlockAt)

/-- The pending amount of a user is taken out of a snapshot it never earned from. -/
def forgottenFor : Storage :=
  ({ s with wheel := { s.wheel with active := s.wheel.active - s.pendingAmount user } }.setPosition
    user (s.withoutPending user)).setSnapshot (s.generation user)
    (s.snapshots (s.generation user)).release

/-- What a user has active is taken out. -/
def droppedFor : Storage :=
  { s with wheel := { s.wheel with active := s.wheel.active - s.activeAmount user } }.setPosition user
    { s.positions user with activeAmount := 0, unlockAt := 0 }

end Storage

/-- **Only the fees change**: the accumulators, what is forfeited, and the log of them. -/
structure SameStock (s s' : Storage) : Prop where
  wheel : s'.wheel = s.wheel
  snapshots : s'.snapshots = s.snapshots
  positions : s'.positions = s.positions
  processed : s'.processed = s.processed
  materialized : s'.materialized = s.materialized
  accumulators_le : ∀ i, s.accumulators i ≤ s'.accumulators i

theorem SameStock.refl (s : Storage) : SameStock s s := ⟨rfl, rfl, rfl, rfl, rfl, fun _ => le_rfl⟩

theorem SameStock.trans {s t u : Storage} (h : SameStock s t) (k : SameStock t u) : SameStock s u where
  wheel := k.wheel.trans h.wheel
  snapshots := k.snapshots.trans h.snapshots
  positions := k.positions.trans h.positions
  processed := k.processed.trans h.processed
  materialized := k.materialized.trans h.materialized
  accumulators_le i := (h.accumulators_le i).trans (k.accumulators_le i)

/-- What a move does to the stock of its user. -/
inductive Flow
  | keep
  | enter (amount : ℕ)
  | leave (amount : ℕ)

/-- The stock that comes in. -/
def Flow.entered : Flow → ℕ
  | .enter amount => amount
  | _ => 0

/-- The stock that goes out. -/
def Flow.left : Flow → ℕ
  | .leave amount => amount
  | _ => 0

/-- **The moves of a gauge** at a time, for a user. -/
inductive Move (now : ℕ) (user : Address) : Storage → Flow → Storage → Prop
  | fees {s s' : Storage} (h : SameStock s s') : Move now user s .keep s'
  | checkpoint (s : Storage) : Move now user s .keep (s.checkpointed now s.accumulators)
  | materialize {s : Storage} {current : RewardIndex → ℕ} {settled : GaugePosition}
      (hgeneration : s.generation user ≠ 0) (hrefs : (s.snapshots (s.generation user)).refs ≠ 0)
      (hsettle : settleMaterializingPosition (s.positions user) (s.snapshots (s.generation user))
        current = .ok settled) : Move now user s .keep (s.materializedWith user settled)
  | rewards {s : Storage} (rewards : RewardIndex → GaugeUserReward) :
      Move now user s .keep (s.setPosition user { s.positions user with rewards })
  | schedule {s : Storage} {amount : ℕ} (unlockAt : ℕ) (hamount : amount ≠ 0)
      (hlive : s.generation user ≠ 0 → Live s.wheel (s.generation user))
      (hslot : ((s.wheelWithout user).wheel (slotIndex _ (now + activationDelay))).generation = 0 ∨
        ((s.wheelWithout user).wheel (slotIndex _ (now + activationDelay))).generation
          = now + activationDelay) :
      Move now user s (.enter amount) (s.scheduledFor user now amount unlockAt)
  | unschedule {s : Storage} (hlive : Live s.wheel (s.generation user)) :
      Move now user s (.leave (s.pendingAmount user)) (s.unscheduledFor user)
  | forget {s : Storage} (hgeneration : s.generation user ≠ 0)
      (hrefs : (s.snapshots (s.generation user)).refs ≠ 0)
      (hle : s.pendingAmount user ≤ s.wheel.active) :
      Move now user s (.leave (s.pendingAmount user)) (s.forgottenFor user)
  | drop {s : Storage} (hle : s.activeAmount user ≤ s.wheel.active) :
      Move now user s (.leave (s.activeAmount user)) (s.droppedFor user)

/-- The history of a gauge is sound. -/
structure HistorySound (now : ℕ) (s : Storage) : Prop where
  processed_nodup : s.processed.Nodup
  processed_le : ∀ g ∈ s.processed, g ≤ now
  not_live : ∀ g ∈ s.processed, ¬ Live s.wheel g
  processed_of : ∀ u, s.generation u ≠ 0 → ¬ Live s.wheel (s.generation u) →
    s.generation u ∈ s.processed
  materialized_nodup : s.materialized.Nodup
  materialized_processed : ∀ x ∈ s.materialized, x.2 ∈ s.processed
  outstanding : ∀ u, s.generation u ≠ 0 → (u, s.generation u) ∉ s.materialized

theorem historySound_empty (now : ℕ) : HistorySound now Storage.empty where
  processed_nodup := List.nodup_nil
  processed_le _ hg := absurd hg List.not_mem_nil
  not_live _ hg := absurd hg List.not_mem_nil
  processed_of _ hu := absurd rfl hu
  materialized_nodup := List.nodup_nil
  materialized_processed _ hx := absurd hx List.not_mem_nil
  outstanding _ hu := absurd rfl hu

theorem HistorySound.mono {now t : ℕ} {s : Storage} (h : HistorySound now s) (hle : now ≤ t) :
    HistorySound t s :=
  { h with processed_le := fun g hg => (h.processed_le g hg).trans hle }

/-! ### What a move preserves -/

section Positions

variable {s : Storage} {user v : Address} {p settled : GaugePosition} {now amount unlockAt : ℕ}

@[simp] theorem setPosition_self : (s.setPosition user p).positions user = p :=
  update_self ..

theorem setPosition_of_ne (hv : v ≠ user) : (s.setPosition user p).positions v = s.positions v :=
  update_of_ne hv ..

@[simp] theorem materializedWith_self : (s.materializedWith user settled).positions user
    = { settled with
        activeAmount := s.activeAmount user + s.pendingAmount user
        pendingAmount := 0
        pendingGeneration := 0 } :=
  update_self ..

@[simp] theorem unscheduledFor_self :
    (s.unscheduledFor user).positions user = s.withoutPending user :=
  update_self ..

@[simp] theorem scheduledFor_self : (s.scheduledFor user now amount unlockAt).positions user
    = { s.positions user with
        pendingAmount := s.pendingAmount user + amount
        pendingGeneration := now + activationDelay
        unlockAt } :=
  update_self ..

@[simp] theorem forgottenFor_self : (s.forgottenFor user).positions user = s.withoutPending user :=
  update_self ..

@[simp] theorem droppedFor_self :
    (s.droppedFor user).positions user = { s.positions user with activeAmount := 0, unlockAt := 0 } :=
  update_self ..

end Positions

namespace Move

variable {now : ℕ} {user v : Address} {flow : Flow} {s s' : Storage} (k : Move now user s flow s')

include k

/-- **Nobody else is touched.** -/
theorem positions_of_ne (hv : v ≠ user) : s'.positions v = s.positions v := by
  cases k with
  | fees h => rw [h.positions]
  | checkpoint => rfl
  | materialize => exact setPosition_of_ne hv
  | rewards => exact setPosition_of_ne hv
  | schedule => exact setPosition_of_ne hv
  | unschedule => exact setPosition_of_ne hv
  | forget => exact setPosition_of_ne hv
  | drop => exact setPosition_of_ne hv

/-- **A move keeps the wheel sound.** -/
theorem wheelSound (h : WheelSound now s) : WheelSound now s' := by
  have hother : ∀ v, v ≠ user → s'.positions v = s.positions v := fun v hv => k.positions_of_ne hv
  cases k with
  | fees hs =>
    exact h.congr hs.wheel hs.snapshots (funext fun u => by rw [Storage.generation, hs.positions]; rfl)
      (funext fun u => by rw [Storage.pendingAmount, hs.positions]; rfl)
      (funext fun u => by rw [Storage.activeAmount, hs.positions]; rfl)
  | checkpoint => exact h.checkpointed
  | @materialize _ settled hgeneration hrefs hsettle =>
    have hl := (h.refs_ne_zero_iff hgeneration).mp hrefs
    have hactive : (s.materializedWith user settled).activeAmount user
        = s.activeAmount user + s.pendingAmount user := by
      rw [Storage.activeAmount, materializedWith_self]
    refine h.forgotten hgeneration hl hother ?_ ?_ rfl rfl rfl ?_
    · rw [Storage.generation, materializedWith_self]
    · rw [Storage.pendingAmount, materializedWith_self]
    · rw [hactive, ← Nat.add_assoc]
      rfl
  | rewards r =>
    refine h.dropped hother ?_ ?_ rfl rfl rfl ?_
    · rw [Storage.generation, setPosition_self]
      rfl
    · rw [Storage.pendingAmount, setPosition_self]
      rfl
    · rw [Storage.activeAmount, Storage.activeAmount, setPosition_self]
      rfl
  | @schedule amount unlockAt hamount hlive hslot =>
    have hne : s.pendingAmount user + amount ≠ 0 := by omega
    by_cases hg : s.generation user = 0
    · have hwheel : s.wheelWithout user = s.wheel := if_pos hg
      rw [hwheel] at hslot
      refine h.scheduled hg hne hslot hother ?_ ?_ ?_ ?_ rfl
      · rw [Storage.generation, scheduledFor_self]
      · rw [Storage.pendingAmount, scheduledFor_self]
      · rw [Storage.activeAmount, scheduledFor_self]
        rfl
      · rw [Storage.scheduledFor, hwheel]
        rfl
    · -- what was pending is taken out first
      have hwheel : s.wheelWithout user = (s.unscheduledFor user).wheel := if_neg hg
      rw [hwheel] at hslot
      have hmid : WheelSound now (s.unscheduledFor user) := by
        refine h.cancelled (hlive hg) (fun v hv => setPosition_of_ne hv) ?_ ?_ ?_ rfl rfl
        · rw [Storage.generation, unscheduledFor_self]
          rfl
        · rw [Storage.pendingAmount, unscheduledFor_self]
          rfl
        · rw [Storage.activeAmount, unscheduledFor_self]
          rfl
      have hother' : ∀ v, v ≠ user → (s.scheduledFor user now amount unlockAt).positions v
          = (s.unscheduledFor user).positions v := fun v hv => by
        rw [hother v hv]
        exact (setPosition_of_ne hv).symm
      refine hmid.scheduled ?_ hne hslot hother' ?_ ?_ ?_ ?_ rfl
      · rw [Storage.generation, unscheduledFor_self]
        rfl
      · rw [Storage.generation, scheduledFor_self]
      · rw [Storage.pendingAmount, scheduledFor_self]
      · rw [Storage.activeAmount, scheduledFor_self, Storage.activeAmount, unscheduledFor_self]
        rfl
      · rw [Storage.scheduledFor, hwheel]
        rfl
  | unschedule hlive =>
    refine h.cancelled hlive hother ?_ ?_ ?_ rfl rfl
    · rw [Storage.generation, unscheduledFor_self]
      rfl
    · rw [Storage.pendingAmount, unscheduledFor_self]
      rfl
    · rw [Storage.activeAmount, unscheduledFor_self]
      rfl
  | forget hgeneration hrefs hle =>
    have hl := (h.refs_ne_zero_iff hgeneration).mp hrefs
    have htotal : (s.forgottenFor user).wheel.active = s.wheel.active - s.pendingAmount user := rfl
    have hactive : (s.forgottenFor user).activeAmount user = s.activeAmount user := by
      rw [Storage.activeAmount, forgottenFor_self]
      rfl
    refine h.forgotten hgeneration hl hother ?_ ?_ rfl rfl rfl (by omega)
    · rw [Storage.generation, forgottenFor_self]
      rfl
    · rw [Storage.pendingAmount, forgottenFor_self]
      rfl
  | drop hle =>
    have htotal : (s.droppedFor user).wheel.active = s.wheel.active - s.activeAmount user := rfl
    have hactive : (s.droppedFor user).activeAmount user = 0 := by
      rw [Storage.activeAmount, droppedFor_self]
    refine h.dropped hother ?_ ?_ rfl rfl rfl (by omega)
    · rw [Storage.generation, droppedFor_self]
      rfl
    · rw [Storage.pendingAmount, droppedFor_self]
      rfl

/-- **What a user has changes by what enters and leaves.** -/
theorem stock_eq : s'.stock user + flow.left = s.stock user + flow.entered := by
  cases k with
  | fees hs =>
    rw [Storage.stock, Storage.activeAmount, Storage.pendingAmount, hs.positions]
    rfl
  | checkpoint => rfl
  | materialize =>
    rw [Storage.stock, Storage.activeAmount, Storage.pendingAmount, materializedWith_self]
    rfl
  | rewards =>
    rw [Storage.stock, Storage.activeAmount, Storage.pendingAmount, setPosition_self]
    rfl
  | @schedule amount =>
    rw [Storage.stock, Storage.activeAmount, Storage.pendingAmount, scheduledFor_self]
    show s.activeAmount user + (s.pendingAmount user + amount) + 0
      = s.activeAmount user + s.pendingAmount user + amount
    omega
  | unschedule =>
    rw [Storage.stock, Storage.activeAmount, Storage.pendingAmount, unscheduledFor_self]
    rfl
  | forget =>
    rw [Storage.stock, Storage.activeAmount, Storage.pendingAmount, forgottenFor_self]
    rfl
  | drop =>
    rw [Storage.stock, Storage.activeAmount, Storage.pendingAmount, droppedFor_self]
    show 0 + s.pendingAmount user + s.activeAmount user = s.activeAmount user + s.pendingAmount user + 0
    omega

end Move

/-! ### The history -/

section Without

variable {now g : ℕ} {user v : Address} {s : Storage} (h : WheelSound now s)
  (hlive : s.generation user ≠ 0 → Live s.wheel (s.generation user))

include hlive

/-- What is in the wheel without a user was in it. -/
theorem of_live_wheelWithout (hl : Live (s.wheelWithout user) g) : Live s.wheel g := by
  rw [Storage.wheelWithout] at hl
  split at hl
  · exact hl
  · rename_i hg
    rcases eq_or_ne g (s.generation user) with rfl | hne
    · exact hlive hg
    · exact (live_unscheduled_of_ne (hlive hg).2 hne).mp hl

include h

/-- The others stay in the wheel. -/
theorem live_wheelWithout (hv : v ≠ user) (hl : Live s.wheel (s.generation v)) :
    Live (s.wheelWithout user) (s.generation v) := by
  rw [Storage.wheelWithout]
  split
  · exact hl
  · rename_i hg
    exact h.wheel.live_unscheduled (hlive hg) hv hl

end Without

section Logs

variable {s : Storage} {user : Address} {now amount unlockAt : ℕ} {current : RewardIndex → ℕ}
  {settled : GaugePosition}

theorem processed_checkpointed : (s.checkpointed now current).processed
    = s.processed ++ (dueSlots now s.wheel (List.finRange _)).map Slot.generation := by
  rw [Storage.processed, Storage.checkpointed]
  dsimp only
  rw [List.filterMap_append, List.filterMap_map]
  exact congrArg _ (congrFun List.filterMap_eq_map _)

theorem materialized_checkpointed : (s.checkpointed now current).materialized = s.materialized := by
  rw [Storage.materialized, Storage.checkpointed]
  dsimp only
  rw [List.filterMap_append, List.filterMap_map]
  have hnone : List.filterMap (Event.materialized? ∘ fun slot : Slot =>
      .activationBucketProcessed slot.generation slot.amount current slot.refs)
      (dueSlots now s.wheel (List.finRange _)) = [] :=
    List.filterMap_eq_nil_iff.mpr fun _ _ => rfl
  rw [hnone, List.append_nil]
  rfl

theorem processed_materializedWith :
    (s.materializedWith user settled).processed = s.processed := by
  rw [Storage.processed, Storage.materializedWith, Storage.emit]
  dsimp only
  rw [List.filterMap_append]
  exact List.append_nil _

theorem materialized_materializedWith : (s.materializedWith user settled).materialized
    = s.materialized ++ [(user, s.generation user)] := by
  rw [Storage.materialized, Storage.materializedWith, Storage.emit]
  dsimp only
  rw [List.filterMap_append]
  rfl

theorem processed_scheduledFor :
    (s.scheduledFor user now amount unlockAt).processed = s.processed := by
  have hevent : ∀ a g u, Event.processed? (s.scheduleEvent user a g u) = none := fun a g u => by
    rw [Storage.scheduleEvent]
    split <;> rfl
  rw [Storage.processed, Storage.scheduledFor, Storage.emit]
  dsimp only
  rw [List.filterMap_append, List.filterMap_cons_none (hevent _ _ _)]
  exact List.append_nil _

theorem materialized_scheduledFor :
    (s.scheduledFor user now amount unlockAt).materialized = s.materialized := by
  have hevent : ∀ a g u, Event.materialized? (s.scheduleEvent user a g u) = none := fun a g u => by
    rw [Storage.scheduleEvent]
    split <;> rfl
  rw [Storage.materialized, Storage.scheduledFor, Storage.emit]
  dsimp only
  rw [List.filterMap_append, List.filterMap_cons_none (hevent _ _ _)]
  exact List.append_nil _

end Logs

namespace HistorySound

variable {now : ℕ} {user : Address} {flow : Flow} {s s' : Storage} (hh : HistorySound now s)

include hh

/-- **Nothing is processed or materialised**: what is pending is what was, or is new. -/
theorem congr (hprocessed : s'.processed = s.processed) (hmaterialized : s'.materialized = s.materialized)
    (hlive : ∀ g ∈ s.processed, Live s'.wheel g → Live s.wheel g)
    (hpending : ∀ u, s'.generation u ≠ 0 →
      (s'.generation u = s.generation u ∧ (Live s.wheel (s.generation u) →
        Live s'.wheel (s.generation u))) ∨
      (now < s'.generation u ∧ Live s'.wheel (s'.generation u))) : HistorySound now s' where
  processed_nodup := by
    rw [hprocessed]
    exact hh.processed_nodup
  processed_le g hg := hh.processed_le g (by rwa [← hprocessed])
  not_live g hg hl := by
    rw [hprocessed] at hg
    exact hh.not_live g hg (hlive g hg hl)
  processed_of u hu hl := by
    rw [hprocessed]
    rcases hpending u hu with ⟨hsame, hkept⟩ | ⟨-, hlive'⟩
    · rw [hsame] at hu hl ⊢
      exact hh.processed_of u hu fun hc => hl (hkept hc)
    · exact absurd hlive' hl
  materialized_nodup := by
    rw [hmaterialized]
    exact hh.materialized_nodup
  materialized_processed x hx := by
    rw [hmaterialized] at hx
    rw [hprocessed]
    exact hh.materialized_processed x hx
  outstanding u hu := by
    rw [hmaterialized]
    rcases hpending u hu with ⟨hsame, -⟩ | ⟨hlt, -⟩
    · rw [hsame] at hu ⊢
      exact hh.outstanding u hu
    · -- what was materialised was pending before
      intro hc
      have hle := hh.processed_le _ (hh.materialized_processed _ hc)
      dsimp only at hle
      omega

/-- **A move keeps the history sound.** -/
theorem move (h : WheelSound now s) (k : Move now user s flow s') : HistorySound now s' := by
  have hother : ∀ v, v ≠ user → s'.generation v = s.generation v := fun v hv => by
    rw [Storage.generation, k.positions_of_ne hv]
    rfl
  cases k with
  | fees hs =>
    refine hh.congr hs.processed hs.materialized (fun g _ => (WheelSound.live_congr (by rw [hs.wheel])).mp)
      fun u _ => Or.inl ⟨?_, (WheelSound.live_congr (by rw [hs.wheel])).mpr⟩
    rw [Storage.generation, hs.positions]
    rfl
  | checkpoint =>
    have hdue : ∀ g, g ∈ (dueSlots now s.wheel (List.finRange _)).map Slot.generation ↔
        Live s.wheel g ∧ g ≤ now := fun g => by
      rw [List.mem_map]
      constructor
      · rintro ⟨slot, hslot, rfl⟩
        obtain ⟨g, hl, hle, rfl⟩ := h.wheel.mem_dueSlots.mp hslot
        exact ⟨hl, hle⟩
      · rintro ⟨hl, hle⟩
        exact ⟨_, h.wheel.mem_dueSlots.mpr ⟨g, hl, hle, rfl⟩, rfl⟩
    refine ⟨?_, fun g hg => ?_, fun g hg hl => ?_, fun u hu hl => ?_, ?_, fun x hx => ?_, fun u hu => ?_⟩
    · rw [processed_checkpointed]
      refine List.Nodup.append hh.processed_nodup (h.wheel.nodup_dueSlots now) fun g hg hg' => ?_
      exact hh.not_live g hg ((hdue g).mp hg').1
    · rw [processed_checkpointed, List.mem_append, hdue] at hg
      exact hg.elim (hh.processed_le g) And.right
    · obtain ⟨hl, hlt⟩ := live_checkpointed.mp hl
      rw [processed_checkpointed, List.mem_append, hdue] at hg
      rcases hg with hg | hg
      · exact hh.not_live g hg hl
      · exact absurd hg.2 (not_le.mpr hlt)
    · rw [processed_checkpointed, List.mem_append, hdue]
      by_cases hlive : Live s.wheel (s.generation u)
      · refine Or.inr ⟨hlive, not_lt.mp fun hlt => hl ?_⟩
        exact live_checkpointed.mpr ⟨hlive, hlt⟩
      · exact Or.inl (hh.processed_of u hu hlive)
    · rw [materialized_checkpointed]
      exact hh.materialized_nodup
    · rw [materialized_checkpointed] at hx
      rw [processed_checkpointed, List.mem_append]
      exact Or.inl (hh.materialized_processed x hx)
    · rw [materialized_checkpointed]
      exact hh.outstanding u hu
  | @materialize _ settled hgeneration hrefs hsettle =>
    have hself : (s.materializedWith user settled).generation user = 0 := by
      rw [Storage.generation, materializedWith_self]
    have hl := (h.refs_ne_zero_iff hgeneration).mp hrefs
    refine ⟨?_, fun g hg => ?_, fun g hg => ?_, fun u hu hlu => ?_, ?_, fun x hx => ?_, fun u hu => ?_⟩
    · rw [processed_materializedWith]
      exact hh.processed_nodup
    · rw [processed_materializedWith] at hg
      exact hh.processed_le g hg
    · rw [processed_materializedWith] at hg
      exact hh.not_live g hg
    · rw [processed_materializedWith]
      rcases eq_or_ne u user with rfl | hne
      · exact absurd hself hu
      · rw [hother u hne] at hu hlu ⊢
        exact hh.processed_of u hu hlu
    · rw [materialized_materializedWith]
      refine List.Nodup.append hh.materialized_nodup (List.nodup_singleton _) fun x hx hx' => ?_
      rw [List.mem_singleton] at hx'
      subst hx'
      exact hh.outstanding user hgeneration hx
    · rw [processed_materializedWith]
      rw [materialized_materializedWith, List.mem_append, List.mem_singleton] at hx
      rcases hx with hx | rfl
      · exact hh.materialized_processed x hx
      · exact hh.processed_of user hgeneration hl
    · rcases eq_or_ne u user with rfl | hne
      · exact absurd hself hu
      · rw [materialized_materializedWith, List.mem_append, List.mem_singleton, hother u hne]
        rw [hother u hne] at hu
        rintro (hc | hc)
        · exact hh.outstanding u hu hc
        · exact hne (Prod.mk.inj hc).1
  | rewards =>
    refine hh.congr rfl rfl (fun _ _ hl => hl) fun u _ => Or.inl ⟨?_, fun hl => hl⟩
    rcases eq_or_ne u user with rfl | hne
    · rw [Storage.generation, setPosition_self]
      rfl
    · exact hother u hne
  | @schedule amount unlockAt hamount hlive hslot =>
    have hdelay : now < now + activationDelay := Nat.lt_add_of_pos_right (by decide)
    have hlive' : ∀ g, Live (s.scheduledFor user now amount unlockAt).wheel g ↔
        Live (s.wheelWithout user) g ∨ g = now + activationDelay := fun g =>
      live_scheduled (by omega) hslot
    refine hh.congr processed_scheduledFor materialized_scheduledFor (fun g hg hl => ?_) fun u _ => ?_
    · rcases (hlive' g).mp hl with hl | rfl
      · exact of_live_wheelWithout hlive hl
      · exact absurd (hh.processed_le _ hg) (not_le.mpr hdelay)
    · rcases eq_or_ne u user with rfl | hne
      · have hself : (s.scheduledFor u now amount unlockAt).generation u = now + activationDelay := by
          rw [Storage.generation, scheduledFor_self]
        rw [hself]
        exact Or.inr ⟨hdelay, (hlive' _).mpr (Or.inr rfl)⟩
      · exact Or.inl ⟨hother u hne, fun hl => (hlive' _).mpr (Or.inl (live_wheelWithout h hlive hne hl))⟩
  | unschedule hlive =>
    have hwheel : (s.unscheduledFor user).wheel = s.wheelWithout user := (if_neg hlive.1).symm
    refine hh.congr rfl rfl (fun g _ hl => ?_) fun u hu => ?_
    · rw [hwheel] at hl
      exact of_live_wheelWithout (fun _ => hlive) hl
    · rcases eq_or_ne u user with rfl | hne
      · refine absurd ?_ hu
        rw [Storage.generation, unscheduledFor_self]
        rfl
      · rw [hwheel]
        exact Or.inl ⟨hother u hne, live_wheelWithout h (fun _ => hlive) hne⟩
  | forget hgeneration hrefs hle =>
    refine hh.congr rfl rfl (fun _ _ hl => hl) fun u hu => ?_
    rcases eq_or_ne u user with rfl | hne
    · refine absurd ?_ hu
      rw [Storage.generation, forgottenFor_self]
      rfl
    · exact Or.inl ⟨hother u hne, fun hl => hl⟩
  | drop =>
    refine hh.congr rfl rfl (fun _ _ hl => hl) fun u _ => Or.inl ⟨?_, fun hl => hl⟩
    rcases eq_or_ne u user with rfl | hne
    · rw [Storage.generation, droppedFor_self]
      rfl
    · exact hother u hne

end HistorySound

end MemeStockGauge

end TickerGarden
