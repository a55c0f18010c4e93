import TickerGarden.Staking.GaugeRewards

/-!
# The wheel of a gauge

What the functions of a gauge do with its wheel, its snapshots and the stock of its users.
The rewards do not matter here. The invariant is `TickerGarden.MemeStockGauge.WheelSound`:
the wheel represents the pending amounts of the users, the slots that were activated have
a snapshot with a reference for each user that is still pending in it, and the active
total is what the users have that is active or only waits to be materialised.

All functions are made of a few moves: a checkpoint, the materialisation of a user, the
scheduling of an amount, its cancellation, and the removal of what is active.
-/

namespace TickerGarden

open Checked TimingWheel Function

namespace MemeStockGauge

namespace Storage

variable (s : Storage)

/-- The active stock of a user. -/
def activeAmount (u : Address) : ℕ := (s.positions u).activeAmount

/-- The stock of a user that waits for its activation. -/
def pendingAmount (u : Address) : ℕ := (s.positions u).pendingAmount

/-- The generation that the pending stock of a user belongs to. -/
def generation (u : Address) : ℕ := (s.positions u).pendingGeneration

/-- `_effectiveUserActiveStock`: what is active, with what waits to be materialised. -/
def effectiveUserActiveStock (u : Address) : ℕ :=
  s.activeAmount u + if s.pendingAmount u ≠ 0 ∧ (s.snapshots (s.generation u)).refs ≠ 0
    then s.pendingAmount u else 0

/-- The storage after a checkpoint: the slots that are due have a snapshot now. -/
def checkpointed (now : ℕ) (current : RewardIndex → ℕ) : Storage where
  wheel := TimingWheel.checkpointed now s.wheel
  snapshots g := if Live s.wheel g ∧ g ≤ now then ⟨current, owners s.generation g⟩ else s.snapshots g
  positions := s.positions
  rewardStates := s.rewardStates
  forfeiturePrecisionRemainders := s.forfeiturePrecisionRemainders
  deferredForfeiture := s.deferredForfeiture
  observedRewardCohortEpoch := s.observedRewardCohortEpoch
  log := s.log ++ (dueSlots now s.wheel (List.finRange _)).map fun slot =>
    .activationBucketProcessed slot.generation slot.amount current slot.refs

end Storage

/-- **The wheel of a gauge is sound** at a time. -/
structure WheelSound (now : ℕ) (s : Storage) : Prop where
  wheel : Represents s.wheel s.generation s.pendingAmount
  refs : ∀ g, g ≠ 0 →
    (s.snapshots g).refs = if Live s.wheel g then 0 else owners s.generation g
  deleted : ∀ g, (s.snapshots g).refs = 0 → s.snapshots g = .empty
  generation_le : ∀ u, s.generation u ≤ now + activationDelay
  live : ∀ u, now < s.generation u → Live s.wheel (s.generation u)
  active : s.wheel.active = ∑ u, s.effectiveUserActiveStock u

theorem wheelSound_empty (now : ℕ) : WheelSound now Storage.empty where
  wheel := ⟨fun _ => Or.inl rfl, Finset.sum_const_zero.symm, fun _ => Iff.rfl⟩
  refs g hg := by
    have hnone : owners Storage.empty.generation g = 0 := by
      rw [owners, bucket, Sums.sum_eq_zero]
      exact fun u => if_neg hg.symm
    rw [hnone, ite_self]
    rfl
  deleted _ _ := rfl
  generation_le _ := Nat.zero_le _
  live _ h := absurd h (Nat.not_lt_zero _)
  active := Finset.sum_const_zero.symm

/-! ### Snapshots -/

namespace StoredActivationSnapshot

variable {snapshot : StoredActivationSnapshot}

@[simp] theorem release_refs : snapshot.release.refs = snapshot.refs - 1 := by
  rw [release]
  split
  · rename_i hone
    rw [hone]
    rfl
  · rfl

/-- The last reference deletes the snapshot. -/
theorem release_eq_empty (hne : snapshot.refs ≠ 0) (hzero : snapshot.release.refs = 0) :
    snapshot.release = .empty := by
  rw [release_refs] at hzero
  exact if_pos (by omega)

end StoredActivationSnapshot

section Snapshots

variable {current : RewardIndex → ℕ} {s s' : Storage} {slots : List Slot}

/-- The storage after some slots were recorded. -/
def recorded (current : RewardIndex → ℕ) (s : Storage) (slots : List Slot) : Storage :=
  slots.foldl (fun s slot => (s.setSnapshot slot.generation ⟨current, slot.refs⟩).emit
    (.activationBucketProcessed slot.generation slot.amount current slot.refs)) s

/-- A slot can be recorded that has a reference and no snapshot. -/
theorem recordActivationSnapshot_eq_ok {slot : Slot} :
    recordActivationSnapshot current slot s = .ok s' ↔
      slot.refs ≠ 0 ∧ ((s.snapshots slot.generation).accumulator .quote = 0 ∧
        (s.snapshots slot.generation).accumulator .meme = 0 ∧
        (s.snapshots slot.generation).refs = 0) ∧ s' = recorded current s [slot] := by
  simp only [recordActivationSnapshot, bind_eq_ok, revertIf_eq_ok, pure_eq_ok, Except.ok.injEq,
    not_or, not_not, exists_const]
  rw [eq_comm (b := s')]
  rfl

/-- Recording slots touches the snapshots and the log, and nothing else. -/
theorem recorded_eq (slots : List Slot) (s : Storage) :
    recorded current s slots = { s with
      snapshots := (recorded current s slots).snapshots
      log := s.log ++ slots.map fun slot =>
        .activationBucketProcessed slot.generation slot.amount current slot.refs } := by
  induction slots generalizing s with
  | nil =>
    rw [List.map_nil, List.append_nil]
    rfl
  | cons slot slots ih =>
    have hstep : recorded current s (slot :: slots)
        = recorded current (recorded current s [slot]) slots := rfl
    rw [hstep, ih, List.map_cons, List.append_cons]
    rfl

variable (current) in
/-- The snapshot of a slot that is recorded. -/
theorem recorded_snapshots (hnd : (slots.map Slot.generation).Nodup) (s : Storage) :
    (∀ slot ∈ slots, (recorded current s slots).snapshots slot.generation = ⟨current, slot.refs⟩) ∧
      ∀ g, g ∉ slots.map Slot.generation → (recorded current s slots).snapshots g = s.snapshots g := by
  induction slots generalizing s with
  | nil => exact ⟨fun slot hslot => absurd hslot List.not_mem_nil, fun _ _ => rfl⟩
  | cons slot slots ih =>
    rw [List.map_cons, List.nodup_cons] at hnd
    obtain ⟨hfirst, hrest⟩ := ih hnd.2 (recorded current s [slot])
    have hstep : recorded current s (slot :: slots)
        = recorded current (recorded current s [slot]) slots := rfl
    rw [hstep]
    refine ⟨fun slot' hslot' => ?_, fun g hg => ?_⟩
    · rcases List.mem_cons.mp hslot' with rfl | hmem
      · -- the first slot is not recorded again
        rw [hrest _ hnd.1]
        exact update_self ..
      · exact hfirst slot' hmem
    · rw [List.map_cons, List.mem_cons, not_or] at hg
      rw [hrest g hg.2]
      exact update_of_ne hg.1 ..

/-- **Slots without a snapshot can be recorded.** -/
theorem foldlM_recordActivationSnapshot (hnd : (slots.map Slot.generation).Nodup)
    (hrefs : ∀ slot ∈ slots, slot.refs ≠ 0)
    (hempty : ∀ slot ∈ slots, s.snapshots slot.generation = .empty) :
    slots.foldlM (fun s slot => recordActivationSnapshot current slot s) s
      = .ok (recorded current s slots) := by
  induction slots generalizing s with
  | nil => rfl
  | cons slot slots ih =>
    rw [List.map_cons, List.nodup_cons] at hnd
    have hfirst : recordActivationSnapshot current slot s = .ok (recorded current s [slot]) := by
      rw [recordActivationSnapshot_eq_ok, hempty slot List.mem_cons_self]
      exact ⟨hrefs slot List.mem_cons_self, ⟨rfl, rfl, rfl⟩, rfl⟩
    rw [List.foldlM_cons, hfirst, ok_bind]
    refine ih hnd.2 (fun t ht => hrefs t (List.mem_cons_of_mem _ ht)) fun t ht => ?_
    have hne : t.generation ≠ slot.generation := fun hc =>
      hnd.1 (hc ▸ List.mem_map_of_mem ht)
    rw [← hempty t (List.mem_cons_of_mem _ ht)]
    exact update_of_ne hne ..

end Snapshots

section Effective

variable {s : Storage} {user : Address}

theorem refs_ne_zero_of (hrefs : (s.snapshots (s.generation user)).refs
      = if Live s.wheel (s.generation user) then 0 else owners s.generation (s.generation user)) :
    (s.snapshots (s.generation user)).refs ≠ 0 ↔ ¬ Live s.wheel (s.generation user) := by
  rw [hrefs]
  split
  · rename_i hl
    exact iff_of_false (fun hc => hc rfl) (not_not.mpr hl)
  · rename_i hl
    exact iff_of_true (Nat.one_le_iff_ne_zero.mp (one_le_owners rfl)) hl

/-- What counts for a user is what is active, and what is not in the wheel any more. -/
theorem effectiveUserActiveStock_eq (hzero : s.generation user = 0 ↔ s.pendingAmount user = 0)
    (hrefs : s.generation user ≠ 0 → (s.snapshots (s.generation user)).refs
      = if Live s.wheel (s.generation user) then 0 else owners s.generation (s.generation user)) :
    s.effectiveUserActiveStock user = s.activeAmount user +
      if s.generation user ≠ 0 ∧ ¬ Live s.wheel (s.generation user)
        then s.pendingAmount user else 0 := by
  rw [Storage.effectiveUserActiveStock]
  congr 1
  refine if_congr ?_ rfl rfl
  rw [Ne, ← hzero]
  exact and_congr_right fun hg => refs_ne_zero_of (hrefs hg)

end Effective

namespace WheelSound

variable {now : ℕ} {current : RewardIndex → ℕ} {s s' : Storage} {user : Address}
  (h : WheelSound now s)

include h

/-- Time passes, and the wheel stays sound. -/
theorem mono {t : ℕ} (hle : now ≤ t) : WheelSound t s where
  wheel := h.wheel
  refs := h.refs
  deleted := h.deleted
  generation_le u := (h.generation_le u).trans (Nat.add_le_add_right hle _)
  live u hu := h.live u (hle.trans_lt hu)
  active := h.active

/-- **A generation in the wheel** is at most thirty seconds away. -/
theorem live_le {g : ℕ} (hl : Live s.wheel g) : g ≤ now + activationDelay := by
  obtain ⟨u, rfl⟩ := h.wheel.exists_owner hl
  exact h.generation_le u

/-- A generation that is in the wheel has no snapshot. -/
theorem snapshot_of_live {g : ℕ} (hl : Live s.wheel g) : s.snapshots g = .empty :=
  h.deleted g (by rw [h.refs g hl.1, if_pos hl])

/-- A user whose slot was activated has a reference of its snapshot, and only such a user. -/
theorem refs_ne_zero_iff (hg : s.generation user ≠ 0) :
    (s.snapshots (s.generation user)).refs ≠ 0 ↔ ¬ Live s.wheel (s.generation user) :=
  refs_ne_zero_of (h.refs _ hg)

theorem generation_eq_zero : s.generation user = 0 ↔ s.pendingAmount user = 0 := h.wheel.zero user

/-- What counts for a user. -/
theorem effective_eq : s.effectiveUserActiveStock user = s.activeAmount user +
    if s.generation user ≠ 0 ∧ ¬ Live s.wheel (s.generation user) then s.pendingAmount user else 0 :=
  effectiveUserActiveStock_eq (h.wheel.zero user) fun hg => h.refs _ hg

/-- The slots that are due can be recorded. -/
theorem foldlM_dueSlots :
    (dueSlots now s.wheel (List.finRange _)).foldlM
        (fun s slot => recordActivationSnapshot current slot s) s
      = .ok (recorded current s (dueSlots now s.wheel (List.finRange _))) := by
  refine foldlM_recordActivationSnapshot (h.wheel.nodup_dueSlots now) (fun slot hslot => ?_)
    fun slot hslot => ?_
  · obtain ⟨g, hl, -, rfl⟩ := h.wheel.mem_dueSlots.mp hslot
    dsimp only
    rw [Ne, ← bucket_eq_zero_iff h.wheel.zero hl.1]
    exact (h.wheel.wheel_of_live hl).2
  · obtain ⟨g, hl, -, rfl⟩ := h.wheel.mem_dueSlots.mp hslot
    exact h.snapshot_of_live hl

/-- **What a checkpoint does.** -/
theorem of_checkpointWheel (hok : checkpointWheel now current s = .ok s') :
    s' = s.checkpointed now current := by
  simp only [checkpointWheel, bind_eq_ok, pure_eq_ok, Except.ok.injEq] at hok
  obtain ⟨⟨wheel, side⟩, hcheck, rfl⟩ := hok
  obtain ⟨hwheel, hrec⟩ := h.wheel.of_checkpoint hcheck
  rw [h.foldlM_dueSlots, Except.ok.injEq] at hrec
  -- the snapshots are those of the slots that are due
  have hsnapshots : (recorded current s (dueSlots now s.wheel (List.finRange _))).snapshots
      = (s.checkpointed now current).snapshots := by
    obtain ⟨hdue, hother⟩ := recorded_snapshots current (h.wheel.nodup_dueSlots now) s
    funext g
    by_cases hg : Live s.wheel g ∧ g ≤ now
    · have hrecorded := hdue _ (h.wheel.mem_dueSlots.mpr ⟨g, hg.1, hg.2, rfl⟩)
      dsimp only at hrecorded
      rw [hrecorded, Storage.checkpointed]
      dsimp only
      rw [if_pos hg]
    · rw [hother g fun hc => ?_, Storage.checkpointed]
      · dsimp only
        rw [if_neg hg]
      · obtain ⟨slot, hslot, rfl⟩ := List.mem_map.mp hc
        obtain ⟨g, hl, hle, rfl⟩ := h.wheel.mem_dueSlots.mp hslot
        exact hg ⟨hl, hle⟩
  rw [hwheel, ← hrec, recorded_eq, hsnapshots]
  rfl

/-- **How a checkpoint fails**: only its arithmetic can. -/
theorem checkpointWheel_error {e : Revert} (herr : checkpointWheel now current s = .error e) :
    e = .panic .arithmetic := by
  rw [checkpointWheel, bind_eq_error] at herr
  rcases herr with herr | ⟨_, -, herr⟩
  · exact h.wheel.checkpoint_error h.foldlM_dueSlots herr
  · cases herr

/-! ### The moves -/

omit h in
/-- Who is in the wheel is a matter of its slots. -/
theorem live_congr {l l' : Ledger activationWheelSize} {g : ℕ} (hwheel : l'.wheel = l.wheel) :
    Live l' g ↔ Live l g := by
  rw [Live, Live, hwheel]

/-- What is due becomes part of what counts. -/
theorem effective_checkpointed (u : Address) :
    (s.checkpointed now current).effectiveUserActiveStock u = s.effectiveUserActiveStock u +
      if Live s.wheel (s.generation u) ∧ s.generation u ≤ now then s.pendingAmount u else 0 := by
  have hzero : s.generation u = 0 ↔ s.pendingAmount u = 0 := h.generation_eq_zero
  rw [h.effective_eq, Nat.add_assoc]
  show s.activeAmount u + (if s.pendingAmount u ≠ 0 ∧ (if Live s.wheel (s.generation u) ∧
      s.generation u ≤ now then (⟨current, owners s.generation (s.generation u)⟩ :
        StoredActivationSnapshot) else s.snapshots (s.generation u)).refs ≠ 0
    then s.pendingAmount u else 0) = _
  congr 1
  by_cases hg : s.generation u = 0
  · rw [if_neg fun hc => hc.1 (hzero.mp hg), if_neg fun hc => hc.1 hg, if_neg fun hc => hc.1.1 hg]
  · have hpending : s.pendingAmount u ≠ 0 := fun hc => hg (hzero.mpr hc)
    by_cases hl : Live s.wheel (s.generation u)
    · rw [if_neg fun hc : s.generation u ≠ 0 ∧ ¬ Live s.wheel (s.generation u) => hc.2 hl,
        Nat.zero_add]
      refine if_congr ?_ rfl rfl
      by_cases hle : s.generation u ≤ now
      · have howners : owners s.generation (s.generation u) ≠ 0 :=
          Nat.one_le_iff_ne_zero.mp (one_le_owners rfl)
        rw [if_pos ⟨hl, hle⟩]
        dsimp only
        exact iff_of_true ⟨hpending, howners⟩ ⟨hl, hle⟩
      · rw [if_neg fun hc => hle hc.2, h.snapshot_of_live hl]
        exact iff_of_false (fun hc => hc.2 rfl) fun hc => hle hc.2
    · have hrefs := (h.refs_ne_zero_iff hg).mpr hl
      rw [if_neg fun hc : Live s.wheel (s.generation u) ∧ s.generation u ≤ now => hl hc.1,
        if_pos ⟨hpending, hrefs⟩, if_pos ⟨hg, hl⟩,
        if_neg fun hc : Live s.wheel (s.generation u) ∧ s.generation u ≤ now => hl hc.1,
        Nat.add_zero]

/-- **A checkpoint keeps the wheel sound.** -/
theorem checkpointed : WheelSound now (s.checkpointed now current) where
  wheel := h.wheel.checkpointed
  refs g hg := by
    show (if Live s.wheel g ∧ g ≤ now then (⟨current, owners s.generation g⟩ :
        StoredActivationSnapshot) else s.snapshots g).refs
      = if Live (TimingWheel.checkpointed now s.wheel) g then 0 else owners s.generation g
    rw [if_congr TimingWheel.live_checkpointed rfl rfl]
    by_cases hl : Live s.wheel g
    · by_cases hle : g ≤ now
      · rw [if_pos ⟨hl, hle⟩, if_neg fun hc => absurd hc.2 (not_lt.mpr hle)]
      · rw [if_neg fun hc => hle hc.2, if_pos ⟨hl, not_le.mp hle⟩, h.refs g hg, if_pos hl]
    · rw [if_neg fun hc => hl hc.1, if_neg fun hc => hl hc.1, h.refs g hg, if_neg hl]
  deleted g hrefs := by
    by_cases hg : Live s.wheel g ∧ g ≤ now
    · -- somebody is pending at a slot that is due
      have hsnapshot : (s.checkpointed now current).snapshots g
          = ⟨current, owners s.generation g⟩ := if_pos hg
      rw [hsnapshot] at hrefs
      dsimp only at hrefs
      exact absurd ((bucket_eq_zero_iff h.wheel.zero hg.1.1).mpr hrefs) (h.wheel.wheel_of_live hg.1).2
    · have hsnapshot : (s.checkpointed now current).snapshots g = s.snapshots g := if_neg hg
      rw [hsnapshot] at hrefs ⊢
      exact h.deleted g hrefs
  generation_le := h.generation_le
  live u hu := TimingWheel.live_checkpointed.mpr ⟨h.live u hu, hu⟩
  active := by
    rw [Finset.sum_congr rfl fun u _ => h.effective_checkpointed u, Finset.sum_add_distrib,
      ← h.active, ← h.wheel.dueAmount_eq]
    rfl

/-- **One user's position is replaced**: what the rest has to do for the wheel to stay
sound. -/
theorem replaced (hother : ∀ v, v ≠ user → s'.positions v = s.positions v)
    (hwheel : Represents s'.wheel s'.generation s'.pendingAmount)
    (hrefs : ∀ g, g ≠ 0 →
      (s'.snapshots g).refs = if Live s'.wheel g then 0 else owners s'.generation g)
    (hdeleted : ∀ g, (s'.snapshots g).refs = 0 → s'.snapshots g = .empty)
    (hgeneration : s'.generation user ≤ now + activationDelay)
    (hlive : now < s'.generation user → Live s'.wheel (s'.generation user))
    (hlive_other : ∀ v, v ≠ user →
      (Live s'.wheel (s.generation v) ↔ Live s.wheel (s.generation v)))
    (hactive : s'.wheel.active + s.effectiveUserActiveStock user
      = s.wheel.active + s'.effectiveUserActiveStock user) : WheelSound now s' where
  wheel := hwheel
  refs := hrefs
  deleted := hdeleted
  generation_le v := by
    rcases eq_or_ne v user with rfl | hne
    · exact hgeneration
    · rw [Storage.generation, hother v hne]
      exact h.generation_le v
  live v hv := by
    rcases eq_or_ne v user with rfl | hne
    · exact hlive hv
    · have hsame : s'.generation v = s.generation v := by
        rw [Storage.generation, hother v hne, Storage.generation]
      rw [hsame] at hv ⊢
      exact (hlive_other v hne).mpr (h.live v hv)
  active := by
    have heffective : ∀ v, v ≠ user →
        s'.effectiveUserActiveStock v = s.effectiveUserActiveStock v := fun v hne => by
      have hgen : s'.generation v = s.generation v := by
        rw [Storage.generation, hother v hne, Storage.generation]
      rw [effectiveUserActiveStock_eq (hwheel.zero v) fun hg => hrefs _ hg, h.effective_eq, hgen,
        Storage.activeAmount, Storage.pendingAmount, hother v hne]
      exact congrArg _ (if_congr (and_congr_right' (not_congr (hlive_other v hne))) rfl rfl)
    have hsum := Sums.sum_of_eq_off s.effectiveUserActiveStock s'.effectiveUserActiveStock heffective
    have := h.active
    omega

/-- **Nothing happens to the stock.** -/
theorem congr (hwheel : s'.wheel = s.wheel) (hsnapshots : s'.snapshots = s.snapshots)
    (hgeneration : s'.generation = s.generation) (hpending : s'.pendingAmount = s.pendingAmount)
    (hactive : s'.activeAmount = s.activeAmount) : WheelSound now s' where
  wheel := by
    rw [hwheel, hgeneration, hpending]
    exact h.wheel
  refs g hg := by
    rw [hwheel, hsnapshots, hgeneration]
    exact h.refs g hg
  deleted g hg := by
    rw [hsnapshots] at hg ⊢
    exact h.deleted g hg
  generation_le u := by
    rw [hgeneration]
    exact h.generation_le u
  live u hu := by
    rw [hgeneration] at hu ⊢
    rw [hwheel]
    exact h.live u hu
  active := by
    have heffective : s'.effectiveUserActiveStock = s.effectiveUserActiveStock := by
      funext u
      rw [Storage.effectiveUserActiveStock, Storage.effectiveUserActiveStock, hsnapshots,
        hgeneration, hpending, hactive]
    rw [hwheel, heffective]
    exact h.active

omit h in
/-- The positions of the others, as the wheel sees them. -/
theorem other_eq (hother : ∀ v, v ≠ user → s'.positions v = s.positions v) :
    (∀ v, v ≠ user → s'.generation v = s.generation v) ∧
      ∀ v, v ≠ user → s'.pendingAmount v = s.pendingAmount v :=
  ⟨fun v hv => congrArg GaugePosition.pendingGeneration (hother v hv),
    fun v hv => congrArg GaugePosition.pendingAmount (hother v hv)⟩

/-- **A user leaves the snapshot of its generation**: materialised, or cancelled. -/
theorem forgotten (hg : s.generation user ≠ 0) (hl : ¬ Live s.wheel (s.generation user))
    (hother : ∀ v, v ≠ user → s'.positions v = s.positions v) (hgen : s'.generation user = 0)
    (hpending : s'.pendingAmount user = 0) (hslots : s'.wheel.wheel = s.wheel.wheel)
    (htotal : s'.wheel.pending = s.wheel.pending)
    (hsnapshots : s'.snapshots = update s.snapshots (s.generation user)
      (s.snapshots (s.generation user)).release)
    (hactive : s'.wheel.active + s.activeAmount user + s.pendingAmount user
      = s.wheel.active + s'.activeAmount user) : WheelSound now s' := by
  obtain ⟨hother_gen, hother_pending⟩ := other_eq hother
  have hlive : ∀ g, Live s'.wheel g ↔ Live s.wheel g := fun g => live_congr hslots
  have hwheel : Represents s'.wheel s'.generation s'.pendingAmount :=
    (h.wheel.forget hl hother_gen hother_pending hgen hpending).congr hslots htotal
  -- the snapshot has one reference less, as the generation has one owner less
  have hrefs₀ : (s.snapshots (s.generation user)).refs = owners s.generation (s.generation user) := by
    rw [h.refs _ hg, if_neg hl]
  have hone : 1 ≤ owners s.generation (s.generation user) := one_le_owners rfl
  have howners : ∀ g, g ≠ 0 → owners s'.generation g + (if s.generation user = g then 1 else 0)
      = owners s.generation g := fun g hg' => by
    rw [owners_of_eq_off g hother_gen, if_neg (by rw [hgen]; exact hg'.symm), Nat.add_zero]
  have hself : s'.snapshots (s.generation user) = (s.snapshots (s.generation user)).release := by
    rw [hsnapshots, update_self]
  have hne : ∀ g, g ≠ s.generation user → s'.snapshots g = s.snapshots g := fun g hne => by
    rw [hsnapshots, update_of_ne hne]
  have hrefs : ∀ g, g ≠ 0 →
      (s'.snapshots g).refs = if Live s'.wheel g then 0 else owners s'.generation g := by
    intro g hg'
    have hg'' := howners g hg'
    rw [if_congr (hlive g) rfl rfl]
    rcases eq_or_ne g (s.generation user) with rfl | hgne
    · rw [if_pos rfl] at hg''
      rw [hself, StoredActivationSnapshot.release_refs, if_neg hl]
      omega
    · rw [if_neg hgne.symm, Nat.add_zero] at hg''
      rw [hne g hgne, h.refs g hg', hg'']
  refine h.replaced hother hwheel hrefs (fun g hzero => ?_) ?_ ?_ (fun v _ => hlive _) ?_
  · rcases eq_or_ne g (s.generation user) with rfl | hgne
    · rw [hself] at hzero ⊢
      exact StoredActivationSnapshot.release_eq_empty (by omega) hzero
    · rw [hne g hgne] at hzero ⊢
      exact h.deleted g hzero
  · rw [hgen]
    exact Nat.zero_le _
  · rw [hgen]
    exact fun hc => absurd hc (Nat.not_lt_zero _)
  · rw [h.effective_eq, if_pos ⟨hg, hl⟩,
      effectiveUserActiveStock_eq (hwheel.zero user) fun hc => hrefs _ hc,
      if_neg fun hc => hc.1 hgen]
    omega

/-- **A pending amount is taken out of the wheel.** -/
theorem cancelled (hl : Live s.wheel (s.generation user))
    (hother : ∀ v, v ≠ user → s'.positions v = s.positions v) (hgen : s'.generation user = 0)
    (hpending : s'.pendingAmount user = 0) (hactive : s'.activeAmount user = s.activeAmount user)
    (hwheel' : s'.wheel = unscheduled s.wheel (s.generation user) (s.pendingAmount user))
    (hsnapshots : s'.snapshots = s.snapshots) : WheelSound now s' := by
  obtain ⟨hother_gen, hother_pending⟩ := other_eq hother
  have hwheel : Represents s'.wheel s'.generation s'.pendingAmount := by
    rw [hwheel']
    exact h.wheel.unscheduled hl hother_gen hother_pending hgen hpending
  -- the others are in the wheel as before
  have hlive_of_ne : ∀ g, g ≠ s.generation user → (Live s'.wheel g ↔ Live s.wheel g) :=
    fun g hne => by
      rw [hwheel']
      exact live_unscheduled_of_ne hl.2 hne
  have hlive_other : ∀ v, v ≠ user →
      (Live s'.wheel (s.generation v) ↔ Live s.wheel (s.generation v)) := fun v hv => by
    by_cases hne : s.generation v = s.generation user
    · rw [hwheel']
      refine iff_of_true (h.wheel.live_unscheduled hl hv ?_) ?_
      · rw [hne]
        exact hl
      · rw [hne]
        exact hl
    · exact hlive_of_ne _ hne
  have hrefs : ∀ g, g ≠ 0 →
      (s'.snapshots g).refs = if Live s'.wheel g then 0 else owners s'.generation g := by
    intro g hg
    rw [hsnapshots, h.refs g hg]
    rcases eq_or_ne g (s.generation user) with rfl | hne
    · rw [if_pos hl]
      split
      · rfl
      · -- an emptied slot has no owner left
        rename_i hgone
        symm
        rw [owners, bucket, Sums.sum_eq_zero]
        intro v
        refine if_neg fun hv => ?_
        rcases eq_or_ne v user with rfl | hvu
        · exact hg (hv.symm.trans hgen)
        · rw [hother_gen v hvu] at hv
          refine hgone ?_
          rw [← hv]
          exact (hlive_other v hvu).mpr (by rw [hv]; exact hl)
    · have howners := owners_of_eq_off g hother_gen
      rw [if_neg hne.symm, if_neg (by rw [hgen]; exact hg.symm), Nat.add_zero, Nat.add_zero] at howners
      rw [if_congr (hlive_of_ne g hne) rfl rfl, howners]
  refine h.replaced hother hwheel hrefs (fun g hzero => ?_) ?_ ?_ hlive_other ?_
  · rw [hsnapshots] at hzero ⊢
    exact h.deleted g hzero
  · rw [hgen]
    exact Nat.zero_le _
  · rw [hgen]
    exact fun hc => absurd hc (Nat.not_lt_zero _)
  · rw [h.effective_eq, if_neg fun hc : _ ∧ ¬ Live s.wheel (s.generation user) => hc.2 hl,
      effectiveUserActiveStock_eq (hwheel.zero user) fun hc => hrefs _ hc, if_neg fun hc => hc.1 hgen,
      hactive, hwheel']
    rfl

/-- **An amount is scheduled** for a user that has nothing pending. -/
theorem scheduled {amount : ℕ} (hg : s.generation user = 0) (hamount : amount ≠ 0)
    (hslot : (s.wheel.wheel (slotIndex _ (now + activationDelay))).generation = 0 ∨
      (s.wheel.wheel (slotIndex _ (now + activationDelay))).generation = now + activationDelay)
    (hother : ∀ v, v ≠ user → s'.positions v = s.positions v)
    (hgen : s'.generation user = now + activationDelay) (hpending : s'.pendingAmount user = amount)
    (hactive : s'.activeAmount user = s.activeAmount user)
    (hwheel' : s'.wheel = TimingWheel.scheduled s.wheel (now + activationDelay) amount)
    (hsnapshots : s'.snapshots = s.snapshots) : WheelSound now s' := by
  obtain ⟨hother_gen, hother_pending⟩ := other_eq hother
  have hdelay : now < now + activationDelay := Nat.lt_add_of_pos_right (by decide)
  have hpos : now + activationDelay ≠ 0 := Nat.ne_zero_of_lt hdelay
  -- whoever has this generation is in the wheel
  have hfresh : ∀ v, s.generation v = now + activationDelay →
      Live s.wheel (now + activationDelay) := fun v hv => by
    rw [← hv]
    exact h.live v (by omega)
  have hwheel : Represents s'.wheel s'.generation s'.pendingAmount := by
    rw [hwheel']
    exact h.wheel.scheduled hg hother_gen hother_pending hgen hpending hpos hamount hslot hfresh
  have hlive : ∀ g, Live s'.wheel g ↔ Live s.wheel g ∨ g = now + activationDelay := fun g => by
    rw [hwheel']
    exact live_scheduled hpos hslot
  have hrefs : ∀ g, g ≠ 0 →
      (s'.snapshots g).refs = if Live s'.wheel g then 0 else owners s'.generation g := by
    intro g hg'
    rw [hsnapshots, h.refs g hg', if_congr (hlive g) rfl rfl]
    rcases eq_or_ne g (now + activationDelay) with rfl | hne
    · rw [if_pos (Or.inr rfl)]
      split
      · rfl
      · rename_i hgone
        rw [owners, bucket, Sums.sum_eq_zero]
        exact fun v => if_neg fun hv => hgone (hfresh v hv)
    · have howners := owners_of_eq_off g hother_gen
      rw [if_neg (by rw [hg]; exact hg'.symm), if_neg (by rw [hgen]; exact hne.symm), Nat.add_zero,
        Nat.add_zero] at howners
      rw [howners]
      exact if_congr (or_iff_left hne).symm rfl rfl
  refine h.replaced hother hwheel hrefs (fun g hzero => ?_) (by rw [hgen]) ?_ (fun v _ => ?_) ?_
  · rw [hsnapshots] at hzero ⊢
    exact h.deleted g hzero
  · rw [hgen]
    exact fun _ => (hlive _).mpr (Or.inr rfl)
  · rw [hlive]
    exact or_iff_left_of_imp fun hv => by
      rw [hv]
      exact hfresh v hv
  · rw [h.effective_eq, if_neg fun hc => hc.1 hg,
      effectiveUserActiveStock_eq (hwheel.zero user) fun hc => hrefs _ hc,
      if_neg fun hc : s'.generation user ≠ 0 ∧ ¬ Live s'.wheel (s'.generation user) =>
        hc.2 ((hlive _).mpr (Or.inr hgen)), hactive, hwheel']
    rfl

/-- **What is active is taken out.** -/
theorem dropped (hother : ∀ v, v ≠ user → s'.positions v = s.positions v)
    (hgen : s'.generation user = s.generation user)
    (hpending : s'.pendingAmount user = s.pendingAmount user)
    (hslots : s'.wheel.wheel = s.wheel.wheel) (htotal : s'.wheel.pending = s.wheel.pending)
    (hsnapshots : s'.snapshots = s.snapshots)
    (hactive : s'.wheel.active + s.activeAmount user = s.wheel.active + s'.activeAmount user) :
    WheelSound now s' := by
  have hgeneration : s'.generation = s.generation := by
    funext v
    rcases eq_or_ne v user with rfl | hne
    · exact hgen
    · exact (other_eq hother).1 v hne
  have hamount : s'.pendingAmount = s.pendingAmount := by
    funext v
    rcases eq_or_ne v user with rfl | hne
    · exact hpending
    · exact (other_eq hother).2 v hne
  have hlive : ∀ g, Live s'.wheel g ↔ Live s.wheel g := fun g => live_congr hslots
  refine h.replaced hother ?_ (fun g hg => ?_) (fun g hzero => ?_) ?_ (fun hv => ?_)
    (fun v _ => hlive _) ?_
  · rw [hgeneration, hamount]
    exact h.wheel.congr hslots htotal
  · rw [hsnapshots, h.refs g hg, hgeneration]
    exact (if_congr (hlive g) rfl rfl).symm
  · rw [hsnapshots] at hzero ⊢
    exact h.deleted g hzero
  · rw [hgen]
    exact h.generation_le user
  · rw [hgen] at hv ⊢
    exact (hlive _).mpr (h.live user hv)
  · rw [Storage.effectiveUserActiveStock, Storage.effectiveUserActiveStock, hsnapshots, hgen, hpending]
    omega

end WheelSound

end MemeStockGauge

end TickerGarden
