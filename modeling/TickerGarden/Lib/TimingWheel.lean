import TickerGarden.Lib.Checked
import TickerGarden.Lib.Sums

/-!
# Timing wheels

A timing wheel keeps, in a fixed number of slots, amounts that become *active* at a
given time, their **generation**: an amount of generation `g` is kept in the slot
`g mod n`, together with the other amounts of the same generation, and the slot counts
them. Two generations cannot share a slot, so whoever schedules has to keep them apart.
Time does not move the wheel. A **checkpoint** does: it empties the slots whose
generation has come and adds what was in them to the active amount.

| operation                  | what it does                                              |
|----------------------------|-----------------------------------------------------------|
| `TimingWheel.schedule`     | adds an amount to the slot of a generation                |
| `TimingWheel.unschedule`   | takes an amount out of the slot of its generation         |
| `TimingWheel.checkpoint`   | activates the slots that are due, recording each of them  |
| `TimingWheel.eligible`     | the active amount there would be after a checkpoint       |

The owners of the amounts keep the generation and the amount themselves, and are told
nothing by a checkpoint. `TimingWheel.Represents` says what a wheel has to do with
them: a slot that is used holds exactly the amounts of its generation. An owner whose
amount is still in the wheel is `TimingWheel.Live`.
-/

namespace TimingWheel

open Checked Function

/-- One slot: the amounts that become active at a generation, and how many they are. -/
structure Slot where
  generation : ℕ
  amount : ℕ
  refs : ℕ
deriving DecidableEq

/-- A slot that is not used. -/
def Slot.empty : Slot := ⟨0, 0, 0⟩

@[simp] theorem Slot.empty_generation : Slot.empty.generation = 0 := rfl

@[simp] theorem Slot.empty_amount : Slot.empty.amount = 0 := rfl

/-- A slot that is used, and whose generation has come. -/
def Slot.Due (now : ℕ) (s : Slot) : Prop := s.generation ≠ 0 ∧ s.generation ≤ now

instance (now : ℕ) (s : Slot) : Decidable (s.Due now) := inferInstanceAs (Decidable (_ ∧ _))

@[simp] theorem Slot.not_due_empty {now : ℕ} : ¬ Slot.empty.Due now := fun h => h.1 rfl

/-- A wheel, the amount that is active and the amount that is in the wheel. -/
structure Ledger (n : ℕ) where
  wheel : Fin n → Slot
  active : ℕ
  pending : ℕ

/-- A wheel with nothing in it. -/
def Ledger.empty (n : ℕ) : Ledger n := ⟨fun _ => Slot.empty, 0, 0⟩

/-- The errors of a wheel. -/
structure Errors (ε : Type) where
  invalidBucket : ℕ → ℕ → ε
  collision : ℕ → ℕ → ℕ → ε
  notFound : ℕ → ε
  invalidSlot : ℕ → ℕ → ℕ → ℕ → ε

section Operations

variable {ε σ : Type} [Panics ε] (E : Errors ε) {n : ℕ} [NeZero n]

/-- The slot of a generation. -/
def slotIndex (n : ℕ) [NeZero n] (generation : ℕ) : Fin n := Fin.ofNat n generation

/-- Add an amount to the slot of its generation. -/
def schedule (l : Ledger n) (generation amount refs : ℕ) : Except ε (Ledger n) := do
  revertIf (amount = 0 ∨ refs = 0) (E.invalidBucket amount refs)
  let i := slotIndex n generation
  let slot := l.wheel i
  revertIf (slot.generation ≠ 0 ∧ slot.generation ≠ generation)
    (E.collision i slot.generation generation)
  let slotAmount ← uadd slot.amount amount
  let slotRefs ← uadd slot.refs refs
  let pending ← uadd l.pending amount
  return { l with wheel := update l.wheel i ⟨generation, slotAmount, slotRefs⟩, pending }

/-- Take an amount out of the slot of its generation. -/
def unschedule (l : Ledger n) (generation amount refs : ℕ) : Except ε (Ledger n) := do
  revertIf (amount = 0 ∨ refs = 0) (E.invalidBucket amount refs)
  let i := slotIndex n generation
  let slot := l.wheel i
  revertIf (slot.generation ≠ generation ∨ slot.amount < amount ∨ slot.refs < refs)
    (E.notFound generation)
  let remainingAmount := slot.amount - amount
  let remainingRefs := slot.refs - refs
  revertIf (¬ (remainingAmount = 0 ↔ remainingRefs = 0))
    (E.invalidSlot i generation remainingAmount remainingRefs)
  let pending ← usub l.pending amount
  let remaining :=
    if remainingAmount = 0 then Slot.empty else ⟨slot.generation, remainingAmount, remainingRefs⟩
  return { l with wheel := update l.wheel i remaining, pending }

/-- One round of a checkpoint: the slot at `i` is activated if it is due, and recorded. -/
def checkpointSlot (record : Slot → σ → Except ε σ) (now : ℕ) (x : Ledger n × σ) (i : Fin n) :
    Except ε (Ledger n × σ) :=
  let slot := x.1.wheel i
  if ¬ slot.Due now then .ok x
  else do
    revertIf (slot.amount = 0 ∨ slot.refs = 0)
      (E.invalidSlot i slot.generation slot.amount slot.refs)
    let pending ← usub x.1.pending slot.amount
    let active ← uadd x.1.active slot.amount
    let side ← record slot x.2
    return ({ wheel := update x.1.wheel i Slot.empty, active, pending }, side)

/-- **Activate all that is due**, slot by slot. -/
def checkpoint (record : Slot → σ → Except ε σ) (now : ℕ) (x : Ledger n × σ) :
    Except ε (Ledger n × σ) :=
  if x.1.pending = 0 then .ok x
  else (List.finRange n).foldlM (checkpointSlot E record now) x

/-- The active amount there would be after a checkpoint. -/
def eligible (now : ℕ) (l : Ledger n) : Except ε ℕ :=
  if l.pending = 0 then .ok l.active
  else (List.finRange n).foldlM
    (fun total i => if (l.wheel i).Due now then uadd total (l.wheel i).amount else .ok total) l.active

end Operations

/-! ### What a checkpoint does -/

section Checkpoint

variable {ε σ : Type} [Panics ε] {E : Errors ε} {n : ℕ} {record : Slot → σ → Except ε σ}
  {now : ℕ} {l l' : Ledger n} {s s' : σ}

/-- What is due at a slot. -/
def dueAt (now : ℕ) (l : Ledger n) (i : Fin n) : ℕ :=
  if (l.wheel i).Due now then (l.wheel i).amount else 0

/-- What is due. -/
def dueAmount (now : ℕ) (l : Ledger n) : ℕ := ∑ i, dueAt now l i

/-- The slots of some indices that are due, in order. -/
def dueSlots (now : ℕ) (l : Ledger n) (is : List (Fin n)) : List Slot :=
  (is.map l.wheel).filter fun slot => slot.Due now

/-- The wheel after a checkpoint. -/
def checkpointed (now : ℕ) (l : Ledger n) : Ledger n where
  wheel i := if (l.wheel i).Due now then Slot.empty else l.wheel i
  active := l.active + dueAmount now l
  pending := l.pending - dueAmount now l

/-- The wheel with the slot at `i` activated. -/
def activateSlot (l : Ledger n) (i : Fin n) : Ledger n where
  wheel := update l.wheel i Slot.empty
  active := l.active + (l.wheel i).amount
  pending := l.pending - (l.wheel i).amount

/-- **One round of a checkpoint**: it activates a slot that is due. -/
theorem checkpointSlot_eq_ok {i : Fin n} {x : Ledger n × σ} :
    checkpointSlot E record now (l, s) i = .ok x ↔
      (¬ (l.wheel i).Due now ∧ x = (l, s)) ∨
      ((l.wheel i).Due now ∧ (l.wheel i).amount ≠ 0 ∧ (l.wheel i).refs ≠ 0 ∧
        (l.wheel i).amount ≤ l.pending ∧ l.active + (l.wheel i).amount ≤ maxUint256 ∧
        record (l.wheel i) s = .ok x.2 ∧ x.1 = activateSlot l i) := by
  obtain ⟨l', s'⟩ := x
  simp only [checkpointSlot]
  split
  · rename_i hdue
    simp [hdue, eq_comm]
  · rename_i hdue
    simp only [bind_eq_ok, revertIf_eq_ok, usub_eq_ok, uadd_eq_ok, pure_eq_ok, Except.ok.injEq,
      Prod.mk.injEq, not_or]
    constructor
    · rintro ⟨-, ⟨hamount, hrefs⟩, _, ⟨hle, rfl⟩, _, ⟨hmax, rfl⟩, side, hrec, rfl, rfl⟩
      exact Or.inr ⟨not_not.mp hdue, hamount, hrefs, hle, hmax, hrec, rfl⟩
    · rintro (⟨hdue', -, -⟩ | ⟨-, hamount, hrefs, hle, hmax, hrec, rfl⟩)
      · exact absurd hdue' hdue
      · exact ⟨(), ⟨hamount, hrefs⟩, _, ⟨hle, rfl⟩, _, ⟨hmax, rfl⟩, _, hrec, rfl, rfl⟩

theorem activateSlot_wheel_self {i : Fin n} : (activateSlot l i).wheel i = Slot.empty :=
  update_self ..

theorem activateSlot_wheel_of_ne {i j : Fin n} (hne : j ≠ i) :
    (activateSlot l i).wheel j = l.wheel j :=
  update_of_ne hne ..

/-- Activating a slot does not touch the others. -/
theorem dueAt_activateSlot {i j : Fin n} (hne : j ≠ i) :
    dueAt now (activateSlot l i) j = dueAt now l j := by
  rw [dueAt, dueAt, activateSlot_wheel_of_ne hne]

theorem dueSlots_activateSlot {i : Fin n} {is : List (Fin n)} (hi : i ∉ is) :
    dueSlots now (activateSlot l i) is = dueSlots now l is := by
  have hmap : is.map (activateSlot l i).wheel = is.map l.wheel :=
    List.map_congr_left fun j hj => activateSlot_wheel_of_ne fun h => hi (h ▸ hj)
  rw [dueSlots, dueSlots, hmap]

theorem dueSum_activateSlot {i : Fin n} {is : List (Fin n)} (hi : i ∉ is) :
    (is.map (dueAt now (activateSlot l i))).sum = (is.map (dueAt now l)).sum := by
  have hmap : is.map (dueAt now (activateSlot l i)) = is.map (dueAt now l) :=
    List.map_congr_left fun j hj => dueAt_activateSlot fun h => hi (h ▸ hj)
  rw [hmap]

/-- **The rounds of a checkpoint**, over any slots: those that are due are recorded in
order and emptied, and what was in them is active. -/
theorem of_foldlM_checkpointSlot {is : List (Fin n)} (hnd : is.Nodup)
    (h : is.foldlM (checkpointSlot E record now) (l, s) = .ok (l', s')) :
    (dueSlots now l is).foldlM (fun s slot => record slot s) s = .ok s' ∧
      (∀ i, l'.wheel i = if i ∈ is ∧ (l.wheel i).Due now then Slot.empty else l.wheel i) ∧
      l'.active = l.active + (is.map (dueAt now l)).sum ∧
      l'.pending + (is.map (dueAt now l)).sum = l.pending := by
  induction is generalizing l s with
  | nil =>
    rw [List.foldlM_nil, pure_eq_ok, Except.ok.injEq, Prod.mk.injEq] at h
    obtain ⟨rfl, rfl⟩ := h
    exact ⟨rfl, fun i => by simp, rfl, rfl⟩
  | cons i is ih =>
    obtain ⟨hi, hnd⟩ := List.nodup_cons.mp hnd
    rw [List.foldlM_cons, bind_eq_ok] at h
    obtain ⟨⟨l₁, s₁⟩, hround, hrest⟩ := h
    obtain ⟨hrec, hwheel, hactive, hpending⟩ := ih hnd hrest
    rcases checkpointSlot_eq_ok.mp hround with ⟨hdue, heq⟩ | ⟨hdue, -, -, hle, -, hrec₁, heq⟩
    · -- the slot is skipped
      rw [Prod.mk.injEq] at heq
      obtain ⟨rfl, rfl⟩ := heq
      have hzero : dueAt now l₁ i = 0 := if_neg hdue
      refine ⟨?_, fun j => ?_, ?_, ?_⟩
      · rw [dueSlots, List.map_cons, List.filter_cons_of_neg (by simpa using hdue)]
        exact hrec
      · rw [hwheel j]
        rcases eq_or_ne j i with rfl | hne
        · rw [if_neg fun hc => hi hc.1, if_neg fun hc => hdue hc.2]
        · simp [List.mem_cons, hne]
      · rw [List.map_cons, List.sum_cons, hzero]
        omega
      · rw [List.map_cons, List.sum_cons, hzero]
        omega
    · -- the slot is activated, and the rest does not see it
      dsimp only at hrec₁ heq
      subst heq
      rw [dueSlots_activateSlot hi] at hrec
      rw [dueSum_activateSlot hi] at hactive hpending
      have hamount : dueAt now l i = (l.wheel i).amount := if_pos hdue
      refine ⟨?_, fun j => ?_, ?_, ?_⟩
      · rw [dueSlots, List.map_cons, List.filter_cons_of_pos (by simpa using hdue),
          List.foldlM_cons, hrec₁, ok_bind]
        exact hrec
      · rw [hwheel j]
        rcases eq_or_ne j i with rfl | hne
        · simp [activateSlot_wheel_self, hdue]
        · simp [activateSlot_wheel_of_ne hne, hne]
      · rw [List.map_cons, List.sum_cons, hamount, hactive, activateSlot]
        dsimp only
        omega
      · rw [List.map_cons, List.sum_cons, hamount]
        rw [activateSlot] at hpending
        dsimp only at hpending
        omega

/-- **The rounds go through** if every slot that is due is used properly, the totals
leave room for it and every slot that is due can be recorded. -/
theorem foldlM_checkpointSlot_total {is : List (Fin n)} (hnd : is.Nodup)
    (hslot : ∀ i, (l.wheel i).Due now → (l.wheel i).amount ≠ 0 ∧ (l.wheel i).refs ≠ 0)
    (hpending : (is.map (dueAt now l)).sum ≤ l.pending)
    (hmax : l.active + (is.map (dueAt now l)).sum ≤ maxUint256)
    (hrec : (dueSlots now l is).foldlM (fun s slot => record slot s) s = .ok s') :
    ∃ l', is.foldlM (checkpointSlot E record now) (l, s) = .ok (l', s') := by
  induction is generalizing l s with
  | nil =>
    rw [dueSlots, List.map_nil, List.filter_nil, List.foldlM_nil, pure_eq_ok, Except.ok.injEq] at hrec
    exact ⟨l, by rw [hrec]; rfl⟩
  | cons i is ih =>
    obtain ⟨hi, hnd⟩ := List.nodup_cons.mp hnd
    rw [List.map_cons, List.sum_cons] at hpending hmax
    by_cases hdue : (l.wheel i).Due now
    · have hamount : dueAt now l i = (l.wheel i).amount := if_pos hdue
      rw [dueSlots, List.map_cons, List.filter_cons_of_pos (by simpa using hdue), List.foldlM_cons,
        bind_eq_ok] at hrec
      obtain ⟨s₁, hrec₁, hrec⟩ := hrec
      have hround : checkpointSlot E record now (l, s) i = .ok (activateSlot l i, s₁) :=
        checkpointSlot_eq_ok.mpr (Or.inr ⟨hdue, (hslot i hdue).1, (hslot i hdue).2, by omega,
          by omega, hrec₁, rfl⟩)
      obtain ⟨l', hl'⟩ := ih hnd (l := activateSlot l i) (s := s₁)
        (fun j hj => by
          rcases eq_or_ne j i with rfl | hne
          · rw [activateSlot_wheel_self] at hj
            exact absurd hj Slot.not_due_empty
          · rw [activateSlot_wheel_of_ne hne] at hj ⊢
            exact hslot j hj)
        (by rw [dueSum_activateSlot hi, activateSlot]; dsimp only; omega)
        (by rw [dueSum_activateSlot hi, activateSlot]; dsimp only; omega)
        (by rw [dueSlots_activateSlot hi]; exact hrec)
      exact ⟨l', by rw [List.foldlM_cons, hround, ok_bind, hl']⟩
    · have hround : checkpointSlot E record now (l, s) i = .ok (l, s) :=
        checkpointSlot_eq_ok.mpr (Or.inl ⟨hdue, rfl⟩)
      rw [dueSlots, List.map_cons, List.filter_cons_of_neg (by simpa using hdue)] at hrec
      obtain ⟨l', hl'⟩ := ih hnd hslot (by omega) (by omega) hrec
      exact ⟨l', by rw [List.foldlM_cons, hround, ok_bind, hl']⟩

/-- **How a round fails**: only its arithmetic can, if a slot that is due is used properly
and can be recorded. -/
theorem checkpointSlot_error {i : Fin n} {s₁ : σ} {e : ε}
    (hslot : (l.wheel i).Due now → (l.wheel i).amount ≠ 0 ∧ (l.wheel i).refs ≠ 0)
    (hrec : (l.wheel i).Due now → record (l.wheel i) s = .ok s₁)
    (herr : checkpointSlot E record now (l, s) i = .error e) : e = Panics.panic .arithmetic := by
  rw [checkpointSlot] at herr
  dsimp only at herr
  by_cases hdue : (l.wheel i).Due now
  · obtain ⟨hamount, hrefs⟩ := hslot hdue
    rw [if_neg (not_not.mpr hdue), revertIf_neg (not_or.mpr ⟨hamount, hrefs⟩), ok_bind, hrec hdue,
      bind_eq_error] at herr
    rcases herr with herr | ⟨_, -, herr⟩
    · exact (usub_eq_error.mp herr).2.symm
    · rcases bind_eq_error.mp herr with herr | ⟨_, -, herr⟩
      · exact (uadd_eq_error.mp herr).2.symm
      · cases herr
  · rw [if_pos hdue] at herr
    cases herr

/-- **How the rounds fail**: the same, for all of them. -/
theorem foldlM_checkpointSlot_error {is : List (Fin n)} {e : ε} (hnd : is.Nodup)
    (hslot : ∀ i, (l.wheel i).Due now → (l.wheel i).amount ≠ 0 ∧ (l.wheel i).refs ≠ 0)
    (hrec : (dueSlots now l is).foldlM (fun s slot => record slot s) s = .ok s')
    (herr : is.foldlM (checkpointSlot E record now) (l, s) = .error e) :
    e = Panics.panic .arithmetic := by
  induction is generalizing l s with
  | nil => cases herr
  | cons i is ih =>
    obtain ⟨hi, hnd⟩ := List.nodup_cons.mp hnd
    -- the first slot can be recorded if it is due, and the others after it
    obtain ⟨s₁, hrec₁, hrest⟩ : ∃ s₁, ((l.wheel i).Due now → record (l.wheel i) s = .ok s₁) ∧
        (∀ x, checkpointSlot E record now (l, s) i = .ok x → x.2 = s₁) ∧
        (dueSlots now l is).foldlM (fun s slot => record slot s) s₁ = .ok s' := by
      by_cases hdue : (l.wheel i).Due now
      · rw [dueSlots, List.map_cons, List.filter_cons_of_pos (by simpa using hdue), List.foldlM_cons,
          bind_eq_ok] at hrec
        obtain ⟨s₁, hrec₁, hrec⟩ := hrec
        refine ⟨s₁, fun _ => hrec₁, fun x hx => ?_, hrec⟩
        rcases checkpointSlot_eq_ok.mp hx with ⟨hnot, -⟩ | ⟨-, -, -, -, -, hside, -⟩
        · exact absurd hdue hnot
        · exact (Except.ok.inj (hrec₁.symm.trans hside)).symm
      · rw [dueSlots, List.map_cons, List.filter_cons_of_neg (by simpa using hdue)] at hrec
        refine ⟨s, fun hc => absurd hc hdue, fun x hx => ?_, hrec⟩
        rcases checkpointSlot_eq_ok.mp hx with ⟨-, rfl⟩ | ⟨hc, -⟩
        · rfl
        · exact absurd hc hdue
    rw [List.foldlM_cons, bind_eq_error] at herr
    rcases herr with herr | ⟨⟨l₁, s₂⟩, hround, herr⟩
    · exact checkpointSlot_error (hslot i) hrec₁ herr
    · obtain rfl : s₂ = s₁ := hrest.1 _ hround
      rcases checkpointSlot_eq_ok.mp hround with ⟨-, heq⟩ | ⟨-, -, -, -, -, -, heq⟩
      · obtain ⟨rfl, -⟩ := Prod.mk.inj heq
        exact ih hnd hslot hrest.2 herr
      · dsimp only at heq
        subst heq
        refine ih hnd (fun j hj => ?_) (by rw [dueSlots_activateSlot hi]; exact hrest.2) herr
        rcases eq_or_ne j i with rfl | hne
        · rw [activateSlot_wheel_self] at hj
          exact absurd hj Slot.not_due_empty
        · rw [activateSlot_wheel_of_ne hne] at hj ⊢
          exact hslot j hj

/-- What is due, as the sum over the slots in order. -/
theorem dueAmount_eq_sum (now : ℕ) (l : Ledger n) :
    dueAmount now l = ((List.finRange n).map (dueAt now l)).sum :=
  Fin.sum_univ_def _

end Checkpoint

/-! ### Owners -/

section Owners

variable {ι : Type*} [Fintype ι] {n : ℕ} [NeZero n] {l l' : Ledger n} {gen gen' amt amt' : ι → ℕ}
  {u : ι} {g now : ℕ}

/-- The amounts of a generation. -/
def bucket (gen amt : ι → ℕ) (g : ℕ) : ℕ := ∑ u, if gen u = g then amt u else 0

/-- The number of owners of a generation. -/
def owners (gen : ι → ℕ) (g : ℕ) : ℕ := bucket gen (fun _ => 1) g

/-- A generation that is in the wheel. -/
def Live (l : Ledger n) (g : ℕ) : Prop :=
  g ≠ 0 ∧ (l.wheel (slotIndex n g)).generation = g

instance (l : Ledger n) (g : ℕ) : Decidable (Live l g) := inferInstanceAs (Decidable (_ ∧ _))

/-- **The wheel represents the owners**: a slot that is used holds all amounts of its
generation, and only those. -/
structure Represents (l : Ledger n) (gen amt : ι → ℕ) : Prop where
  slot : ∀ i, l.wheel i = Slot.empty ∨ ∃ g, g ≠ 0 ∧ slotIndex n g = i ∧
    l.wheel i = ⟨g, bucket gen amt g, owners gen g⟩ ∧ bucket gen amt g ≠ 0
  pending : l.pending = ∑ i, (l.wheel i).amount
  zero : ∀ u, gen u = 0 ↔ amt u = 0

/-- Who is still in the wheel after a checkpoint. -/
theorem live_checkpointed : Live (checkpointed now l) g ↔ Live l g ∧ now < g := by
  by_cases hdue : (l.wheel (slotIndex n g)).Due now
  · have hempty : (checkpointed now l).wheel (slotIndex n g) = Slot.empty := if_pos hdue
    rw [Live, hempty]
    refine iff_of_false (fun hc => hc.1 hc.2.symm) ?_
    rintro ⟨⟨-, hgen⟩, hlt⟩
    have := hdue.2
    omega
  · have hsame : (checkpointed now l).wheel (slotIndex n g) = l.wheel (slotIndex n g) :=
      if_neg hdue
    rw [Live, hsame]
    refine ⟨fun hl => ⟨hl, ?_⟩, And.left⟩
    by_contra hle
    exact hdue ⟨by rw [hl.2]; exact hl.1, by rw [hl.2]; omega⟩

variable (amt) in
/-- What an owner has is in the bucket of its generation. -/
theorem le_bucket (h : gen u = g) : amt u ≤ bucket gen amt g := by
  have := Sums.le_sum (fun u => if gen u = g then amt u else 0) u
  rwa [if_pos h] at this

theorem one_le_owners (h : gen u = g) : 1 ≤ owners gen g := le_bucket (fun _ => 1) h

/-- **The bucket of a generation**, when one owner's position is replaced. -/
theorem bucket_of_eq_off (g : ℕ) (hgen : ∀ v, v ≠ u → gen' v = gen v) (hamt : ∀ v, v ≠ u → amt' v = amt v) :
    bucket gen' amt' g + (if gen u = g then amt u else 0)
      = bucket gen amt g + (if gen' u = g then amt' u else 0) :=
  Sums.sum_of_eq_off (fun v => if gen v = g then amt v else 0)
    (fun v => if gen' v = g then amt' v else 0) fun v hv => by rw [hgen v hv, hamt v hv]

/-- **The owners of a generation**, when one owner's position is replaced. -/
theorem owners_of_eq_off (g : ℕ) (hgen : ∀ v, v ≠ u → gen' v = gen v) :
    owners gen' g + (if gen u = g then 1 else 0) = owners gen g + (if gen' u = g then 1 else 0) :=
  bucket_of_eq_off g hgen fun _ _ => rfl

/-- A generation has an amount exactly when it has an owner. -/
theorem bucket_eq_zero_iff (hzero : ∀ u, gen u = 0 ↔ amt u = 0) (hg : g ≠ 0) :
    bucket gen amt g = 0 ↔ owners gen g = 0 := by
  rw [owners, bucket, bucket, Sums.sum_eq_zero, Sums.sum_eq_zero]
  refine forall_congr' fun u => ?_
  by_cases hu : gen u = g
  · rw [if_pos hu, if_pos hu]
    refine iff_of_false (fun hc => hg ?_) Nat.one_ne_zero
    rw [← hu, (hzero u).mpr hc]
  · rw [if_neg hu, if_neg hu]

namespace Represents

variable (h : Represents l gen amt)

include h

/-- The slot of a live generation. -/
theorem wheel_of_live (hl : Live l g) :
    l.wheel (slotIndex n g) = ⟨g, bucket gen amt g, owners gen g⟩ ∧ bucket gen amt g ≠ 0 := by
  obtain ⟨hg, hgen⟩ := hl
  rcases h.slot (slotIndex n g) with hempty | ⟨g', hg', -, hslot, hne⟩
  · rw [hempty] at hgen
    exact absurd hgen.symm hg
  · rw [hslot] at hgen
    dsimp only at hgen
    subst hgen
    exact ⟨hslot, hne⟩

/-- Somebody has the generation that is in the wheel. -/
theorem exists_owner (hl : Live l g) : ∃ u, gen u = g := by
  by_contra hnone
  refine (h.wheel_of_live hl).2 (Finset.sum_eq_zero fun u _ => if_neg fun hu => hnone ⟨u, hu⟩)

/-- The active amount does not matter. -/
theorem congr (hwheel : l'.wheel = l.wheel) (hpending : l'.pending = l.pending) :
    Represents l' gen amt where
  slot i := by
    rw [hwheel]
    exact h.slot i
  pending := by
    rw [hpending, hwheel]
    exact h.pending
  zero := h.zero

/-- A slot that is due has an amount and an owner. -/
theorem ne_zero_of_due {i : Fin n} (hdue : (l.wheel i).Due now) :
    (l.wheel i).amount ≠ 0 ∧ (l.wheel i).refs ≠ 0 := by
  rcases h.slot i with hempty | ⟨g, hg, -, hslot, hne⟩
  · rw [hempty] at hdue
    exact absurd hdue Slot.not_due_empty
  · rw [hslot]
    exact ⟨hne, fun hc => hne ((bucket_eq_zero_iff h.zero hg).mpr hc)⟩

/-- The slots that are due are those of the live generations that have come. -/
theorem mem_dueSlots {slot : Slot} : slot ∈ dueSlots now l (List.finRange n) ↔
    ∃ g, Live l g ∧ g ≤ now ∧ slot = ⟨g, bucket gen amt g, owners gen g⟩ := by
  rw [dueSlots, List.mem_filter, List.mem_map]
  constructor
  · rintro ⟨⟨i, -, rfl⟩, hdue⟩
    have hdue' : (l.wheel i).Due now := of_decide_eq_true hdue
    rcases h.slot i with hempty | ⟨g, hg, hi, hslot, -⟩
    · rw [hempty] at hdue'
      exact absurd hdue' Slot.not_due_empty
    · rw [hslot] at hdue'
      exact ⟨g, ⟨hg, by rw [hi, hslot]⟩, hdue'.2, hslot⟩
  · rintro ⟨g, hl, hle, rfl⟩
    refine ⟨⟨slotIndex n g, List.mem_finRange _, (h.wheel_of_live hl).1⟩, ?_⟩
    exact decide_eq_true ⟨hl.1, hle⟩

variable (now) in
/-- The slots that are due have different generations. -/
theorem nodup_dueSlots : ((dueSlots now l (List.finRange n)).map Slot.generation).Nodup := by
  rw [dueSlots, List.filter_map, List.map_map]
  refine List.Nodup.map_on (fun i hi j hj hij => ?_) ((List.nodup_finRange n).filter _)
  have hof : ∀ i, (l.wheel i).Due now → slotIndex n (l.wheel i).generation = i := fun i hdue => by
    rcases h.slot i with hempty | ⟨g, -, hi, hslot, -⟩
    · rw [hempty] at hdue
      exact absurd hdue Slot.not_due_empty
    · rw [hslot]
      exact hi
  have hi' : (l.wheel i).Due now := of_decide_eq_true (List.mem_filter.mp hi).2
  have hj' : (l.wheel j).Due now := of_decide_eq_true (List.mem_filter.mp hj).2
  have hgen : (l.wheel i).generation = (l.wheel j).generation := hij
  rw [← hof i hi', ← hof j hj', hgen]

/-- **No collision**: if the live generations are all within a time that the wheel can hold,
the slot of the last one is its own. -/
theorem slot_free {d : ℕ} (hd : d ≤ n) (hlive : ∀ g, Live l g → now < g ∧ g ≤ now + d) :
    (l.wheel (slotIndex n (now + d))).generation = 0 ∨
      (l.wheel (slotIndex n (now + d))).generation = now + d := by
  rcases h.slot (slotIndex n (now + d)) with hempty | ⟨g, hg, hi, hslot, -⟩
  · exact Or.inl (by rw [hempty, Slot.empty_generation])
  · -- the two generations differ by less than a round
    obtain ⟨hlt, hle⟩ := hlive g ⟨hg, by rw [hi, hslot]⟩
    have hmod : g % n = (now + d) % n := congrArg Fin.val hi
    have hdvd : n ∣ now + d - g := Nat.dvd_of_mod_eq_zero (Nat.sub_mod_eq_zero_of_mod_eq hmod.symm)
    have hzero := Nat.eq_zero_of_dvd_of_lt hdvd (by omega)
    exact Or.inr (by rw [hslot]; dsimp only; omega)

/-- **The slots of some generations**, added up over the owners. -/
theorem sum_slots (p : ℕ → Prop) [DecidablePred p] :
    (∑ i, if (l.wheel i).generation ≠ 0 ∧ p (l.wheel i).generation then (l.wheel i).amount else 0)
      = ∑ u, if Live l (gen u) ∧ p (gen u) then amt u else 0 := by
  have hslot : ∀ i, (if (l.wheel i).generation ≠ 0 ∧ p (l.wheel i).generation
      then (l.wheel i).amount else 0)
        = ∑ u, if slotIndex n (gen u) = i then
            (if Live l (gen u) ∧ p (gen u) then amt u else 0) else 0 := by
    intro i
    rcases h.slot i with hempty | ⟨g, hg, hi, hslot, -⟩
    · -- nobody is live at an empty slot
      rw [hempty, if_neg fun hc => hc.1 rfl]
      refine (Finset.sum_eq_zero fun u _ => ?_).symm
      rw [ite_eq_right_iff]
      rintro rfl
      rw [if_neg]
      rintro ⟨⟨hne, hgen⟩, -⟩
      rw [hempty] at hgen
      exact hne hgen.symm
    · -- those at a slot are those of its generation
      rw [hslot]
      dsimp only
      by_cases hp : p g
      · rw [if_pos ⟨hg, hp⟩]
        refine Finset.sum_congr rfl fun u _ => ?_
        by_cases hu : gen u = g
        · rw [if_pos hu, hu, if_pos hi, if_pos ⟨⟨hg, by rw [hi, hslot]⟩, hp⟩]
        · rw [if_neg hu]
          symm
          rw [ite_eq_right_iff]
          intro hi'
          rw [if_neg]
          rintro ⟨⟨-, hgen⟩, -⟩
          rw [hi', hslot] at hgen
          exact hu hgen.symm
      · rw [if_neg fun hc => hp hc.2]
        refine (Finset.sum_eq_zero fun u _ => ?_).symm
        rw [ite_eq_right_iff]
        intro hi'
        rw [if_neg]
        rintro ⟨⟨-, hgen⟩, hp'⟩
        rw [hi', hslot] at hgen
        dsimp only at hgen
        rw [← hgen] at hp'
        exact hp hp'
  calc (∑ i, if (l.wheel i).generation ≠ 0 ∧ p (l.wheel i).generation
        then (l.wheel i).amount else 0)
      = ∑ i, ∑ u, if slotIndex n (gen u) = i then
          (if Live l (gen u) ∧ p (gen u) then amt u else 0) else 0 :=
        Finset.sum_congr rfl fun i _ => hslot i
    _ = ∑ u, ∑ i, if slotIndex n (gen u) = i then
          (if Live l (gen u) ∧ p (gen u) then amt u else 0) else 0 := Finset.sum_comm
    _ = ∑ u, if Live l (gen u) ∧ p (gen u) then amt u else 0 :=
        Finset.sum_congr rfl fun u _ => by simp

/-- **What is in the wheel** is what the live owners have. -/
theorem pending_eq : l.pending = ∑ u, if Live l (gen u) then amt u else 0 := by
  have hsum := h.sum_slots fun _ => True
  simp only [and_true] at hsum
  rw [h.pending, ← hsum]
  refine Finset.sum_congr rfl fun i _ => ?_
  rcases h.slot i with hempty | ⟨g, hg, -, hslot, -⟩
  · rw [hempty, if_neg fun hc => hc rfl, Slot.empty_amount]
  · rw [hslot, if_pos hg]

/-- **What is due** is what the live owners have whose generation has come. -/
theorem dueAmount_eq :
    dueAmount now l = ∑ u, if Live l (gen u) ∧ gen u ≤ now then amt u else 0 :=
  h.sum_slots (· ≤ now)

variable (now) in
/-- What is due is in the wheel. -/
theorem dueAmount_le : dueAmount now l ≤ l.pending := by
  rw [h.pending]
  refine Sums.sum_le_sum fun i => ?_
  rw [dueAt]
  split
  · exact le_rfl
  · exact Nat.zero_le _

/-- **A checkpoint keeps the representation**: the owners keep what they have, but those
whose generation has come are no longer in the wheel. -/
theorem checkpointed : Represents (checkpointed now l) gen amt where
  slot i := by
    by_cases hdue : (l.wheel i).Due now
    · exact Or.inl (if_pos hdue)
    · have hsame : (TimingWheel.checkpointed now l).wheel i = l.wheel i := if_neg hdue
      rw [hsame]
      exact h.slot i
  pending := by
    have hsplit : l.pending = dueAmount now l + ∑ i, ((TimingWheel.checkpointed now l).wheel i).amount := by
      rw [h.pending, dueAmount, ← Finset.sum_add_distrib]
      refine Finset.sum_congr rfl fun i _ => ?_
      rw [dueAt, TimingWheel.checkpointed]
      dsimp only
      split
      · rw [Slot.empty_amount, Nat.add_zero]
      · rw [Nat.zero_add]
    have hpending : (TimingWheel.checkpointed now l).pending = l.pending - dueAmount now l := rfl
    omega
  zero := h.zero

/-- **An owner that is not in the wheel forgets its amount**: nothing else changes. -/
theorem forget (hu : ¬ Live l (gen u)) (hgen : ∀ v, v ≠ u → gen' v = gen v)
    (hamt : ∀ v, v ≠ u → amt' v = amt v) (hgen0 : gen' u = 0) (hamt0 : amt' u = 0) :
    Represents l gen' amt' where
  slot i := by
    rcases h.slot i with hempty | ⟨g, hg, hi, hslot, hne⟩
    · exact Or.inl hempty
    · -- the owner is not one of those at this slot
      have hug : gen u ≠ g := by
        rintro rfl
        exact hu ⟨hg, by rw [hi, hslot]⟩
      have hu' : gen' u ≠ g := by
        rw [hgen0]
        exact Ne.symm hg
      have hbucket := bucket_of_eq_off g hgen hamt
      have howners := owners_of_eq_off g hgen
      rw [if_neg hug, if_neg hu', Nat.add_zero, Nat.add_zero] at hbucket howners
      refine Or.inr ⟨g, hg, hi, ?_, ?_⟩
      · rw [hslot, hbucket, howners]
      · rwa [hbucket]
  pending := h.pending
  zero v := by
    rcases eq_or_ne v u with rfl | hne
    · exact iff_of_true hgen0 hamt0
    · rw [hgen v hne, hamt v hne]
      exact h.zero v

end Represents

/-! ### Scheduling -/

section Scheduling

variable {ε : Type} [Panics ε] {E : Errors ε} {a : ℕ}

omit [NeZero n] in
/-- The amounts in a wheel of which one slot is replaced. -/
theorem sum_update_slot (wheel : Fin n → Slot) (i : Fin n) (s : Slot) :
    ∑ j, (update wheel i s j).amount + (wheel i).amount
      = ∑ j, (wheel j).amount + s.amount := by
  have h : ∑ j, (update wheel i s j).amount + (wheel i).amount
      = ∑ j, (wheel j).amount + (update wheel i s i).amount :=
    Sums.sum_of_eq_off (fun j => (wheel j).amount) (fun j => (update wheel i s j).amount)
      fun j hj => by rw [update_of_ne hj]
  rwa [update_self] at h

/-- The wheel with an amount of one more owner added. -/
def scheduled (l : Ledger n) (g a : ℕ) : Ledger n where
  wheel := update l.wheel (slotIndex n g)
    ⟨g, (l.wheel (slotIndex n g)).amount + a, (l.wheel (slotIndex n g)).refs + 1⟩
  active := l.active
  pending := l.pending + a

/-- The wheel with the amount of one owner taken out. -/
def unscheduled (l : Ledger n) (g a : ℕ) : Ledger n where
  wheel := update l.wheel (slotIndex n g)
    (if (l.wheel (slotIndex n g)).amount - a = 0 then Slot.empty
      else ⟨g, (l.wheel (slotIndex n g)).amount - a, (l.wheel (slotIndex n g)).refs - 1⟩)
  active := l.active
  pending := l.pending - a

theorem of_schedule (h : schedule E l g a 1 = .ok l') :
    a ≠ 0 ∧ ((l.wheel (slotIndex n g)).generation = 0 ∨ (l.wheel (slotIndex n g)).generation = g) ∧
      l.pending + a ≤ maxUint256 ∧ l' = scheduled l g a := by
  simp only [schedule, bind_eq_ok, revertIf_eq_ok, uadd_eq_ok, pure_eq_ok, Except.ok.injEq, not_or,
    not_and_or, not_not] at h
  obtain ⟨-, ⟨ha, -⟩, -, hgen, _, ⟨-, rfl⟩, _, ⟨-, rfl⟩, _, ⟨hmax, rfl⟩, rfl⟩ := h
  exact ⟨ha, hgen, hmax, rfl⟩

theorem of_unschedule (h : unschedule E l g a 1 = .ok l') :
    (l.wheel (slotIndex n g)).generation = g ∧ a ≤ l.pending ∧ l' = unscheduled l g a := by
  simp only [unschedule, bind_eq_ok, revertIf_eq_ok, usub_eq_ok, pure_eq_ok, Except.ok.injEq, not_or,
    not_not] at h
  obtain ⟨-, -, -, ⟨hgen, -, -⟩, -, -, _, ⟨hle, rfl⟩, rfl⟩ := h
  exact ⟨hgen, hle, by rw [unscheduled, hgen]⟩

/-- **How a schedule fails**: only its arithmetic can, if the slot is free or has the
generation. -/
theorem schedule_error {e : ε} (ha : a ≠ 0)
    (hslot : (l.wheel (slotIndex n g)).generation = 0 ∨ (l.wheel (slotIndex n g)).generation = g)
    (herr : schedule E l g a 1 = .error e) : e = Panics.panic .arithmetic := by
  have hfree : ¬ ((l.wheel (slotIndex n g)).generation ≠ 0 ∧
      (l.wheel (slotIndex n g)).generation ≠ g) := by
    rintro ⟨h0, hg⟩
    exact hslot.elim h0 hg
  rw [schedule] at herr
  dsimp only at herr
  rw [revertIf_neg (not_or.mpr ⟨ha, Nat.one_ne_zero⟩), ok_bind, revertIf_neg hfree, ok_bind,
    bind_eq_error] at herr
  rcases herr with herr | ⟨_, -, herr⟩
  · exact (uadd_eq_error.mp herr).2.symm
  · rcases bind_eq_error.mp herr with herr | ⟨_, -, herr⟩
    · exact (uadd_eq_error.mp herr).2.symm
    · rcases bind_eq_error.mp herr with herr | ⟨_, -, herr⟩
      · exact (uadd_eq_error.mp herr).2.symm
      · cases herr

/-- Who is in the wheel after an amount is added. -/
theorem live_scheduled {g' : ℕ} (hg : g ≠ 0)
    (hslot : (l.wheel (slotIndex n g)).generation = 0 ∨ (l.wheel (slotIndex n g)).generation = g) :
    Live (scheduled l g a) g' ↔ Live l g' ∨ g' = g := by
  by_cases hi : slotIndex n g' = slotIndex n g
  · rw [Live, Live, scheduled, hi]
    dsimp only
    rw [update_self]
    constructor
    · rintro ⟨-, rfl⟩
      exact Or.inr rfl
    · rintro (⟨hne, hgen⟩ | rfl)
      · rcases hslot with h0 | h0
        · exact absurd (hgen.symm.trans h0) hne
        · exact ⟨hne, h0.symm.trans hgen⟩
      · exact ⟨hg, rfl⟩
  · rw [Live, Live, scheduled]
    dsimp only
    rw [update_of_ne hi]
    refine ⟨Or.inl, ?_⟩
    rintro (hl | rfl)
    · exact hl
    · exact absurd rfl hi

/-- Another generation is not touched when an amount is taken out. -/
theorem live_unscheduled_of_ne {g' : ℕ} (hgen : (l.wheel (slotIndex n g)).generation = g)
    (hne : g' ≠ g) : Live (unscheduled l g a) g' ↔ Live l g' := by
  by_cases hi : slotIndex n g' = slotIndex n g
  · -- the slot is the other generation's before and after
    rw [Live, Live, unscheduled, hi]
    dsimp only
    rw [update_self]
    refine iff_of_false ?_ fun hc => hne (hc.2.symm.trans hgen)
    rintro ⟨h0, hc⟩
    split at hc
    · exact h0 hc.symm
    · exact hne hc.symm
  · rw [Live, Live, unscheduled]
    dsimp only
    rw [update_of_ne hi]

namespace Represents

variable (h : Represents l gen amt)

include h

/-- **Scheduling keeps the representation**, if whoever has the generation is in the
wheel. -/
theorem scheduled (hu : gen u = 0) (hgen : ∀ v, v ≠ u → gen' v = gen v)
    (hamt : ∀ v, v ≠ u → amt' v = amt v) (hgen' : gen' u = g) (hamt' : amt' u = a) (hg : g ≠ 0)
    (ha : a ≠ 0)
    (hslot : (l.wheel (slotIndex n g)).generation = 0 ∨ (l.wheel (slotIndex n g)).generation = g)
    (hfresh : ∀ v, gen v = g → Live l g) :
    Represents (TimingWheel.scheduled l g a) gen' amt' := by
  have hbucket := bucket_of_eq_off g hgen hamt
  have howners := owners_of_eq_off g hgen
  rw [if_neg (by rw [hu]; exact hg.symm), if_pos hgen', Nat.add_zero] at hbucket howners
  -- the slot holds the bucket, whether it was used or not
  have hbefore : (l.wheel (slotIndex n g)).amount = bucket gen amt g ∧
      (l.wheel (slotIndex n g)).refs = owners gen g := by
    by_cases hl : Live l g
    · rw [(h.wheel_of_live hl).1]
      exact ⟨rfl, rfl⟩
    · have hnone : owners gen g = 0 := by
        rw [owners, bucket, Sums.sum_eq_zero]
        exact fun v => if_neg fun hv => hl (hfresh v hv)
      have hempty : l.wheel (slotIndex n g) = Slot.empty := by
        rcases h.slot (slotIndex n g) with hempty | ⟨g', hg', -, hw, -⟩
        · exact hempty
        · rcases hslot with h0 | h0
          · rw [hw] at h0
            exact absurd h0 hg'
          · exact absurd ⟨hg, h0⟩ hl
      rw [hempty, hnone, (bucket_eq_zero_iff h.zero hg).mpr hnone]
      exact ⟨rfl, rfl⟩
  refine ⟨fun i => ?_, ?_, fun v => ?_⟩
  · rw [TimingWheel.scheduled]
    dsimp only
    rcases eq_or_ne i (slotIndex n g) with rfl | hi
    · rw [update_self, hbefore.1, hbefore.2]
      refine Or.inr ⟨g, hg, rfl, ?_, by omega⟩
      rw [hbucket, hamt', howners]
    · rw [update_of_ne hi]
      rcases h.slot i with hempty | ⟨g', hg', hi', hw, hne⟩
      · exact Or.inl hempty
      · -- the other slots are of other generations
        have hgg : g' ≠ g := by
          rintro rfl
          exact hi hi'.symm
        have hb := bucket_of_eq_off g' hgen hamt
        have ho := owners_of_eq_off g' hgen
        rw [if_neg (by rw [hu]; exact hg'.symm), if_neg (by rw [hgen']; exact hgg.symm),
          Nat.add_zero, Nat.add_zero] at hb ho
        exact Or.inr ⟨g', hg', hi', by rw [hw, hb, ho], by rwa [hb]⟩
  · have hsum := sum_update_slot l.wheel (slotIndex n g)
      ⟨g, (l.wheel (slotIndex n g)).amount + a, (l.wheel (slotIndex n g)).refs + 1⟩
    have hpending := h.pending
    rw [TimingWheel.scheduled]
    dsimp only at hsum ⊢
    omega
  · rcases eq_or_ne v u with rfl | hne
    · rw [hgen', hamt']
      exact iff_of_false hg ha
    · rw [hgen v hne, hamt v hne]
      exact h.zero v

/-- **Unscheduling keeps the representation**: the owner has nothing any more. -/
theorem unscheduled (hl : Live l (gen u)) (hgen : ∀ v, v ≠ u → gen' v = gen v)
    (hamt : ∀ v, v ≠ u → amt' v = amt v) (hgen0 : gen' u = 0) (hamt0 : amt' u = 0) :
    Represents (TimingWheel.unscheduled l (gen u) (amt u)) gen' amt' := by
  have hzero : ∀ v, gen' v = 0 ↔ amt' v = 0 := fun v => by
    rcases eq_or_ne v u with rfl | hne
    · exact iff_of_true hgen0 hamt0
    · rw [hgen v hne, hamt v hne]
      exact h.zero v
  have hg : gen u ≠ 0 := hl.1
  obtain ⟨hw, hne⟩ := h.wheel_of_live hl
  have hbucket := bucket_of_eq_off (gen u) hgen hamt
  have howners := owners_of_eq_off (gen u) hgen
  rw [if_pos rfl, if_neg (by rw [hgen0]; exact hg.symm), Nat.add_zero] at hbucket howners
  have hle : amt u ≤ bucket gen amt (gen u) := le_bucket amt rfl
  refine ⟨fun i => ?_, ?_, hzero⟩
  · rw [TimingWheel.unscheduled]
    dsimp only
    rcases eq_or_ne i (slotIndex n (gen u)) with rfl | hi
    · -- the slot is empty now, or it holds the rest of the bucket
      rw [update_self, hw]
      dsimp only
      split
      · exact Or.inl rfl
      · rename_i hrest
        refine Or.inr ⟨gen u, hg, rfl, ?_, by omega⟩
        have hb : bucket gen amt (gen u) - amt u = bucket gen' amt' (gen u) := by omega
        have ho : owners gen (gen u) - 1 = owners gen' (gen u) := by omega
        rw [hb, ho]
    · rw [update_of_ne hi]
      rcases h.slot i with hempty | ⟨g', hg', hi', hw', hne'⟩
      · exact Or.inl hempty
      · have hgg : gen u ≠ g' := by
          rintro rfl
          exact hi hi'.symm
        have hb := bucket_of_eq_off g' hgen hamt
        have ho := owners_of_eq_off g' hgen
        rw [if_neg hgg, if_neg (by rw [hgen0]; exact hg'.symm), Nat.add_zero, Nat.add_zero] at hb ho
        exact Or.inr ⟨g', hg', hi', by rw [hw', hb, ho], by rwa [hb]⟩
  · have hsum := sum_update_slot l.wheel (slotIndex n (gen u))
      (if (l.wheel (slotIndex n (gen u))).amount - amt u = 0 then Slot.empty
        else ⟨gen u, (l.wheel (slotIndex n (gen u))).amount - amt u,
          (l.wheel (slotIndex n (gen u))).refs - 1⟩)
    have hpending := h.pending
    rw [TimingWheel.unscheduled]
    dsimp only
    rw [hw] at hsum ⊢
    dsimp only at hsum ⊢
    split at hsum
    · rename_i hrest
      rw [if_pos hrest]
      rw [Slot.empty_amount] at hsum
      omega
    · rename_i hrest
      rw [if_neg hrest]
      dsimp only at hsum
      omega

/-- **The others stay in the wheel** when an owner is taken out. -/
theorem live_unscheduled {v : ι} (hl : Live l (gen u)) (hne : v ≠ u) (hv : Live l (gen v)) :
    Live (TimingWheel.unscheduled l (gen u) (amt u)) (gen v) := by
  classical
  rcases eq_or_ne (gen v) (gen u) with heq | hgen
  · -- the slot still holds what the other has
    have hlt : amt u < bucket gen amt (gen u) := by
      let rest := update amt u 0
      have hrest : ∀ w, w ≠ u → rest w = amt w := fun w hw => update_of_ne hw _ _
      have hsame : ∀ w, w ≠ u → gen w = gen w := fun _ _ => rfl
      have hoff := bucket_of_eq_off (gen u) hsame hrest
      have hzero : rest u = 0 := update_self ..
      rw [if_pos rfl, if_pos rfl, hzero, Nat.add_zero] at hoff
      have hle : rest v ≤ bucket gen rest (gen u) := le_bucket rest heq
      rw [hrest v hne] at hle
      have hpos : amt v ≠ 0 := fun hc => hv.1 ((h.zero v).mpr hc)
      omega
    rw [heq, Live, TimingWheel.unscheduled]
    dsimp only
    rw [update_self, (h.wheel_of_live hl).1]
    dsimp only
    rw [if_neg (by omega)]
    exact ⟨hl.1, rfl⟩
  · exact (live_unscheduled_of_ne hl.2 hgen).mpr hv

/-- **An owner can always be taken out of the wheel.** -/
theorem unschedule_eq (hl : Live l (gen u)) :
    unschedule E l (gen u) (amt u) 1 = .ok (TimingWheel.unscheduled l (gen u) (amt u)) := by
  classical
  have hg : gen u ≠ 0 := hl.1
  have ha : amt u ≠ 0 := fun hc => hg ((h.zero u).mpr hc)
  obtain ⟨hw, -⟩ := h.wheel_of_live hl
  have hle : amt u ≤ bucket gen amt (gen u) := le_bucket amt rfl
  have hone : 1 ≤ owners gen (gen u) := one_le_owners rfl
  have hpending : amt u ≤ l.pending := by
    have := Sums.le_sum (fun i => (l.wheel i).amount) (slotIndex n (gen u))
    rw [← h.pending, hw] at this
    exact hle.trans this
  -- what is left is the bucket without the owner, which is empty when nobody is left
  have hrest : bucket gen amt (gen u) - amt u = 0 ↔ owners gen (gen u) - 1 = 0 := by
    let gen' := update gen u 0
    let amt' := update amt u 0
    have hgen : ∀ v, v ≠ u → gen' v = gen v := fun v hv => update_of_ne hv _ _
    have hamt : ∀ v, v ≠ u → amt' v = amt v := fun v hv => update_of_ne hv _ _
    have hgen0 : gen' u = 0 := update_self ..
    have hbucket := bucket_of_eq_off (gen u) hgen hamt
    have howners := owners_of_eq_off (gen u) hgen
    rw [if_pos rfl, if_neg (by rw [hgen0]; exact hg.symm), Nat.add_zero] at hbucket howners
    have hzero : ∀ v, gen' v = 0 ↔ amt' v = 0 := fun v => by
      rcases eq_or_ne v u with rfl | hne
      · exact iff_of_true (update_self ..) (update_self ..)
      · rw [hgen v hne, hamt v hne]
        exact h.zero v
    have hiff := bucket_eq_zero_iff hzero hg
    omega
  simp only [unschedule, bind_eq_ok, revertIf_eq_ok, usub_eq_ok, pure_eq_ok, Except.ok.injEq, hw]
  exact ⟨(), by omega, (), by omega, (), by rw [not_not]; exact hrest, _, ⟨hpending, rfl⟩,
    by rw [TimingWheel.unscheduled, hw]⟩

/-- **A checkpoint that goes through** activates what is due, recording the slots in
order. -/
theorem of_checkpoint {σ : Type} {record : Slot → σ → Except ε σ} {s s' : σ}
    (hok : checkpoint E record now (l, s) = .ok (l', s')) :
    l' = TimingWheel.checkpointed now l ∧
      (dueSlots now l (List.finRange n)).foldlM (fun s slot => record slot s) s = .ok s' := by
  rw [checkpoint] at hok
  split at hok
  · rename_i hnone
    dsimp only at hnone
    rw [Except.ok.injEq, Prod.mk.injEq] at hok
    obtain ⟨rfl, rfl⟩ := hok
    -- nothing is in the wheel
    have hempty : ∀ i, l.wheel i = Slot.empty := fun i => by
      rcases h.slot i with hempty | ⟨g, -, -, hw, hne⟩
      · exact hempty
      · rw [h.pending, Sums.sum_eq_zero] at hnone
        have := hnone i
        rw [hw] at this
        exact absurd this hne
    have hdue : ∀ i, ¬ (l.wheel i).Due now := fun i => by
      rw [hempty i]
      exact Slot.not_due_empty
    have hzero : dueAmount now l = 0 := Sums.sum_eq_zero.mpr fun i => if_neg (hdue i)
    refine ⟨?_, ?_⟩
    · rw [TimingWheel.checkpointed, hzero]
      simp [hdue]
    · rw [dueSlots, List.filter_eq_nil_iff.mpr]
      · rfl
      · intro slot hslot
        obtain ⟨i, -, rfl⟩ := List.mem_map.mp hslot
        simpa using hdue i
  · obtain ⟨hrec, hwheel, hactive, hpending⟩ := of_foldlM_checkpointSlot (List.nodup_finRange n) hok
    refine ⟨?_, hrec⟩
    rw [← dueAmount_eq_sum] at hactive hpending
    obtain ⟨wheel, active, pending⟩ := l'
    dsimp only at hwheel hactive hpending
    rw [TimingWheel.checkpointed, Ledger.mk.injEq]
    refine ⟨funext fun i => ?_, hactive, by omega⟩
    rw [hwheel i]
    simp

/-- **A checkpoint goes through** if the active amount leaves room for what is in the
wheel and every slot that is due can be recorded. -/
theorem checkpoint_eq {σ : Type} {record : Slot → σ → Except ε σ} {s s' : σ}
    (hmax : l.active + l.pending ≤ maxUint256)
    (hrec : (dueSlots now l (List.finRange n)).foldlM (fun s slot => record slot s) s = .ok s') :
    checkpoint E record now (l, s) = .ok (TimingWheel.checkpointed now l, s') := by
  have htotal : ∃ x, checkpoint E record now (l, s) = .ok x := by
    rw [checkpoint]
    split
    · exact ⟨_, rfl⟩
    · have hle := h.dueAmount_le now
      rw [dueAmount_eq_sum] at hle
      obtain ⟨l', hl'⟩ := foldlM_checkpointSlot_total (E := E) (List.nodup_finRange n)
        (fun i => h.ne_zero_of_due) hle (by omega) hrec
      exact ⟨_, hl'⟩
  obtain ⟨⟨l', s''⟩, hok⟩ := htotal
  obtain ⟨rfl, hrec'⟩ := h.of_checkpoint hok
  rw [hrec, Except.ok.injEq] at hrec'
  rw [hok, hrec']

/-- **How a checkpoint fails**: only its arithmetic can, if every slot that is due can be
recorded. -/
theorem checkpoint_error {σ : Type} {record : Slot → σ → Except ε σ} {s s' : σ} {e : ε}
    (hrec : (dueSlots now l (List.finRange n)).foldlM (fun s slot => record slot s) s = .ok s')
    (herr : checkpoint E record now (l, s) = .error e) : e = Panics.panic .arithmetic := by
  rw [checkpoint] at herr
  split at herr
  · cases herr
  · exact foldlM_checkpointSlot_error (List.nodup_finRange n) (fun i => h.ne_zero_of_due) hrec herr

end Represents

end Scheduling

end Owners

end TimingWheel
