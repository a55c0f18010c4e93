import Mathlib.Data.List.Sort
import Mathlib.Tactic.Common

/-!
# Sweeps over ranges

Ranges of positions, both ends included, are looked through in the order of their first
positions, with a cursor that says which position is needed next: a range that begins
after it leaves a gap, and one that holds it moves it behind its last position. The ranges
may overlap, be nested or lie side by side, and a range whose last position is before its
first holds nothing.

`Sweep.sweep` is where the cursor comes to rest. That is the first position from the start
on that no range holds, `Sweep.lt_sweep_iff`, so a sweep decides whether there is a gap.
A sweep that stops as soon as a goal is passed, `Sweep.reaches`, decides the same if the
goal is not already behind the cursor, `Sweep.reaches_iff`.
-/

namespace Sweep

variable {α : Type*} (first last : α → ℕ)

/-- A range holds a position. -/
def Holds (r : α) (n : ℕ) : Prop := first r ≤ n ∧ n ≤ last r

/-- The cursor after a range that does not begin behind it. -/
def advance (cursor : ℕ) (r : α) : ℕ := if cursor ≤ last r then last r + 1 else cursor

/-- **The sweep**: the cursor goes through the ranges, up to a gap. -/
def sweep (cursor : ℕ) : List α → ℕ
  | [] => cursor
  | r :: rs => if cursor < first r then cursor else sweep (advance last cursor r) rs

/-- The sweep that stops as soon as the cursor has passed a goal. -/
def reaches (goal cursor : ℕ) : List α → Bool
  | [] => false
  | r :: rs =>
    if cursor < first r then false
    else if goal < advance last cursor r then true
    else reaches goal (advance last cursor r) rs

variable {first last} {cursor goal n : ℕ} {r : α} {rs : List α}

theorem le_advance : cursor ≤ advance last cursor r := by
  rw [advance]
  split <;> omega

/-- What the cursor jumps over is held by the range. -/
theorem lt_advance_iff (hfirst : first r ≤ cursor) (hn : cursor ≤ n) :
    n < advance last cursor r ↔ Holds first last r n := by
  rw [advance, Holds]
  split <;> omega

theorem le_sweep : cursor ≤ sweep first last cursor rs := by
  induction rs generalizing cursor with
  | nil => exact le_rfl
  | cons r rs ih =>
    rw [sweep]
    split
    · exact le_rfl
    · exact le_advance.trans ih

/-- **The positions a sweep goes over are held.** -/
theorem holds_of_lt_sweep (hn : cursor ≤ n) (hlt : n < sweep first last cursor rs) :
    ∃ r ∈ rs, Holds first last r n := by
  induction rs generalizing cursor with
  | nil => exact absurd hlt (not_lt.mpr hn)
  | cons r rs ih =>
    rw [sweep] at hlt
    split at hlt
    · exact absurd hlt (not_lt.mpr hn)
    · rename_i hfirst
      by_cases hstep : n < advance last cursor r
      · exact ⟨r, List.mem_cons_self, (lt_advance_iff (not_lt.mp hfirst) hn).mp hstep⟩
      · obtain ⟨r', hmem, hholds⟩ := ih (not_lt.mp hstep) hlt
        exact ⟨r', List.mem_cons_of_mem r hmem, hholds⟩

/-- **Where a sweep comes to rest**, no range holds the position: those that are left begin
after it. -/
theorem not_holds_sweep (hsorted : rs.Pairwise fun x y => first x ≤ first y)
    {r : α} (hr : r ∈ rs) : ¬ Holds first last r (sweep first last cursor rs) := by
  induction rs generalizing cursor with
  | nil => exact absurd hr List.not_mem_nil
  | cons x rs ih =>
    obtain ⟨hx, hsorted⟩ := List.pairwise_cons.mp hsorted
    rw [sweep]
    split
    · rename_i hgap
      intro hholds
      rcases List.mem_cons.mp hr with rfl | hmem
      · exact absurd hholds.1 (not_le.mpr hgap)
      · exact absurd hholds.1 (not_le.mpr (hgap.trans_le (hx r hmem)))
    · rename_i hfirst
      rcases List.mem_cons.mp hr with rfl | hmem
      · -- the cursor is behind this range
        intro hholds
        have hrest : advance last cursor r ≤ sweep first last (advance last cursor r) rs := le_sweep
        have hpassed := (lt_advance_iff (not_lt.mp hfirst) (le_advance.trans hrest)).mpr hholds
        omega
      · exact ih hsorted hmem

/-- **A sweep decides whether there is a gap.** -/
theorem lt_sweep_iff (hsorted : rs.Pairwise fun x y => first x ≤ first y) :
    goal < sweep first last cursor rs ↔
      ∀ n, cursor ≤ n → n ≤ goal → ∃ r ∈ rs, Holds first last r n := by
  constructor
  · intro hlt n hn hgoal
    exact holds_of_lt_sweep hn (hgoal.trans_lt hlt)
  · intro hall
    by_contra hstop
    obtain ⟨r, hmem, hholds⟩ := hall _ le_sweep (not_lt.mp hstop)
    exact not_holds_sweep hsorted hmem hholds

/-- To stop early makes no difference, if there is something to do. -/
theorem reaches_eq (hle : cursor ≤ goal) :
    reaches first last goal cursor rs = true ↔ goal < sweep first last cursor rs := by
  induction rs generalizing cursor with
  | nil => exact iff_of_false Bool.false_ne_true (not_lt.mpr hle)
  | cons r rs ih =>
    rw [reaches, sweep]
    split
    · exact iff_of_false Bool.false_ne_true (not_lt.mpr hle)
    · split
      · rename_i hpassed
        exact iff_of_true rfl (hpassed.trans_le le_sweep)
      · rename_i hpassed
        exact ih (not_lt.mp hpassed)

/-- **The sweep that stops at a goal** decides whether there is a gap before it. -/
theorem reaches_iff (hsorted : rs.Pairwise fun x y => first x ≤ first y) (hle : cursor ≤ goal) :
    reaches first last goal cursor rs = true ↔
      ∀ n, cursor ≤ n → n ≤ goal → ∃ r ∈ rs, Holds first last r n :=
  (reaches_eq hle).trans (lt_sweep_iff hsorted)

/-- A goal that is behind the cursor is reached with the first range that leaves no gap. -/
theorem reaches_of_lt (hlt : goal < cursor) :
    reaches first last goal cursor rs = true ↔ ∃ r ∈ rs.head?, first r ≤ cursor := by
  cases rs with
  | nil => exact iff_of_false Bool.false_ne_true fun ⟨_, hmem, _⟩ => nomatch hmem
  | cons r rs =>
    rw [reaches]
    split
    · rename_i hgap
      refine iff_of_false Bool.false_ne_true ?_
      rintro ⟨x, hx, hfirst⟩
      rw [List.head?_cons, Option.mem_some_iff] at hx
      exact absurd hfirst (not_le.mpr (hx ▸ hgap))
    · rename_i hfirst
      rw [if_pos (hlt.trans_le le_advance)]
      exact iff_of_true rfl ⟨r, rfl, not_lt.mp hfirst⟩

end Sweep
