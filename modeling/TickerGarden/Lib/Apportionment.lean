import Mathlib.Algebra.BigOperators.Group.List.Basic
import Mathlib.Data.List.Perm.Basic
import Mathlib.Data.List.Nodup
import Mathlib.Data.Nat.Basic
import Mathlib.Tactic.Ring

/-!
# Apportionment by largest remainder

An amount is divided among claimants in proportion to their weights, in whole units. Each gets
its **quota**, the exact part rounded down; the units that are left over are given out one by
one, along a list of priority, to as many claimants as there are units.

The units fit: they are the remainders added up, in multiples of the total weight, and each
remainder is less than the total weight (`Apportionment.leftover_le`). So the awards sum to the
amount exactly (`Apportionment.sum_award`), whatever the list of priority is; and whoever gets a
unit comes before everybody who gets none (`Apportionment.priority`).
-/

namespace Apportionment

variable {α : Type} (amount : ℕ) (weight : α → ℕ) (l : List α)

/-- The total weight. -/
def total : ℕ := (l.map weight).sum

/-- The part of a claimant, rounded down. -/
def quota (whole : ℕ) (x : α) : ℕ := amount * weight x / whole

/-- What rounding down takes off, in parts of a unit. -/
def remainder (whole : ℕ) (x : α) : ℕ := amount * weight x % whole

/-- The units that rounding down leaves over. -/
def leftover (whole : ℕ) : ℕ := amount - (l.map (quota amount weight whole)).sum

/-- What a claimant is awarded, with one of the units if it is favoured. -/
def award [DecidableEq α] (whole : ℕ) (favoured : List α) (x : α) : ℕ :=
  quota amount weight whole x + if x ∈ favoured then 1 else 0

variable {amount weight l}

/-- **The quotas and the remainders make up the amount.** -/
theorem sum_quota_remainder (amount : ℕ) (weight : α → ℕ) (l : List α) (whole : ℕ) :
    whole * (l.map (quota amount weight whole)).sum + (l.map (remainder amount weight whole)).sum
      = amount * total weight l := by
  induction l with
  | nil => rfl
  | cons x l ih =>
    have hx : whole * quota amount weight whole x + remainder amount weight whole x
        = amount * weight x := Nat.div_add_mod _ _
    have htotal : amount * total weight (x :: l) = amount * weight x + amount * total weight l := by
      rw [total, List.map_cons, List.sum_cons, Nat.mul_add, total]
    rw [htotal, ← ih, ← hx, List.map_cons, List.map_cons, List.sum_cons, List.sum_cons]
    ring

variable (hpos : 0 < total weight l)
include hpos

/-- The quotas never exceed the amount. -/
theorem sum_quota_le : (l.map (quota amount weight (total weight l))).sum ≤ amount := by
  have hsum := sum_quota_remainder amount weight l (total weight l)
  refine Nat.le_of_mul_le_mul_left ?_ hpos
  rw [Nat.mul_comm (total weight l) amount]
  omega

omit hpos in
/-- The units left over are the remainders, in multiples of the total weight. -/
theorem total_mul_leftover :
    total weight l * leftover amount weight l (total weight l)
      = (l.map (remainder amount weight (total weight l))).sum := by
  have hsum := sum_quota_remainder amount weight l (total weight l)
  rw [leftover, Nat.mul_sub, Nat.mul_comm (total weight l) amount]
  omega

/-- **There are no more units than claimants.** -/
theorem leftover_le : leftover amount weight l (total weight l) ≤ l.length := by
  have hbound : ∀ m : List α, (m.map (remainder amount weight (total weight l))).sum
      ≤ total weight l * m.length := by
    intro m
    induction m with
    | nil => exact Nat.zero_le _
    | cons x m ih =>
      have hx : remainder amount weight (total weight l) x < total weight l := Nat.mod_lt _ hpos
      rw [List.map_cons, List.sum_cons, List.length_cons, Nat.mul_add, Nat.mul_one]
      omega
  refine Nat.le_of_mul_le_mul_left ?_ hpos
  rw [total_mul_leftover]
  exact hbound l

omit hpos in
/-- Counting the favoured among all. -/
theorem sum_favoured [DecidableEq α] {favoured : List α} (hfavoured : favoured.Nodup)
    (hl : l.Nodup) (hsub : favoured ⊆ l) :
    (l.map fun x => if x ∈ favoured then 1 else 0).sum = favoured.length := by
  have hcount : ∀ m : List α, (m.map fun x => if x ∈ favoured then 1 else 0).sum
      = (m.filter (· ∈ favoured)).length := by
    intro m
    induction m with
    | nil => rfl
    | cons x m ih =>
      rw [List.map_cons, List.sum_cons, ih, List.filter_cons]
      by_cases hx : x ∈ favoured
      · rw [if_pos hx, if_pos (decide_eq_true hx), List.length_cons, Nat.add_comm]
      · rw [if_neg hx, if_neg (by simpa using hx), Nat.zero_add]
  have hperm : (l.filter (· ∈ favoured)).Perm favoured := by
    refine (List.perm_ext_iff_of_nodup (hl.filter _) hfavoured).mpr fun x => ?_
    rw [List.mem_filter, decide_eq_true_eq]
    exact ⟨And.right, fun hx => ⟨hsub hx, hx⟩⟩
  rw [hcount, hperm.length_eq]

/-- **The awards sum to the amount**, along any list of priority. -/
theorem sum_award [DecidableEq α] {order : List α} (hl : l.Nodup) (horder : order.Perm l) :
    (l.map (award amount weight (total weight l)
      (order.take (leftover amount weight l (total weight l))))).sum = amount := by
  have hfavoured : (order.take (leftover amount weight l (total weight l))).Nodup :=
    (List.take_sublist _ _).nodup (horder.nodup_iff.mpr hl)
  have hsub : order.take (leftover amount weight l (total weight l)) ⊆ l := fun x hx =>
    horder.subset ((List.take_sublist _ _).subset hx)
  have hlength : (order.take (leftover amount weight l (total weight l))).length
      = leftover amount weight l (total weight l) := by
    rw [List.length_take, horder.length_eq]
    exact Nat.min_eq_left (leftover_le hpos)
  have hsplit : (l.map (award amount weight (total weight l)
      (order.take (leftover amount weight l (total weight l))))).sum
      = (l.map (quota amount weight (total weight l))).sum
        + (l.map fun x => if x ∈ order.take (leftover amount weight l (total weight l))
            then 1 else 0).sum := List.sum_map_add
  have hle : (l.map (quota amount weight (total weight l))).sum ≤ amount := sum_quota_le hpos
  rw [hsplit, sum_favoured hfavoured hl hsub, hlength, leftover]
  omega

omit hpos in
/-- **Whoever gets a unit comes first.** -/
theorem priority {r : α → α → Prop} {order : List α} {n : ℕ} (horder : order.Pairwise r) {x y : α}
    (hx : x ∈ order.take n) (hy : y ∈ order) (hnot : y ∉ order.take n) : r x y := by
  rw [← List.take_append_drop n order, List.pairwise_append] at horder
  rw [← List.take_append_drop n order, List.mem_append] at hy
  exact horder.2.2 x hx y (hy.resolve_left hnot)

end Apportionment
