import Mathlib.Algebra.BigOperators.Fin
import Mathlib.Algebra.BigOperators.Group.Finset.Basic
import Mathlib.Algebra.Order.BigOperators.Group.Finset
import Mathlib.Data.Fintype.BigOperators
import TickerGarden.Lib.Checked

/-!
# Sums of ledgers

A ledger keeps a value for each account, and a total. An operation moves the value of
one account; what it has to say about the total is `Sums.sum_of_eq_off`: the totals
differ as the values of that account do. It is stated without subtraction, so that it
can be handed to linear arithmetic as it is.

`Sums.credit` and `Sums.debit` are the two checked operations on one account: an amount
is added or taken off, unless the word overflows.
-/

namespace Sums

open Function

variable {ι : Type*} [Fintype ι] {f f' g : ι → ℕ} {u : ι}

variable (f f') in
/-- **Two ledgers that agree off one account** have totals that differ as that account
does. -/
theorem sum_of_eq_off (h : ∀ v, v ≠ u → f' v = f v) : ∑ v, f' v + f u = ∑ v, f v + f' u := by
  classical
  have hf := Finset.add_sum_erase Finset.univ f (Finset.mem_univ u)
  have hf' := Finset.add_sum_erase Finset.univ f' (Finset.mem_univ u)
  have hrest : ∑ x ∈ Finset.univ.erase u, f' x = ∑ x ∈ Finset.univ.erase u, f x :=
    Finset.sum_congr rfl fun v hv => h v (Finset.ne_of_mem_erase hv)
  omega

/-- The value of an account is part of the total. -/
theorem le_sum (f : ι → ℕ) (u : ι) : f u ≤ ∑ v, f v :=
  Finset.single_le_sum (fun _ _ => Nat.zero_le _) (Finset.mem_univ u)

/-- A ledger replaced at one account. -/
theorem sum_update [DecidableEq ι] (f : ι → ℕ) (u : ι) (n : ℕ) :
    ∑ v, update f u n v + f u = ∑ v, f v + n := by
  have h : ∑ v, update f u n v + f u = ∑ v, f v + update f u n u :=
    sum_of_eq_off _ _ fun v hv => update_of_ne hv n f
  rwa [update_self] at h

/-- A total is zero exactly when all values are. -/
theorem sum_eq_zero : ∑ v, f v = 0 ↔ ∀ v, f v = 0 := by
  simp [Finset.sum_eq_zero_iff]

/-- One ledger below another has a total below. -/
theorem sum_le_sum (h : ∀ v, f v ≤ g v) : ∑ v, f v ≤ ∑ v, g v :=
  Finset.sum_le_sum fun v _ => h v

/-- **A field of a value is the same** after one value is replaced, if the new one has it. -/
theorem field_update {κ α β : Type*} [DecidableEq κ] {l : κ → α} {k i : κ} {x : α} (field : α → β)
    (h : i = k → field x = field (l k)) : field (update l k x i) = field (l i) := by
  rcases eq_or_ne i k with rfl | hne
  · rw [update_self]
    exact h rfl
  · rw [update_of_ne hne]

/-! ### Checked operations -/

section Checked

variable {κ ε : Type} [DecidableEq κ] [Checked.Panics ε] {l l' : κ → ℕ} {k v : κ} {n : ℕ}

/-- `ledger[account] += amount`. -/
def credit (l : κ → ℕ) (k : κ) (n : ℕ) : Except ε (κ → ℕ) := do
  let amount ← Checked.uadd (l k) n
  return update l k amount

/-- `ledger[account] -= amount`. -/
def debit (l : κ → ℕ) (k : κ) (n : ℕ) : Except ε (κ → ℕ) := do
  let amount ← Checked.usub (l k) n
  return update l k amount

theorem credit_eq_ok : (credit l k n : Except ε (κ → ℕ)) = .ok l' ↔
    l k + n ≤ Checked.maxUint256 ∧ l' = update l k (l k + n) := by
  unfold credit
  simp only [Checked.bind_eq_ok, Checked.uadd_eq_ok, Checked.pure_eq_ok, Except.ok.injEq]
  constructor
  · rintro ⟨_, ⟨hle, rfl⟩, rfl⟩
    exact ⟨hle, rfl⟩
  · rintro ⟨hle, rfl⟩
    exact ⟨_, ⟨hle, rfl⟩, rfl⟩

theorem debit_eq_ok : (debit l k n : Except ε (κ → ℕ)) = .ok l' ↔
    n ≤ l k ∧ l' = update l k (l k - n) := by
  unfold debit
  simp only [Checked.bind_eq_ok, Checked.usub_eq_ok, Checked.pure_eq_ok, Except.ok.injEq]
  constructor
  · rintro ⟨_, ⟨hle, rfl⟩, rfl⟩
    exact ⟨hle, rfl⟩
  · rintro ⟨hle, rfl⟩
    exact ⟨_, ⟨hle, rfl⟩, rfl⟩

theorem credit_self (h : (credit l k n : Except ε (κ → ℕ)) = .ok l') : l' k = l k + n := by
  obtain ⟨-, rfl⟩ := credit_eq_ok.mp h
  exact update_self ..

theorem credit_of_ne (h : (credit l k n : Except ε (κ → ℕ)) = .ok l') (hne : v ≠ k) :
    l' v = l v := by
  obtain ⟨-, rfl⟩ := credit_eq_ok.mp h
  exact update_of_ne hne ..

theorem debit_self (h : (debit l k n : Except ε (κ → ℕ)) = .ok l') : l' k + n = l k := by
  obtain ⟨hle, rfl⟩ := debit_eq_ok.mp h
  rw [update_self]
  omega

theorem debit_of_ne (h : (debit l k n : Except ε (κ → ℕ)) = .ok l') (hne : v ≠ k) :
    l' v = l v := by
  obtain ⟨-, rfl⟩ := debit_eq_ok.mp h
  exact update_of_ne hne ..

variable [Fintype κ]

/-- A credit adds to the total. -/
theorem sum_credit (h : (credit l k n : Except ε (κ → ℕ)) = .ok l') :
    ∑ v, l' v = ∑ v, l v + n := by
  have hself := credit_self h
  have hsum := sum_of_eq_off l l' fun v hv => credit_of_ne h hv
  omega

/-- A debit takes off the total. -/
theorem sum_debit (h : (debit l k n : Except ε (κ → ℕ)) = .ok l') :
    ∑ v, l' v + n = ∑ v, l v := by
  have hself := debit_self h
  have hsum := sum_of_eq_off l l' fun v hv => debit_of_ne h hv
  omega

end Checked

end Sums
