import Mathlib.Data.Nat.Basic
import Mathlib.Tactic.Ring
import Mathlib.Tactic.Linarith

/-!
# Checked machine arithmetic in an exception monad

A contract runs in a monad in which any step may abandon the whole call, and its
arithmetic is the arithmetic of natural numbers below a power of two: an
operation that leaves that range does not wrap, it *panics*. This file fixes both
once.

A computation is an `Except ε α`, and the error type `ε` is left open: all that is
asked of it is a way to carry a `Checked.Panic`. Every operation comes with the
same lemma, an **inversion**: it returns a value exactly when its guard holds, and
then the value is the one of `ℕ`. A successful call is therefore read by
`Checked.bind_eq_ok` and these inversions, one guard after the other, and never by
unfolding an operation.

| operation                | succeeds when                     | value             |
|--------------------------|-----------------------------------|-------------------|
| `Checked.uadd a b`       | `a + b ≤ maxUint256`              | `a + b`           |
| `Checked.usub a b`       | `b ≤ a`                           | `a - b`           |
| `Checked.umul a b`       | `a * b ≤ maxUint256`              | `a * b`           |
| `Checked.mulDiv a b c`   | `c ≠ 0`, `a * b / c ≤ maxUint256` | `a * b / c`       |
| `Checked.mulDivUp a b c` | the same of the rounded-up value  | `⌈a * b / c⌉`     |
-/

namespace Checked

/-- The two arithmetic panics of the machine. -/
inductive Panic
  /-- An addition, subtraction or multiplication leaves the range of the word. -/
  | arithmetic
  /-- A division by zero. -/
  | divisionByZero
deriving DecidableEq, Repr

/-- An error type that can carry a panic. -/
class Panics (ε : Type) where
  /-- The error an arithmetic panic is reported as. -/
  panic : Panic → ε

/-- The greatest value of a 256-bit unsigned word. -/
def maxUint256 : ℕ := 2 ^ 256 - 1

/-! ### Sequencing -/

section Sequencing

variable {ε α β : Type}

/-- **Inversion of a sequence**: it returns a value exactly when its first part
does and the rest does on what the first part returned. -/
@[simp] theorem bind_eq_ok {x : Except ε α} {f : α → Except ε β} {b : β} :
    (x >>= f) = .ok b ↔ ∃ a, x = .ok a ∧ f a = .ok b := by
  cases x <;> simp [bind, Except.bind]

/-- A sequence fails exactly when its first part does, or the rest does on what
the first part returned. -/
theorem bind_eq_error {x : Except ε α} {f : α → Except ε β} {e : ε} :
    (x >>= f) = .error e ↔ x = .error e ∨ ∃ a, x = .ok a ∧ f a = .error e := by
  cases x <;> simp [bind, Except.bind]

@[simp] theorem ok_bind {a : α} {f : α → Except ε β} : ((.ok a : Except ε α) >>= f) = f a := rfl

@[simp] theorem error_bind {e : ε} {f : α → Except ε β} :
    ((.error e : Except ε α) >>= f) = .error e := rfl

@[simp] theorem pure_eq_ok {a : α} : (pure a : Except ε α) = .ok a := rfl

/-- The guard of a call: abandon it with `e` if `c` holds. -/
def revertIf (c : Prop) [Decidable c] (e : ε) : Except ε Unit :=
  if c then .error e else .ok ()

@[simp] theorem revertIf_eq_ok {c : Prop} [Decidable c] {e : ε} {u : Unit} :
    revertIf c e = .ok u ↔ ¬ c := by
  unfold revertIf; split <;> simp_all

@[simp] theorem revertIf_eq_error {c : Prop} [Decidable c] {e e' : ε} :
    revertIf c e = .error e' ↔ c ∧ e = e' := by
  unfold revertIf; split <;> simp_all

theorem revertIf_neg {c : Prop} [Decidable c] {e : ε} (h : ¬ c) : revertIf c e = .ok () := by
  simp [h]

theorem revertIf_pos {c : Prop} [Decidable c] {e : ε} (h : c) : revertIf c e = .error e := by
  simp [h]

/-- A call that may be refused, as a computation that fails with `e`. -/
def orRevert (x : Option α) (e : ε) : Except ε α :=
  x.elim (.error e) .ok

@[simp] theorem orRevert_eq_ok {x : Option α} {e : ε} {a : α} :
    orRevert x e = .ok a ↔ x = some a := by
  cases x <;> simp [orRevert]

/-- A loop of checks succeeds if all of them do. -/
theorem forM_eq_ok {f : α → Except ε PUnit} {l : List α} :
    l.forM f = .ok () ↔ ∀ a ∈ l, f a = .ok () := by
  induction l with
  | nil => simp
  | cons a l ih =>
    change (f a >>= fun _ => l.forM f) = .ok () ↔ _
    rw [bind_eq_ok, List.forall_mem_cons]
    constructor
    · rintro ⟨_, ha, hl⟩
      exact ⟨ha, ih.mp hl⟩
    · exact fun ⟨ha, hl⟩ => ⟨(), ha, ih.mpr hl⟩

/-- A computation that succeeds on every element of a list. -/
theorem mapM_eq_ok {f : α → Except ε β} {g : α → β} {l : List α} (h : ∀ a ∈ l, f a = .ok (g a)) :
    l.mapM f = .ok (l.map g) := by
  induction l with
  | nil => rfl
  | cons a l ih =>
    rw [List.mapM_cons, h a List.mem_cons_self, ok_bind,
      ih fun b hb => h b (List.mem_cons_of_mem a hb)]
    rfl

/-- The value of a computation that is known to have one. -/
def value : (x : Except ε α) → x.isOk = true → α
  | .ok a, _ => a

theorem eq_ok_value {x : Except ε α} (h : x.isOk = true) : x = .ok (value x h) := by
  cases x with
  | ok a => rfl
  | error e => cases h

end Sequencing

/-! ### The operations -/

section Operations

variable {ε : Type} [Panics ε] {a b c d : ℕ}

/-- Addition of 256-bit words. -/
def uadd (a b : ℕ) : Except ε ℕ :=
  if a + b ≤ maxUint256 then .ok (a + b) else .error (Panics.panic .arithmetic)

/-- Subtraction of unsigned words, of any width. -/
def usub (a b : ℕ) : Except ε ℕ :=
  if b ≤ a then .ok (a - b) else .error (Panics.panic .arithmetic)

/-- Multiplication of 256-bit words. -/
def umul (a b : ℕ) : Except ε ℕ :=
  if a * b ≤ maxUint256 then .ok (a * b) else .error (Panics.panic .arithmetic)

/-- `++n` on a word whose greatest value is `max`. -/
def incr (max n : ℕ) : Except ε ℕ :=
  if n < max then .ok (n + 1) else .error (Panics.panic .arithmetic)

@[simp] theorem incr_eq_ok {m : ℕ} : (incr m a : Except ε ℕ) = .ok c ↔ a < m ∧ c = a + 1 := by
  unfold incr; split <;> simp_all [eq_comm]

/-- The full-precision quotient `⌊a * b / c⌋`: the product is never narrowed, only
the quotient has to fit in the word. -/
def mulDiv (a b c : ℕ) : Except ε ℕ :=
  if c = 0 then .error (Panics.panic .divisionByZero)
  else if a * b / c ≤ maxUint256 then .ok (a * b / c)
  else .error (Panics.panic .arithmetic)

/-- The full-precision quotient rounded up: one more than the floor, when the
division leaves a remainder. -/
def mulDivUp (a b c : ℕ) : Except ε ℕ := do
  let floored ← mulDiv a b c
  uadd floored (if a * b % c = 0 then 0 else 1)

@[simp] theorem uadd_eq_ok : (uadd a b : Except ε ℕ) = .ok c ↔ a + b ≤ maxUint256 ∧ c = a + b := by
  unfold uadd; split <;> simp_all [eq_comm]

@[simp] theorem usub_eq_ok : (usub a b : Except ε ℕ) = .ok c ↔ b ≤ a ∧ c = a - b := by
  unfold usub; split <;> simp_all [eq_comm]

@[simp] theorem umul_eq_ok : (umul a b : Except ε ℕ) = .ok c ↔ a * b ≤ maxUint256 ∧ c = a * b := by
  unfold umul; split <;> simp_all [eq_comm]

@[simp] theorem mulDiv_eq_ok :
    (mulDiv a b c : Except ε ℕ) = .ok d ↔ c ≠ 0 ∧ a * b / c ≤ maxUint256 ∧ d = a * b / c := by
  unfold mulDiv; split <;> [skip; split] <;> simp_all [eq_comm]

@[simp] theorem uadd_eq_error {e : ε} :
    (uadd a b : Except ε ℕ) = .error e ↔ maxUint256 < a + b ∧ Panics.panic .arithmetic = e := by
  unfold uadd; split <;> simp_all

@[simp] theorem usub_eq_error {e : ε} :
    (usub a b : Except ε ℕ) = .error e ↔ a < b ∧ Panics.panic .arithmetic = e := by
  unfold usub; split <;> simp_all

/-- The way a full-precision quotient fails is always a panic. -/
theorem mulDiv_eq_error {e : ε} (h : (mulDiv a b c : Except ε ℕ) = .error e) :
    ∃ p, e = Panics.panic p := by
  unfold mulDiv at h
  split at h
  · exact ⟨_, (Except.error.inj h).symm⟩
  · split at h
    · cases h
    · exact ⟨_, (Except.error.inj h).symm⟩

/-- Rounding up is the least value whose product with the divisor covers the
dividend, as a quotient of naturals. -/
theorem div_add_mod_round (hc : c ≠ 0) :
    a * b / c + (if a * b % c = 0 then 0 else 1) = (a * b + c - 1) / c := by
  have hpos : 0 < c := Nat.pos_of_ne_zero hc
  have hdm := Nat.div_add_mod (a * b) c
  have hlt := Nat.mod_lt (a * b) hpos
  set q := a * b / c
  set r := a * b % c
  split
  · rename_i h0
    symm
    rw [← hdm, h0, Nat.add_zero, Nat.add_sub_assoc hpos, Nat.mul_add_div hpos,
      Nat.div_eq_of_lt (by omega : c - 1 < c)]
  · rename_i h0
    symm
    rw [← hdm, show c * q + r + c - 1 = c * q + (c + (r - 1)) by omega, Nat.mul_add_div hpos,
      Nat.add_div_left _ hpos, Nat.div_eq_of_lt (by omega : r - 1 < c)]

@[simp] theorem mulDivUp_eq_ok :
    (mulDivUp a b c : Except ε ℕ) = .ok d ↔
      c ≠ 0 ∧ (a * b + c - 1) / c ≤ maxUint256 ∧ d = (a * b + c - 1) / c := by
  unfold mulDivUp
  simp only [bind_eq_ok, mulDiv_eq_ok, uadd_eq_ok]
  constructor
  · rintro ⟨q, ⟨hc, -, rfl⟩, hle, rfl⟩
    rw [div_add_mod_round hc] at hle ⊢
    exact ⟨hc, hle, rfl⟩
  · rintro ⟨hc, hle, rfl⟩
    have hround := div_add_mod_round (a := a) (b := b) hc
    refine ⟨a * b / c, ⟨hc, by omega, rfl⟩, ?_, hround.symm⟩
    rw [hround]
    exact hle

/-! ### How a computation fails

`FailsOnly x P` says that every error of `x` satisfies `P`. It is decomposed along the
computation by `simp`, down to its guards, where it asks `P` of an error only under
the condition that raises it. -/

section Failures

variable {α β : Type} {P : ε → Prop}

/-- Every error of `x` satisfies `P`. -/
def FailsOnly (x : Except ε α) (P : ε → Prop) : Prop := ∀ e, x = .error e → P e

omit [Panics ε] in
theorem FailsOnly.mono {x : Except ε α} {Q : ε → Prop} (h : FailsOnly x P)
    (hPQ : ∀ e, P e → Q e) : FailsOnly x Q := fun e he => hPQ e (h e he)

omit [Panics ε] in
@[simp] theorem failsOnly_ok {v : α} : FailsOnly (.ok v : Except ε α) P := fun _ h => by cases h

omit [Panics ε] in
@[simp] theorem failsOnly_error {e : ε} : FailsOnly (.error e : Except ε α) P ↔ P e :=
  ⟨fun h => h e rfl, fun h e' he' => by rw [← Except.error.inj he']; exact h⟩

omit [Panics ε] in
@[simp] theorem failsOnly_bind {x : Except ε α} {f : α → Except ε β} :
    FailsOnly (x >>= f) P ↔ FailsOnly x P ∧ ∀ v, x = .ok v → FailsOnly (f v) P := by
  cases x <;> simp

omit [Panics ε] in
@[simp] theorem failsOnly_revertIf {p : Prop} [Decidable p] {e : ε} :
    FailsOnly (revertIf p e) P ↔ (p → P e) := by
  unfold revertIf; split <;> simp_all

omit [Panics ε] in
@[simp] theorem failsOnly_orRevert {x : Option α} {e : ε} :
    FailsOnly (orRevert x e) P ↔ (x = none → P e) := by
  cases x <;> simp [orRevert]

omit [Panics ε] in
@[simp] theorem failsOnly_ite {p : Prop} [Decidable p] {x y : Except ε α} :
    FailsOnly (if p then x else y) P ↔ (p → FailsOnly x P) ∧ (¬ p → FailsOnly y P) := by
  split <;> simp_all

omit [Panics ε] in
/-- A loop fails only as its rounds do. -/
theorem failsOnly_foldlM {f : β → α → Except ε β} {l : List α}
    (h : ∀ b a, FailsOnly (f b a) P) (b : β) : FailsOnly (l.foldlM f b) P := by
  induction l generalizing b with
  | nil => exact failsOnly_ok
  | cons a l ih => exact failsOnly_bind.mpr ⟨h b a, fun b' _ => ih b'⟩

theorem failsOnly_uadd (h : P (Panics.panic .arithmetic)) :
    FailsOnly (uadd a b : Except ε ℕ) P := by
  unfold uadd; split <;> simp_all

theorem failsOnly_usub (h : P (Panics.panic .arithmetic)) :
    FailsOnly (usub a b : Except ε ℕ) P := by
  unfold usub; split <;> simp_all

theorem failsOnly_umul (h : P (Panics.panic .arithmetic)) :
    FailsOnly (umul a b : Except ε ℕ) P := by
  unfold umul; split <;> simp_all

theorem failsOnly_mulDiv (h : ∀ p, P (Panics.panic p)) : FailsOnly (mulDiv a b c : Except ε ℕ) P :=
  fun e he => by
    obtain ⟨p, rfl⟩ := mulDiv_eq_error he
    exact h p

end Failures

/-! ### Bounds on quotients -/

/-- A floored quotient times its divisor is within the dividend. -/
theorem div_mul_le (n c : ℕ) : n / c * c ≤ n := Nat.div_mul_le_self n c

/-- The dividend is covered by the rounded-up quotient. -/
theorem le_ceil_mul (hc : c ≠ 0) (n : ℕ) : n ≤ (n + c - 1) / c * c := by
  have hpos : 0 < c := Nat.pos_of_ne_zero hc
  have hdm := Nat.div_add_mod (n + c - 1) c
  have hlt := Nat.mod_lt (n + c - 1) hpos
  rw [Nat.mul_comm]
  omega

/-- A rounded-up quotient is the least cover: anything that covers the dividend is
at least it. -/
theorem ceil_le (hc : c ≠ 0) {n k : ℕ} (h : n ≤ k * c) : (n + c - 1) / c ≤ k := by
  have hpos : 0 < c := Nat.pos_of_ne_zero hc
  rw [Nat.div_le_iff_le_mul_add_pred hpos]
  rw [Nat.mul_comm c k]
  omega

end Operations

end Checked
