import TickerGarden.Lib.Checked

/-!
# Two computations that agree

Two programs for the same function, written in different languages, do not fail with the same
errors, and do not return the same type. What can be asked is that they *agree*: on every
input they return related values, or both fail (`Agreement.Agree`). Which error each of them
fails with is not compared.

Agreement is proved along the computations. Where both take the same step, it goes through the
sequencing (`Agreement.Agree.bind`); where one of them takes a step that the other does not
need, that step is computed away first. A guard agrees with a guard if they test the same
(`Agreement.agree_revertIf`).
-/

namespace Agreement

open Checked

variable {ε δ α β α' β' : Type} {R : α → β → Prop}

/-- Related values, or two failures. -/
def Agree (R : α → β → Prop) : Except ε α → Except δ β → Prop
  | .ok a, .ok b => R a b
  | .error _, .error _ => True
  | _, _ => False

@[simp] theorem agree_ok {a : α} {b : β} :
    Agree R (.ok a : Except ε α) (.ok b : Except δ β) ↔ R a b := Iff.rfl

/-- **Agreement through a sequence.** -/
theorem Agree.bind {S : α' → β' → Prop} {x : Except ε α} {y : Except δ β}
    {f : α → Except ε α'} {g : β → Except δ β'} (h : Agree R x y)
    (hfg : ∀ a b, x = .ok a → y = .ok b → R a b → Agree S (f a) (g b)) :
    Agree S (x >>= f) (y >>= g) := by
  cases x with
  | error e =>
    cases y with
    | error e' => trivial
    | ok b => exact h.elim
  | ok a =>
    cases y with
    | error e' => exact h.elim
    | ok b => exact hfg a b rfl rfl h

/-- Two guards that test the same. -/
theorem agree_revertIf {p q : Prop} [Decidable p] [Decidable q] {e : ε} {e' : δ} (h : p ↔ q) :
    Agree (fun _ _ => True) (revertIf p e) (revertIf q e') := by
  by_cases hp : p
  · rw [revertIf_pos hp, revertIf_pos (h.mp hp)]
    trivial
  · rw [revertIf_neg hp, revertIf_neg fun hq => hp (h.mpr hq)]
    trivial

/-- Computations of which neither returns a value agree. -/
theorem agree_of_fails {x : Except ε α} {y : Except δ β} (hx : x.isOk = false)
    (hy : y.isOk = false) : Agree R x y := by
  cases x with
  | ok a => cases hx
  | error e =>
    cases y with
    | ok b => cases hy
    | error e' => trivial

end Agreement
