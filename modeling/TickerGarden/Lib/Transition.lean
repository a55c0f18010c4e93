import Mathlib.Algebra.BigOperators.Group.List.Basic
import Mathlib.Tactic.Common

/-!
# Labelled transition systems

A system is a relation `step s e t`: from the state `s`, doing something that is
labelled `e`, it reaches `t`. A **run** is a finite sequence of steps and carries the
list of its labels; the **reachable** states are those a run leads to from an
initial one.

What a verification uses of a run is the passage from one step to all of them:

* `Transition.Run.invariant` – what every step preserves holds at the end;
* `Transition.Run.invariant_history` – the same for a property of the state *and* of
  what has happened so far;
* `Transition.Reachable.invariant` – the rule for reachable states, and
  `Transition.Reachable.of_run`, that a run stays among them;
* `Transition.Run.monotone` – a quantity no step decreases is not decreased by a run.
-/

namespace Transition

variable {σ ε : Type*} {step : σ → ε → σ → Prop} {init : σ → Prop}

/-- A run from one state to another, with the labels of its steps in order. -/
inductive Run (step : σ → ε → σ → Prop) : σ → List ε → σ → Prop
  | refl (s : σ) : Run step s [] s
  | snoc {s t u : σ} {es : List ε} {e : ε} : Run step s es t → step t e u → Run step s (es ++ [e]) u

/-- The states some run from an initial state leads to. -/
def Reachable (step : σ → ε → σ → Prop) (init : σ → Prop) (t : σ) : Prop :=
  ∃ s es, init s ∧ Run step s es t

theorem Run.single {s t : σ} {e : ε} (h : step s e t) : Run step s [e] t :=
  (Run.refl s).snoc h

theorem Run.append {s t u : σ} {es fs : List ε} (h : Run step s es t) (k : Run step t fs u) :
    Run step s (es ++ fs) u := by
  induction k with
  | refl => simpa using h
  | snoc _ hstep ih =>
    rw [← List.append_assoc]
    exact ih.snoc hstep

/-- **The invariant rule**: what every step preserves, a run preserves. -/
theorem Run.invariant {I : σ → Prop} (hstep : ∀ s e t, I s → step s e t → I t) {s t : σ}
    {es : List ε} (h : Run step s es t) (hs : I s) : I t := by
  induction h with
  | refl => exact hs
  | snoc _ hlast ih => exact hstep _ _ _ ih hlast

/-- **The invariant rule with history**: the invariant may mention what has happened. -/
theorem Run.invariant_history {I : List ε → σ → Prop}
    (hstep : ∀ es s e t, I es s → step s e t → I (es ++ [e]) t) {s t : σ} {es : List ε}
    (h : Run step s es t) (hs : I [] s) : I es t := by
  induction h with
  | refl => exact hs
  | snoc _ hlast ih => exact hstep _ _ _ _ ih hlast

/-- A quantity that no step decreases is not decreased by a run, on any part of the
state space the system does not leave. -/
theorem Run.monotone {α : Type*} [Preorder α] {I : σ → Prop} {f : σ → α}
    (hstep : ∀ s e t, I s → step s e t → I t)
    (hmono : ∀ s e t, I s → step s e t → f s ≤ f t) {s t : σ}
    {es : List ε} (h : Run step s es t) (hs : I s) : f s ≤ f t := by
  induction h with
  | refl => exact le_rfl
  | snoc hrun hlast ih => exact ih.trans (hmono _ _ _ (hrun.invariant hstep hs) hlast)

theorem Reachable.of_init {s : σ} (h : init s) : Reachable step init s :=
  ⟨s, [], h, Run.refl s⟩

theorem Reachable.next {s t : σ} {e : ε} (h : Reachable step init s) (k : step s e t) :
    Reachable step init t := by
  obtain ⟨s₀, es, hs₀, hrun⟩ := h
  exact ⟨s₀, es ++ [e], hs₀, hrun.snoc k⟩

/-- A run from a reachable state stays among the reachable states. -/
theorem Reachable.of_run {s t : σ} {es : List ε} (h : Reachable step init s)
    (k : Run step s es t) : Reachable step init t := by
  obtain ⟨s₀, fs, hs₀, hrun⟩ := h
  exact ⟨s₀, fs ++ es, hs₀, hrun.append k⟩

/-- **The invariant rule for reachable states.** -/
theorem Reachable.invariant {I : σ → Prop} (hinit : ∀ s, init s → I s)
    (hstep : ∀ s e t, I s → step s e t → I t) {t : σ} (h : Reachable step init t) : I t := by
  obtain ⟨s, es, hs, hrun⟩ := h
  exact hrun.invariant hstep (hinit s hs)

end Transition
