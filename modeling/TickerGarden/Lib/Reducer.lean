import Mathlib.Data.List.Forall2
import TickerGarden.Lib.Transition
import TickerGarden.Lib.Checked

/-!
# Reducers

A **reducer** folds a list of events into a state, and may refuse an event: it is a
function `f : σ → ε → Except err σ`, and reading a history is `List.foldlM f`.

* `Reducer.invariant` – what every accepted event preserves, an accepted history preserves;
* `Reducer.mapM_eq_ok_iff` – the case without a state: every event is read by itself;
* `Reducer.flatten_batches` – a history that is cut into batches is read whole;
* `Reducer.refines_of_run` – a reducer that can follow every step of a system follows its
  runs: it refuses nothing of what a run logs, and ends in a state that corresponds;
* `Reducer.Agree.foldlM` – two reducers that agree on every event, down to the error they
  refuse it with, agree on every history.
-/

namespace Reducer

variable {σ ε err : Type}

/-- **The invariant rule**: what every accepted event preserves, an accepted history
preserves. -/
theorem invariant {f : σ → ε → Except err σ} {I : σ → Prop}
    (hstep : ∀ s e t, I s → f s e = .ok t → I t) {es : List ε} {s t : σ}
    (h : es.foldlM f s = .ok t) (hs : I s) : I t := by
  induction es generalizing s with
  | nil =>
    rw [List.foldlM_nil, Checked.pure_eq_ok, Except.ok.injEq] at h
    rwa [← h]
  | cons e es ih =>
    rw [List.foldlM_cons, Checked.bind_eq_ok] at h
    obtain ⟨u, he, hes⟩ := h
    exact ih hes (hstep s e u hs he)

/-- A list that is read event by event, with nothing carried along. -/
theorem mapM_eq_ok_iff {f : σ → Except err ε} {l : List σ} {bs : List ε} :
    l.mapM f = .ok bs ↔ List.Forall₂ (fun a b => f a = .ok b) l bs := by
  induction l generalizing bs with
  | nil =>
    rw [List.mapM_nil, Checked.pure_eq_ok, Except.ok.injEq, List.forall₂_nil_left_iff, eq_comm]
  | cons a l ih =>
    rw [List.mapM_cons, Checked.bind_eq_ok]
    constructor
    · rintro ⟨b, hb, h⟩
      obtain ⟨cs, hcs, h⟩ := Checked.bind_eq_ok.mp h
      obtain rfl := Except.ok.inj h
      exact .cons hb (ih.mp hcs)
    · rintro (_ | ⟨hb, hbs⟩)
      exact ⟨_, hb, Checked.bind_eq_ok.mpr ⟨_, ih.mpr hbs, rfl⟩⟩

/-- What is read is what some event reads as. -/
theorem mem_mapM {f : σ → Except err ε} {l : List σ} {bs : List ε} (h : l.mapM f = .ok bs) {b : ε} :
    b ∈ bs ↔ ∃ a ∈ l, f a = .ok b := by
  have hread := mapM_eq_ok_iff.mp h
  clear h
  induction hread with
  | nil => simp
  | cons hab _ ih => simp [ih, hab, eq_comm]

/-- A list in batches of a size. -/
def batches {α : Type} (n : ℕ) (l : List α) : List (List α) :=
  (List.range ((l.length + n - 1) / n)).map fun i => (l.drop (i * n)).take n

/-- Batches put together again. -/
theorem flatten_batches {α : Type} {n : ℕ} (hn : 0 < n) (l : List α) :
    (batches n l).flatten = l := by
  have htake : ∀ k, ((List.range k).map fun i => (l.drop (i * n)).take n).flatten
      = l.take (k * n) := by
    intro k
    induction k with
    | zero => simp
    | succ k ih =>
      rw [List.range_succ, List.map_append, List.flatten_append, ih, Nat.succ_mul, List.take_add]
      simp
  rw [batches, htake]
  exact List.take_of_length_le (Checked.le_ceil_mul hn.ne' _)

/-- An accepted history can be cut: both parts are accepted. -/
theorem append_eq_ok {f : σ → ε → Except err σ} {es fs : List ε} {s t : σ} :
    (es ++ fs).foldlM f s = .ok t ↔ ∃ u, es.foldlM f s = .ok u ∧ fs.foldlM f u = .ok t := by
  rw [List.foldlM_append, Checked.bind_eq_ok]

/-- **A reducer refines a system** when it can follow every step: `D` relates what a step is
labelled with to the event the reducer reads of it, and `R` the states. -/
theorem refines_of_run {τ δ : Type} {step : τ → δ → τ → Prop} {f : σ → ε → Except err σ}
    {R : τ → σ → Prop} {D : δ → ε → Prop}
    (hstep : ∀ a l b e s, R a s → step a l b → D l e → ∃ s', f s e = .ok s' ∧ R b s')
    {a b : τ} {ls : List δ} (hrun : Transition.Run step a ls b) {es : List ε}
    (hlog : List.Forall₂ D ls es) {s : σ} (hs : R a s) :
    ∃ t, es.foldlM f s = .ok t ∧ R b t := by
  induction hrun generalizing es with
  | refl =>
    obtain rfl := List.forall₂_nil_left_iff.mp hlog
    exact ⟨s, rfl, hs⟩
  | @snoc c d ls l _ hlast ih =>
    -- the log of the last step is the last event
    have hinit := List.forall₂_take_append es ls [l] hlog.flip
    have hend := List.forall₂_drop_append es ls [l] hlog.flip
    obtain ⟨e, rest, he, hrest, hsplit⟩ := List.forall₂_cons_right_iff.mp hend
    obtain rfl := List.forall₂_nil_right_iff.mp hrest
    obtain ⟨t, ht, hR⟩ := ih hinit.flip
    obtain ⟨u, hu, hR'⟩ := hstep _ _ _ e t hR hlast he
    refine ⟨u, ?_, hR'⟩
    rw [← List.take_append_drop ls.length es, hsplit, append_eq_ok]
    exact ⟨t, ht, by rw [List.foldlM_cons, hu]; rfl⟩

/-! ### Two reducers that agree -/

/-- Two results agree: the same error, or states that correspond. -/
def Agree {τ : Type} (R : σ → τ → Prop) : Except err σ → Except err τ → Prop
  | .ok s, .ok t => R s t
  | .error e, .error e' => e = e'
  | _, _ => False

section Agree

variable {τ : Type} {R : σ → τ → Prop}

@[simp] theorem agree_error {e e' : err} :
    Agree R (.error e : Except err σ) (.error e' : Except err τ) ↔ e = e' := Iff.rfl

/-- What follows an agreement may be anything that agrees on corresponding states. -/
theorem Agree.bind {σ' τ' : Type} {R' : σ' → τ' → Prop} {x : Except err σ} {y : Except err τ}
    (h : Agree R x y) {f : σ → Except err σ'} {g : τ → Except err τ'}
    (hfg : ∀ s t, R s t → Agree R' (f s) (g t)) : Agree R' (x >>= f) (y >>= g) := by
  rcases x with e | s <;> rcases y with e' | t
  · exact h
  · exact h.elim
  · exact h.elim
  · exact hfg s t h

/-- What is returned of one result may change, as long as it still corresponds. -/
theorem Agree.map_left {σ' : Type} {R' : σ' → τ → Prop} {x : Except err σ} {y : Except err τ}
    (h : Agree R x y) {f : σ → σ'} (hf : ∀ s t, R s t → R' (f s) t) :
    Agree R' (x >>= fun s => pure (f s)) y := by
  rcases x with e | s <;> rcases y with e' | t
  · exact h
  · exact h.elim
  · exact h.elim
  · exact hf s t h

theorem Agree.error_left {x : Except err σ} {y : Except err τ} (h : Agree R x y) {e : err}
    (hx : x = .error e) : y = .error e := by
  subst hx
  rcases y with e' | t
  · exact congrArg Except.error (agree_error.mp h).symm
  · exact h.elim

theorem Agree.ok_left {x : Except err σ} {y : Except err τ} (h : Agree R x y) {s : σ}
    (hx : x = .ok s) : ∃ t, y = .ok t ∧ R s t := by
  subst hx
  rcases y with e' | t
  · exact h.elim
  · exact ⟨t, rfl, h⟩

/-- **Reducers that agree on every event agree on every history.** -/
theorem Agree.foldlM {f : σ → ε → Except err σ} {g : τ → ε → Except err τ} {es : List ε}
    (hstep : ∀ e ∈ es, ∀ s t, R s t → Agree R (f s e) (g t e)) {s : σ} {t : τ} (h : R s t) :
    Agree R (es.foldlM f s) (es.foldlM g t) := by
  induction es generalizing s t with
  | nil => exact h
  | cons e es ih =>
    rw [List.foldlM_cons, List.foldlM_cons]
    refine (hstep e List.mem_cons_self s t h).bind fun s' t' h' => ?_
    exact ih (fun e' he' => hstep e' (List.mem_cons_of_mem e he')) h'

end Agree

end Reducer
