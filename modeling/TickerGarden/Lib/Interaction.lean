import Mathlib.Tactic.Common

/-!
# Programs that ask

A process that reads, writes and talks to others is, between two of its requests, a pure
computation. A program is therefore the tree of its requests: it is done, it fails, or it asks
and goes on with the answer. The answers are left open: what a program does is what it does for
every answer, and a process that is killed at a request is a program cut off there.

`Interaction.Program.Meets` says what a program does to a state that its requests read and
change: every request it makes is allowed where it makes it, and its result, or its failure, is
as stated. It is computed from the program, so that a program is verified piece by piece:

* `Interaction.Program.Meets.bind` – in sequence;
* `Interaction.Program.Meets.tryCatch` – with what catches a failure;
* `Interaction.Program.Meets.of_asks` – a program all of whose requests keep a relation keeps
  it, whatever else it does.
-/

namespace Interaction

/-- A program whose requests are `Req`, with an answer in `Ans r` to each. -/
inductive Program (Req : Type) (Ans : Req → Type) (ε α : Type) : Type
  | done (a : α)
  | fail (e : ε)
  | ask (r : Req) (k : Ans r → Program Req Ans ε α)

namespace Program

variable {Req : Type} {Ans : Req → Type} {ε α β : Type}

/-- One program after the other. -/
def andThen : Program Req Ans ε α → (α → Program Req Ans ε β) → Program Req Ans ε β
  | done a, f => f a
  | fail e, _ => fail e
  | ask r k, f => ask r fun x => (k x).andThen f

instance : Monad (Program Req Ans ε) where
  pure := done
  bind := andThen

/-- A program, and what is done when it fails. -/
def tryCatch : Program Req Ans ε α → (ε → Program Req Ans ε α) → Program Req Ans ε α
  | done a, _ => done a
  | fail e, h => h e
  | ask r k, h => ask r fun x => (k x).tryCatch h

/-- A pure computation. -/
def lift : Except ε α → Program Req Ans ε α
  | .ok a => done a
  | .error e => fail e

/-! ### What a program does to a state -/

section Meets

variable {σ : Type} {allows allows' : σ → Req → Prop} {moves : σ → (r : Req) → Ans r → σ → Prop}

/-- **The program meets its postconditions** from a state: for whatever answers `moves` lets
it have, its requests are allowed, and it ends as stated. -/
def Meets (allows : σ → Req → Prop) (moves : σ → (r : Req) → Ans r → σ → Prop) :
    Program Req Ans ε α → σ → (α → σ → Prop) → (ε → σ → Prop) → Prop
  | done a, s, Q, _ => Q a s
  | fail e, s, _, E => E e s
  | ask r k, s, Q, E => allows s r ∧ ∀ x s', moves s r x s' → Meets allows moves (k x) s' Q E

variable {p : Program Req Ans ε α} {s : σ} {Q Q' : α → σ → Prop} {E E' : ε → σ → Prop}

/-- What a program meets, it meets with less asked. -/
theorem Meets.mono (h : p.Meets allows moves s Q E) (hQ : ∀ a s, Q a s → Q' a s)
    (hE : ∀ e s, E e s → E' e s) : p.Meets allows moves s Q' E' := by
  induction p generalizing s with
  | done a => exact hQ a s h
  | fail e => exact hE e s h
  | ask r k ih => exact ⟨h.1, fun x s' hmove => ih x (h.2 x s' hmove)⟩

/-- **Sequence**: the second program is met from wherever the first one ends. -/
theorem Meets.bind {f : α → Program Req Ans ε β} {R : β → σ → Prop}
    (h : p.Meets allows moves s (fun a s => (f a).Meets allows moves s R E) E) :
    (p >>= f).Meets allows moves s R E := by
  induction p generalizing s with
  | done a => exact h
  | fail e => exact h
  | ask r k ih => exact ⟨h.1, fun x s' hmove => ih x (h.2 x s' hmove)⟩

/-- The same, with a postcondition between the two. -/
theorem Meets.andThen {f : α → Program Req Ans ε β} {R : β → σ → Prop}
    (h : p.Meets allows moves s Q E)
    (hf : ∀ a s, Q a s → (f a).Meets allows moves s R E) :
    (p >>= f).Meets allows moves s R E :=
  (h.mono hf fun _ _ => id).bind

/-- **Catching**: what is caught is met from wherever the program fails. -/
theorem Meets.tryCatch {handler : ε → Program Req Ans ε α}
    (h : p.Meets allows moves s Q fun e s => (handler e).Meets allows moves s Q E) :
    (p.tryCatch handler).Meets allows moves s Q E := by
  induction p generalizing s with
  | done a => exact h
  | fail e => exact h
  | ask r k ih => exact ⟨h.1, fun x s' hmove => ih x (h.2 x s' hmove)⟩

theorem meets_lift {x : Except ε α} :
    (lift x : Program Req Ans ε α).Meets allows moves s Q E ↔
      (∀ a, x = .ok a → Q a s) ∧ ∀ e, x = .error e → E e s := by
  cases x with
  | ok a => exact ⟨fun h => ⟨fun _ heq => by cases heq; exact h, fun _ heq => by cases heq⟩,
      fun h => h.1 a rfl⟩
  | error e => exact ⟨fun h => ⟨fun _ heq => (by cases heq), fun _ heq => by cases heq; exact h⟩,
      fun h => h.2 e rfl⟩

end Meets

/-! ### Programs that only ask for some things -/

section Asks

variable {P : Req → Prop}

/-- All the requests a program can make satisfy a predicate. -/
def Asks (P : Req → Prop) : Program Req Ans ε α → Prop
  | done _ => True
  | fail _ => True
  | ask r k => P r ∧ ∀ x, (k x).Asks P

theorem Asks.bind {p : Program Req Ans ε α} {f : α → Program Req Ans ε β} (h : p.Asks P)
    (hf : ∀ a, (f a).Asks P) : (p >>= f).Asks P := by
  induction p with
  | done a => exact hf a
  | fail e => exact trivial
  | ask r k ih => exact ⟨h.1, fun x => ih x (h.2 x)⟩

theorem asks_lift (x : Except ε α) : (lift x : Program Req Ans ε α).Asks P := by
  cases x <;> exact trivial

/-- **A program keeps a preorder that its requests keep.** -/
theorem Meets.of_asks {σ : Type} {allows : σ → Req → Prop}
    {moves : σ → (r : Req) → Ans r → σ → Prop} {R : σ → σ → Prop} (hrefl : ∀ s, R s s)
    (htrans : ∀ {s t u}, R s t → R t u → R s u) (hallows : ∀ s r, P r → allows s r)
    (hmoves : ∀ s r x s', P r → moves s r x s' → R s s') {p : Program Req Ans ε α}
    (h : p.Asks P) (s : σ) :
    p.Meets allows moves s (fun _ s' => R s s') (fun _ s' => R s s') := by
  induction p generalizing s with
  | done a => exact hrefl s
  | fail e => exact hrefl s
  | ask r k ih =>
    refine ⟨hallows s r h.1, fun x s' hmove => ?_⟩
    have hstep := hmoves s r x s' h.1 hmove
    exact (ih x (h.2 x) s').mono (fun _ _ => htrans hstep) fun _ _ => htrans hstep

end Asks

end Program

end Interaction
