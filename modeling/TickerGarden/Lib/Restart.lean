import TickerGarden.Lib.Interaction
import TickerGarden.Lib.Transition

/-!
# Processes that are restarted

A process runs a program (`Interaction.Program`) on what it has in its memory and on a disk. It may
be killed at any of its requests; then its memory is gone, and another one starts on the disk as it
was left. What is to hold of a run, with all its kills, splits into what a program does and what a
disk is like between two of them:

* `Interaction.Machine.safe_of_run` – if every process that starts on a good disk makes allowed
  requests only, and allowed requests keep the disk good, then in every run the disk is good and
  every request allowed;
* `Interaction.Program.Learns` – what a program that only reads tells, as a rule for sequences of
  requests;
* `Interaction.Machine.play` – a run of a process that is answered by a function.
-/

namespace Interaction

namespace Program

/-- Nothing is done after the end. -/
theorem bind_done {Req : Type} {Ans : Req → Type} {ε α : Type} (p : Program Req Ans ε α) :
    (p >>= fun a => done a) = p := by
  induction p with
  | done a => rfl
  | fail e => rfl
  | ask r k ih =>
    show ask r (fun x => (k x).andThen fun a => done a) = ask r k
    congr 1
    funext x
    exact ih x

/-! ### Programs that read -/

section Learns

variable {Req : Type} {Ans : Req → Type} {ε α β σ : Type} {allows : σ → Req → Prop}
  {moves : σ → (r : Req) → Ans r → σ → Prop} {R : σ → σ → Prop} {p : Program Req Ans ε α} {s : σ}
  {Φ : α → σ → Prop} {Ψ : β → σ → Prop}

/-- **What a program learns**: it changes the state by `R` only, whether it fails or not, and when
it is done `Φ` holds of its result. -/
def Learns (allows : σ → Req → Prop) (moves : σ → (r : Req) → Ans r → σ → Prop) (R : σ → σ → Prop)
    (p : Program Req Ans ε α) (s : σ) (Φ : α → σ → Prop) : Prop :=
  p.Meets allows moves s (fun a s' => R s s' ∧ Φ a s') fun _ s' => R s s'

theorem Learns.pure (hrefl : R s s) {a : α} (h : Φ a s) :
    Learns allows moves R (Pure.pure a : Program Req Ans ε α) s Φ := ⟨hrefl, h⟩

theorem Learns.lift (hrefl : R s s) {x : Except ε α} (h : ∀ a, x = .ok a → Φ a s) :
    Learns allows moves R (Program.lift x : Program Req Ans ε α) s Φ := by
  cases x with
  | ok a => exact ⟨hrefl, h a rfl⟩
  | error e => exact hrefl

/-- **In sequence**: what the first program tells is there when the second one starts. -/
theorem Learns.andThen (htrans : ∀ {s t u}, R s t → R t u → R s u) {f : α → Program Req Ans ε β}
    (hp : Learns allows moves R p s Φ)
    (hf : ∀ a s', R s s' → Φ a s' → Learns allows moves R (f a) s' Ψ) :
    Learns allows moves R (p >>= f) s Ψ :=
  Meets.andThen hp fun a s' ⟨hR, hΦ⟩ =>
    (hf a s' hR hΦ).mono (fun _ _ h => ⟨htrans hR h.1, h.2⟩) fun _ _ h => htrans hR h

/-- A program that goes on after it has read. -/
theorem Learns.thenMeets {f : α → Program Req Ans ε β} {Q : β → σ → Prop} {E : ε → σ → Prop}
    (hp : Learns allows moves R p s Φ) (hE : ∀ e s', R s s' → E e s')
    (hf : ∀ a s', R s s' → Φ a s' → (f a).Meets allows moves s' Q E) :
    (p >>= f).Meets allows moves s Q E :=
  Meets.andThen (hp.mono (fun _ _ => id) hE) fun a s' h => hf a s' h.1 h.2

end Learns

end Program

/-! ### The machine -/

variable {Req : Type} {Ans : Req → Type} {ε D V : Type}

/-- A process: what is left of its program, and what it has in memory. -/
structure Process (Req : Type) (Ans : Req → Type) (ε V : Type) where
  program : Program Req Ans ε Unit
  memory : V

/-- A disk, and the process that runs, if one does. -/
structure Machine (Req : Type) (Ans : Req → Type) (ε D V : Type) where
  disk : D
  process : Option (Process Req Ans ε V)

/-- What happens at a step. -/
inductive Happens (Req : Type) (Ans : Req → Type)
  | started
  | answered (r : Req) (x : Ans r)
  | ended

namespace Machine

variable (starts : D → Process Req Ans ε V → Prop)
  (moves : D × V → (r : Req) → Ans r → D × V → Prop) (allows : D × V → Req → Prop)

/-- **A step.** A process starts when none is running; it asks and is answered; and it ends at any
time, done or killed. -/
inductive Step : Machine Req Ans ε D V → Happens Req Ans → Machine Req Ans ε D V → Prop
  | start {disk : D} {p : Process Req Ans ε V} (h : starts disk p) :
      Step ⟨disk, none⟩ .started ⟨disk, some p⟩
  | answer {disk : D} {p : Process Req Ans ε V} {r : Req} {k : Ans r → Program Req Ans ε Unit}
      {x : Ans r} {s : D × V} (hprogram : p.program = .ask r k)
      (hmove : moves (disk, p.memory) r x s) :
      Step ⟨disk, some p⟩ (.answered r x) ⟨s.1, some ⟨k x, s.2⟩⟩
  | stop (disk : D) (p : Process Req Ans ε V) : Step ⟨disk, some p⟩ .ended ⟨disk, none⟩

/-- What is left of the process makes allowed requests only. -/
def Safe (m : Machine Req Ans ε D V) : Prop :=
  ∀ p, m.process = some p →
    p.program.Meets allows moves (m.disk, p.memory) (fun _ _ => True) fun _ _ => True

variable {starts moves allows} {m m₀ m' : Machine Req Ans ε D V} {label : Happens Req Ans}
  {labels : List (Happens Req Ans)} {I : D → Prop}

/-- The step lemma. -/
theorem safe_of_step
    (hstart : ∀ disk p, I disk → starts disk p →
      p.program.Meets allows moves (disk, p.memory) (fun _ _ => True) fun _ _ => True)
    (hmove : ∀ s r x s', I s.1 → allows s r → moves s r x s' → I s'.1)
    (hm : I m.disk ∧ Safe moves allows m) (h : Step starts moves m label m') :
    I m'.disk ∧ Safe moves allows m' := by
  obtain ⟨hdisk, hsafe⟩ := hm
  cases h with
  | start hstarts =>
    refine ⟨hdisk, fun p hp => ?_⟩
    obtain rfl := Option.some.inj hp
    exact hstart _ _ hdisk hstarts
  | answer hprogram hmoves =>
    have hmeets := hsafe _ rfl
    rw [hprogram] at hmeets
    refine ⟨hmove _ _ _ _ hdisk hmeets.1 hmoves, fun p hp => ?_⟩
    obtain rfl := Option.some.inj hp
    exact hmeets.2 _ _ hmoves
  | stop =>
    refine ⟨hdisk, fun p hp => ?_⟩
    cases hp

/-- **The run lemma**: the disk stays good, and every request is allowed. -/
theorem safe_of_run
    (hstart : ∀ disk p, I disk → starts disk p →
      p.program.Meets allows moves (disk, p.memory) (fun _ _ => True) fun _ _ => True)
    (hmove : ∀ s r x s', I s.1 → allows s r → moves s r x s' → I s'.1)
    (h : Transition.Run (Step starts moves) m₀ labels m) (hdisk : I m₀.disk)
    (hprocess : m₀.process = none) : I m.disk ∧ Safe moves allows m := by
  refine h.invariant (fun _ _ _ hm hstep => safe_of_step hstart hmove hm hstep) ⟨hdisk, ?_⟩
  intro p hp
  rw [hprocess] at hp
  cases hp

/-- What a safe process is answered, it was allowed to ask. -/
theorem Safe.answered {r : Req} {x : Ans r} (hm : Safe moves allows m)
    (h : Step starts moves m (.answered r x) m') :
    ∃ p s, m.process = some p ∧ allows (m.disk, p.memory) r ∧
      moves (m.disk, p.memory) r x s ∧ m'.disk = s.1 := by
  cases h with
  | @answer disk p r k x s hprogram hmoves =>
    have hmeets := hm p rfl
    rw [hprogram] at hmeets
    exact ⟨p, s, rfl, hmeets.1, hmoves, rfl⟩

/-! ### A process that is answered by a function -/

section Play

variable (respond : D × V → (r : Req) → Ans r × (D × V))

/-- The next answer to a process that asks. -/
def next (m : Machine Req Ans ε D V) : Option (Happens Req Ans × Machine Req Ans ε D V) :=
  match m.process with
  | some ⟨.ask r k, memory⟩ =>
    let answer := respond (m.disk, memory) r
    some (.answered r answer.1, ⟨answer.2.1, some ⟨k answer.1, answer.2.2⟩⟩)
  | _ => none

/-- What happens to a process that is answered some times, and what becomes of it. -/
def play : ℕ → Machine Req Ans ε D V → List (Happens Req Ans) × Machine Req Ans ε D V
  | 0, m => ([], m)
  | n + 1, m =>
    match next respond m with
    | some (label, m') => ((play n m').1.cons label, (play n m').2)
    | none => ([], m)

variable {respond}

theorem step_of_next (hmoves : ∀ s r, moves s r (respond s r).1 (respond s r).2)
    (h : next respond m = some (label, m')) : Step starts moves m label m' := by
  obtain ⟨disk, process⟩ := m
  unfold next at h
  split at h
  · rename_i r k memory hprocess
    obtain ⟨rfl, rfl⟩ := Prod.mk.inj (Option.some.inj h)
    obtain rfl : process = some ⟨.ask r k, memory⟩ := hprocess
    exact .answer rfl (hmoves _ _)
  · cases h

/-- **A process that is answered by a function runs.** -/
theorem run_play (hmoves : ∀ s r, moves s r (respond s r).1 (respond s r).2) :
    ∀ (n : ℕ) (m : Machine Req Ans ε D V),
      Transition.Run (Step starts moves) m (play respond n m).1 (play respond n m).2 := by
  intro n
  induction n with
  | zero => exact fun m => .refl m
  | succ n ih =>
    intro m
    unfold play
    split
    · rename_i label m' hnext
      exact (Transition.Run.single (step_of_next hmoves hnext)).append (ih m')
    · exact .refl m

end Play

end Machine

end Interaction
