import Mathlib.Tactic.Common
import TickerGarden.Backend.SignerLane

/-!
# The lane excludes

Two things are kept by every step, and each has an invariant of its own.

* **The locks** (`TickerGarden.Backend.SignerLane.Locked`). Whoever is past the creation of a
  lock file and lives has its token in that file, so there is one such call at most. The only
  other call that removes the file is a recovery. It holds the guard, and what it found in the
  file is the token of a call whose process is dead: that call will not remove the file, another
  recovery would need the guard, and nobody can create a file that is there.
* **The reservation** (`TickerGarden.Backend.SignerLane.Reserved`). As long as the last entry of a
  service has not ended well, the reservation says this service, and so does everything that the
  machine could fall back to. It is changed under the lock only, by a call that found it to be
  empty or its own.

An entry into the action therefore finds the entries of all other services ended well
(`TickerGarden.Backend.SignerLane.lane_excludes`).
-/

namespace TickerGarden

open Transition Function

namespace Backend

namespace SignerLane

variable {s s' : System} {l l' : Lane} {w w' : World} {a b : Token} {c d : Call} {pc pc' : Pc}
  {n : ℕ} {o o' : Service} {t : Token} {p : Process}

/-! ### The locks -/

/-- The call has the lock: it has created the file, and not removed it. -/
def Pc.Owns : Pc → ℕ → Prop
  | .writing job, n | .syncing job, n => job.level = n
  | .lane _ _, n => n = 0
  | .recovering level _ _ _, n => n = level + 1
  | .releasing level, n | .unlinking level, n => n = level
  | _, _ => False

/-- The job is to recover the lock of a call. -/
def Job.Condemns : Job → Token → Prop
  | .lane _, _ => False
  | .recover _ expectedToken _, t => expectedToken = t

/-- The call has found that the process of another one is dead. -/
def Pc.Condemns : Pc → Token → Prop
  | .opening job, t | .writing job, t | .syncing job, t => job.Condemns t
  | .recovering _ expectedToken _ _, t => expectedToken = t
  | _, _ => False

/-- The call is about to remove the lock of another one. -/
def Pc.Breaks : Pc → ℕ → Token → Prop
  | .recovering level expectedToken _ .unlink, n, t => level = n ∧ expectedToken = t
  | _, _, _ => False

/-- The call has read who has a lock. -/
def Pc.Knows : Pc → Token → Process → Prop
  | .probing _ expectedToken _ process, t, p => expectedToken = t ∧ process = p
  | _, _, _ => False

/-- **The invariant of the locks.** -/
structure Locked (s : System) : Prop where
  alive_used : ∀ p ∈ s.alive, p ∈ s.used
  calls_used : ∀ a c, s.calls a = some c → c.process ∈ s.used
  /-- What a lock says is true of a call there has been. -/
  authored : ∀ n f, s.locks n = some f → ∃ c, s.calls f.token = some c ∧ c.process = f.process
  owned : ∀ a c n, s.At a c → c.pc.Owns n → ∃ f, s.locks n = some f ∧ f.token = a
  known : ∀ a c t p, s.calls a = some c → c.pc.Knows t p →
    ∃ d, s.calls t = some d ∧ d.process = p
  condemned : ∀ a c t, s.calls a = some c → c.pc.Condemns t →
    ∃ d, s.calls t = some d ∧ d.process ∉ s.alive
  broken : ∀ a c n t, s.At a c → c.pc.Breaks n t → ∃ f, s.locks n = some f ∧ f.token = t

theorem System.At.unique (h : s.At a c) (h' : s.At a d) : c = d :=
  Option.some.inj (h.1.symm.trans h'.1)

/-- **A lock is held by one call.** -/
theorem Locked.unique (h : Locked s) (ha : s.At a c) (hc : c.pc.Owns n) (hb : s.At b d)
    (hd : d.pc.Owns n) : a = b := by
  obtain ⟨f, hf, rfl⟩ := h.owned a c n ha hc
  obtain ⟨f', hf', rfl⟩ := h.owned b d n hb hd
  rw [hf] at hf'
  cases hf'
  rfl

/-- A call that holds a lock is not condemned: it lives. -/
theorem Locked.not_condemned (h : Locked s) (ha : s.At a c) (hb : s.calls b = some d)
    (hcondemns : d.pc.Condemns a) : False := by
  obtain ⟨e, he, hdead⟩ := h.condemned b d a hb hcondemns
  have heq : e = c := Option.some.inj (he.symm.trans ha.1)
  exact hdead (heq ▸ ha.2)

theorem Pc.Breaks.condemns (h : pc.Breaks n t) : pc.Condemns t := by
  rcases pc with _ | _ | _ | _ | _ | _ | _ | ⟨level, expectedToken, ino, _ | _ | _⟩ | _ | _ | _
  all_goals first | exact h.elim | exact h.2

theorem Pc.Breaks.owns (h : pc.Breaks n t) : pc.Owns (n + 1) := by
  rcases pc with _ | _ | _ | _ | _ | _ | _ | ⟨level, expectedToken, ino, _ | _ | _⟩ | _ | _ | _
  all_goals first | exact h.elim | exact congrArg (· + 1) h.1.symm

/-! ### How the locks are kept -/

theorem System.calls_goto_of_ne (h : b ≠ a) : (s.goto a c pc).calls b = s.calls b :=
  update_of_ne h ..

theorem System.calls_goto_self : (s.goto a c pc).calls a = some { c with pc } :=
  update_self ..

/-- A call stays in its process. -/
theorem System.exists_goto {q : Process} (hc : s.calls a = some c)
    (h : ∃ d, s.calls t = some d ∧ d.process = q) :
    ∃ d, (s.goto a c pc).calls t = some d ∧ d.process = q := by
  obtain ⟨d, hd, hq⟩ := h
  rcases eq_or_ne t a with rfl | hne
  · refine ⟨_, System.calls_goto_self, ?_⟩
    rw [← hq, Option.some.inj (hc.symm.trans hd)]
  · exact ⟨d, (System.calls_goto_of_ne hne).trans hd, hq⟩

/-- **A call goes on**, with the lock files as they are: what it holds, has read or has found out
must be so. -/
theorem Locked.goto (h : Locked s) (hc : s.calls a = some c)
    (howned : c.process ∈ s.alive → ∀ n, pc.Owns n → ∃ f, s.locks n = some f ∧ f.token = a)
    (hknown : ∀ t p, pc.Knows t p → ∃ d, s.calls t = some d ∧ d.process = p)
    (hcondemned : ∀ t, pc.Condemns t → ∃ d, s.calls t = some d ∧ d.process ∉ s.alive)
    (hbroken : c.process ∈ s.alive → ∀ n t, pc.Breaks n t → ∃ f, s.locks n = some f ∧ f.token = t) :
    Locked (s.goto a c pc) := by
  have hcalls : ∀ b d, (s.goto a c pc).calls b = some d →
      (b = a ∧ d = { c with pc }) ∨ (b ≠ a ∧ s.calls b = some d) := by
    intro b d hd
    rcases eq_or_ne b a with rfl | hne
    · exact Or.inl ⟨rfl, (Option.some.inj (System.calls_goto_self.symm.trans hd)).symm⟩
    · exact Or.inr ⟨hne, (System.calls_goto_of_ne hne).symm.trans hd⟩
  have hdead : ∀ t, (∃ d, s.calls t = some d ∧ d.process ∉ s.alive) →
      ∃ d, (s.goto a c pc).calls t = some d ∧ d.process ∉ s.alive := by
    rintro t ⟨d, hd, hdead⟩
    obtain ⟨e, he, hprocess⟩ := System.exists_goto hc ⟨d, hd, rfl⟩
    exact ⟨e, he, hprocess ▸ hdead⟩
  constructor
  case alive_used => exact h.alive_used
  case calls_used =>
    intro b d hd
    rcases hcalls b d hd with ⟨-, rfl⟩ | ⟨-, hd⟩
    · exact h.calls_used a c hc
    · exact h.calls_used b d hd
  case authored => exact fun n f hf => System.exists_goto hc (h.authored n f hf)
  case owned =>
    rintro b d n ⟨hd, halive⟩ howns
    rcases hcalls b d hd with ⟨rfl, rfl⟩ | ⟨-, hd⟩
    · exact howned halive n howns
    · exact h.owned b d n ⟨hd, halive⟩ howns
  case known =>
    intro b d t q hd hknows
    rcases hcalls b d hd with ⟨-, rfl⟩ | ⟨-, hd⟩
    · exact System.exists_goto hc (hknown t q hknows)
    · exact System.exists_goto hc (h.known b d t q hd hknows)
  case condemned =>
    intro b d t hd hcondemns
    rcases hcalls b d hd with ⟨-, rfl⟩ | ⟨-, hd⟩
    · exact hdead t (hcondemned t hcondemns)
    · exact hdead t (h.condemned b d t hd hcondemns)
  case broken =>
    rintro b d n t ⟨hd, halive⟩ hbreaks
    rcases hcalls b d hd with ⟨-, rfl⟩ | ⟨-, hd⟩
    · exact hbroken halive n t hbreaks
    · exact h.broken b d n t ⟨hd, halive⟩ hbreaks

theorem System.locks_setLock_of_ne {m : ℕ} {f : Option LockFile} (h : m ≠ n) :
    (s.setLock n f).locks m = s.locks m := update_of_ne h ..

theorem System.locks_setLock_self {f : Option LockFile} : (s.setLock n f).locks n = f :=
  update_self ..

/-- **A lock is created**, where there was none. -/
theorem Locked.create (h : Locked s) (hnone : s.locks n = none) {f : LockFile}
    (hc : s.calls f.token = some c) (hprocess : c.process = f.process) :
    Locked (s.setLock n (some f)) := by
  have hkeep : ∀ {m : ℕ} {t : Token}, (∃ f, s.locks m = some f ∧ f.token = t) →
      ∃ f', (s.setLock n (some f)).locks m = some f' ∧ f'.token = t := by
    rintro m t ⟨g, hg, rfl⟩
    have hne : m ≠ n := by
      rintro rfl
      rw [hnone] at hg
      cases hg
    exact ⟨g, (System.locks_setLock_of_ne hne).trans hg, rfl⟩
  constructor
  case alive_used => exact h.alive_used
  case calls_used => exact h.calls_used
  case authored =>
    intro m g hg
    rcases eq_or_ne m n with rfl | hne
    · obtain rfl := Option.some.inj (System.locks_setLock_self.symm.trans hg)
      exact ⟨c, hc, hprocess⟩
    · exact h.authored m g ((System.locks_setLock_of_ne hne).symm.trans hg)
  case owned => exact fun b d m hb howns => hkeep (h.owned b d m hb howns)
  case known => exact h.known
  case condemned => exact h.condemned
  case broken => exact fun b d m t hb hbreaks => hkeep (h.broken b d m t hb hbreaks)

/-- What is written to a lock does not matter, if it is true. -/
theorem Locked.rewrite (h : Locked s) {f g : LockFile} (hf : s.locks n = some f)
    (htoken : g.token = f.token) (hprocess : g.process = f.process) :
    Locked (s.setLock n (some g)) := by
  have hkeep : ∀ {m : ℕ} {t : Token}, (∃ f, s.locks m = some f ∧ f.token = t) →
      ∃ f', (s.setLock n (some g)).locks m = some f' ∧ f'.token = t := by
    rintro m t ⟨k, hk, rfl⟩
    rcases eq_or_ne m n with rfl | hne
    · rw [hf] at hk
      cases hk
      exact ⟨g, System.locks_setLock_self, htoken⟩
    · exact ⟨k, (System.locks_setLock_of_ne hne).trans hk, rfl⟩
  constructor
  case alive_used => exact h.alive_used
  case calls_used => exact h.calls_used
  case authored =>
    intro m k hk
    rcases eq_or_ne m n with rfl | hne
    · obtain rfl := Option.some.inj (System.locks_setLock_self.symm.trans hk)
      rw [htoken, hprocess]
      exact h.authored m f hf
    · exact h.authored m k ((System.locks_setLock_of_ne hne).symm.trans hk)
  case owned => exact fun b d m hb howns => hkeep (h.owned b d m hb howns)
  case known => exact h.known
  case condemned => exact h.condemned
  case broken => exact fun b d m t hb hbreaks => hkeep (h.broken b d m t hb hbreaks)

/-- **A lock is removed**, when nobody has it any more. -/
theorem Locked.remove (h : Locked s) (howns : ∀ b d, s.At b d → ¬ d.pc.Owns n)
    (hbreaks : ∀ b d t, s.At b d → ¬ d.pc.Breaks n t) : Locked (s.setLock n none) := by
  constructor
  case alive_used => exact h.alive_used
  case calls_used => exact h.calls_used
  case authored =>
    intro m f hf
    rcases eq_or_ne m n with rfl | hne
    · rw [System.locks_setLock_self] at hf
      cases hf
    · exact h.authored m f ((System.locks_setLock_of_ne hne).symm.trans hf)
  case owned =>
    intro b d m hb hm
    have hne : m ≠ n := by
      rintro rfl
      exact howns b d hb hm
    rw [System.locks_setLock_of_ne hne]
    exact h.owned b d m hb hm
  case known => exact h.known
  case condemned => exact h.condemned
  case broken =>
    intro b d m t hb hm
    have hne : m ≠ n := by
      rintro rfl
      exact hbreaks b d t hb hm
    rw [System.locks_setLock_of_ne hne]
    exact h.broken b d m t hb hm

/-- A call goes on to where it has no more than it had, and knows nothing new. -/
theorem Locked.goto_of_owns (h : Locked s) (hat : s.At a c) (howns : ∀ n, pc.Owns n → c.pc.Owns n)
    (hknows : ∀ t p, ¬ pc.Knows t p) (hcondemns : ∀ t, pc.Condemns t → c.pc.Condemns t)
    (hbreaks : ∀ n t, ¬ pc.Breaks n t) : Locked (s.goto a c pc) :=
  h.goto hat.1 (fun _ n hn => h.owned a c n hat (howns n hn))
    (fun t p hp => absurd hp (hknows t p)) (fun t ht => h.condemned a c t hat.1 (hcondemns t ht))
    fun _ n t ht => absurd ht (hbreaks n t)

/-- A call is over. -/
theorem Locked.goto_done (h : Locked s) (hat : s.At a c) : Locked (s.goto a c .done) :=
  h.goto_of_owns hat (fun _ => False.elim) (fun _ _ => not_false) (fun _ => False.elim)
    fun _ _ => not_false

/-- A call that has a lock goes on to release it. -/
theorem Locked.goto_releasing (h : Locked s) (hat : s.At a c) (howns : c.pc.Owns n) :
    Locked (s.goto a c (.releasing n)) :=
  h.goto_of_owns hat (fun _ hm => hm ▸ howns) (fun _ _ => not_false) (fun _ => False.elim)
    fun _ _ => not_false

theorem System.At.of_goto (hb : (s.goto a c pc).At b d) (hne : b ≠ a) : s.At b d :=
  ⟨(System.calls_goto_of_ne hne).symm.trans hb.1, hb.2⟩

/-- **The owner removes its lock.** -/
theorem Locked.unlink (h : Locked s) (hat : s.At a c) (howns : c.pc.Owns n)
    (hpc : ∀ m, ¬ pc.Owns m) (hpc' : ∀ m t, ¬ pc.Breaks m t)
    (hgoto : Locked (s.goto a c pc)) : Locked ((s.setLock n none).goto a c pc) := by
  refine Locked.remove hgoto (fun b d hb hd => ?_) fun b d t hb hd => ?_
  · rcases eq_or_ne b a with rfl | hne
    · obtain rfl := Option.some.inj (System.calls_goto_self.symm.trans hb.1)
      exact hpc n hd
    · exact hne (h.unique (hb.of_goto hne) hd hat howns)
  · rcases eq_or_ne b a with rfl | hne
    · obtain rfl := Option.some.inj (System.calls_goto_self.symm.trans hb.1)
      exact hpc' n t hd
    · -- whoever breaks the lock has found its owner dead
      obtain ⟨f, hf, rfl⟩ := h.broken b d n t (hb.of_goto hne) hd
      obtain ⟨g, hg, rfl⟩ := h.owned a c n hat howns
      rw [hf] at hg
      cases hg
      exact h.not_condemned hat (hb.of_goto hne).1 hd.condemns

/-- **A recovery removes the lock of a dead process.** -/
theorem Locked.break (h : Locked s) (hat : s.At a c) (hbreaks : c.pc.Breaks n t) :
    Locked ((s.setLock n none).goto a c (.releasing (n + 1))) := by
  have howns := hbreaks.owns
  obtain ⟨f, hf, rfl⟩ := h.broken a c n t hat hbreaks
  refine Locked.remove (h.goto_releasing hat howns) (fun b d hb hd => ?_) fun b d t hb hd => ?_
  · rcases eq_or_ne b a with rfl | hne
    · obtain rfl := Option.some.inj (System.calls_goto_self.symm.trans hb.1)
      exact absurd (show n = n + 1 from hd) (Nat.ne_of_lt (Nat.lt_succ_self n))
    · -- nobody alive has the lock, since its owner is dead
      obtain ⟨g, hg, rfl⟩ := h.owned b d n (hb.of_goto hne) hd
      rw [hf] at hg
      cases hg
      exact h.not_condemned (hb.of_goto hne) hat.1 hbreaks.condemns
  · rcases eq_or_ne b a with rfl | hne
    · obtain rfl := Option.some.inj (System.calls_goto_self.symm.trans hb.1)
      exact hd
    · exact hne (h.unique (hb.of_goto hne) hd.owns hat howns)

/-- **Every operation keeps the locks.** -/
theorem Locked.advance (h : Locked s) (hat : s.At a c) (ino : ℕ) : Locked (s.advance a c ino) := by
  unfold System.advance
  rcases hpc : c.pc with ⟨level, expectedToken⟩ | ⟨level, expectedToken, ino'⟩ |
    ⟨level, expectedToken, ino', process⟩ | job | job | job | ⟨owner, lanePc⟩ |
    ⟨level, expectedToken, ino', _ | _ | _⟩ | level | level | _
  case statting =>
    dsimp only
    split
    · exact h.goto_of_owns hat (fun _ => False.elim) (fun _ _ => not_false) (fun _ => False.elim)
        fun _ _ => not_false
    · exact h.goto_done hat
  case reading =>
    dsimp only
    split
    next f hf =>
      split_ifs with hguard
      · refine h.goto hat.1 (fun _ _ => False.elim) ?_ (fun _ => False.elim) fun _ _ _ => False.elim
        rintro t p ⟨rfl, rfl⟩
        rw [← hguard.2.2]
        exact h.authored level f hf
      · exact h.goto_done hat
    · exact h.goto_done hat
  case probing =>
    dsimp only
    split_ifs with halive
    · exact h.goto_done hat
    · refine h.goto hat.1 (fun _ _ => False.elim) (fun _ _ => False.elim) ?_
        fun _ _ _ => False.elim
      rintro t rfl
      obtain ⟨d, hd, hprocess⟩ := h.known a c expectedToken process hat.1 (hpc ▸ ⟨rfl, rfl⟩)
      exact ⟨d, hd, hprocess ▸ halive⟩
  case opening =>
    dsimp only
    split
    · exact h.goto_done hat
    next hnone =>
      have hcreated := h.create (f := ⟨ino, c.process, a, false⟩) hnone hat.1 rfl
      refine hcreated.goto hat.1 ?_ (fun _ _ => False.elim) ?_ fun _ _ _ => False.elim
      · rintro - n rfl
        exact ⟨_, System.locks_setLock_self, rfl⟩
      · exact fun t ht => h.condemned a c t hat.1 (hpc ▸ ht)
  case writing =>
    dsimp only
    split
    next f hf =>
      have hwritten := h.rewrite (g := if f.token = a then { f with written := true } else f) hf
        (by split_ifs <;> rfl) (by split_ifs <;> rfl)
      exact hwritten.goto_of_owns hat (fun n hn => hpc ▸ hn) (fun _ _ => not_false)
        (fun t ht => hpc ▸ ht) fun _ _ => not_false
    · exact h.goto_of_owns hat (fun n hn => hpc ▸ hn) (fun _ _ => not_false)
        (fun t ht => hpc ▸ ht) fun _ _ => not_false
  case syncing =>
    dsimp only
    cases job with
    | lane owner =>
      exact h.goto_of_owns hat (fun n hn => hpc ▸ hn.symm) (fun _ _ => not_false)
        (fun _ => False.elim) fun _ _ => not_false
    | recover level expectedToken ino =>
      exact h.goto_of_owns hat (fun n hn => hpc ▸ hn.symm) (fun _ _ => not_false)
        (fun t ht => hpc ▸ ht) fun _ _ => not_false
  case lane => exact h
  case recovering.stat =>
    dsimp only
    have howns : c.pc.Owns (level + 1) := hpc ▸ rfl
    split
    · split_ifs
      · exact h.goto_of_owns hat (fun n hn => hpc ▸ hn) (fun _ _ => not_false)
          (fun t ht => hpc ▸ ht) fun _ _ => not_false
      · exact h.goto_releasing hat howns
    · exact h.goto_releasing hat howns
  case recovering.read =>
    dsimp only
    have howns : c.pc.Owns (level + 1) := hpc ▸ rfl
    split
    next f hf =>
      split_ifs with hguard
      · refine h.goto hat.1 (fun _ n hn => h.owned a c n hat (hpc ▸ hn)) (fun _ _ => False.elim)
          (fun t ht => h.condemned a c t hat.1 (hpc ▸ ht)) ?_
        rintro - n t ⟨rfl, rfl⟩
        exact ⟨f, hf, hguard.2⟩
      · exact h.goto_releasing hat howns
    · exact h.goto_releasing hat howns
  case recovering.unlink =>
    have hbreaks : c.pc.Breaks level expectedToken := hpc ▸ ⟨rfl, rfl⟩
    exact h.break hat hbreaks
  case releasing =>
    dsimp only
    split
    · split_ifs
      · exact h.goto_of_owns hat (fun n hn => hpc ▸ hn) (fun _ _ => not_false) (fun _ => False.elim)
          fun _ _ => not_false
      · exact h.goto_done hat
    · exact h.goto_done hat
  case unlinking =>
    exact h.unlink hat (hpc ▸ rfl) (fun _ => not_false) (fun _ _ => not_false) (h.goto_done hat)
  case done => exact h

/-- An exception keeps the locks: what was acquired is released, or stays. -/
theorem Locked.throw (h : Locked s) (hat : s.At a c) : Locked (s.goto a c c.pc.throw) := by
  rcases hpc : c.pc with _ | _ | _ | _ | _ | _ | ⟨owner, lanePc⟩ | ⟨level, _, _, _⟩ | _ | _ | _
  case lane => exact h.goto_releasing hat (hpc ▸ rfl)
  case recovering => exact h.goto_releasing hat (hpc ▸ rfl)
  all_goals exact h.goto_done hat

/-- A call that does something else than the one that begins was there before. -/
theorem System.At.of_begin {b : Token} {d : Call} (hb : (s.begin a p pc).At b d) (hd : d.pc ≠ pc) :
    s.At b d := by
  rcases eq_or_ne b a with rfl | hne
  · obtain rfl := Option.some.inj ((update_self b _ s.calls).symm.trans hb.1)
    exact absurd rfl hd
  · exact ⟨(update_of_ne hne _ s.calls).symm.trans hb.1, hb.2⟩

/-- A call begins, and has no lock yet. -/
theorem Locked.begin (h : Locked s) (hnew : s.calls a = none) (halive : p ∈ s.alive)
    (howns : ∀ n, ¬ pc.Owns n) (hknows : ∀ t p, ¬ pc.Knows t p) (hcondemns : ∀ t, ¬ pc.Condemns t)
    (hbreaks : ∀ n t, ¬ pc.Breaks n t) : Locked (s.begin a p pc) := by
  have hcalls : ∀ b d, (s.begin a p pc).calls b = some d →
      (b = a ∧ d = { process := p, pc }) ∨ s.calls b = some d := by
    intro b d hd
    rcases eq_or_ne b a with rfl | hne
    · dsimp only [System.begin] at hd
      rw [update_self] at hd
      exact Or.inl ⟨rfl, (Option.some.inj hd).symm⟩
    · dsimp only [System.begin] at hd
      rw [update_of_ne hne] at hd
      exact Or.inr hd
  have hkeep : ∀ {t : Token} {d : Call}, s.calls t = some d → (s.begin a p pc).calls t = some d := by
    intro t d hd
    have hne : t ≠ a := by
      rintro rfl
      rw [hnew] at hd
      cases hd
    exact (update_of_ne hne ..).trans hd
  constructor
  case alive_used => exact h.alive_used
  case calls_used =>
    intro b d hd
    rcases hcalls b d hd with ⟨-, rfl⟩ | hd
    · exact h.alive_used p halive
    · exact h.calls_used b d hd
  case authored =>
    intro n f hf
    obtain ⟨d, hd, hprocess⟩ := h.authored n f hf
    exact ⟨d, hkeep hd, hprocess⟩
  case owned =>
    rintro b d n ⟨hd, hdalive⟩ hn
    rcases hcalls b d hd with ⟨-, rfl⟩ | hd
    · exact absurd hn (howns n)
    · exact h.owned b d n ⟨hd, hdalive⟩ hn
  case known =>
    intro b d t q hd hq
    rcases hcalls b d hd with ⟨-, rfl⟩ | hd
    · exact absurd hq (hknows t q)
    · obtain ⟨e, he, hprocess⟩ := h.known b d t q hd hq
      exact ⟨e, hkeep he, hprocess⟩
  case condemned =>
    intro b d t hd ht
    rcases hcalls b d hd with ⟨-, rfl⟩ | hd
    · exact absurd ht (hcondemns t)
    · obtain ⟨e, he, hdead⟩ := h.condemned b d t hd ht
      exact ⟨e, hkeep he, hdead⟩
  case broken =>
    rintro b d n t ⟨hd, hdalive⟩ ht
    rcases hcalls b d hd with ⟨-, rfl⟩ | hd
    · exact absurd ht (hbreaks n t)
    · exact h.broken b d n t ⟨hd, hdalive⟩ ht

theorem Locked.spawn (h : Locked s) (hnew : p ∉ s.used) : Locked (s.spawn p) := by
  have hold : ∀ {q : Process}, q ∈ s.used → q ∈ (s.spawn p).alive → q ∈ s.alive := by
    intro q hq halive
    rcases List.mem_cons.mp halive with rfl | halive
    · exact absurd hq hnew
    · exact halive
  constructor
  case alive_used =>
    intro q hq
    rcases List.mem_cons.mp hq with rfl | hq
    · exact List.mem_cons_self
    · exact List.mem_cons_of_mem _ (h.alive_used q hq)
  case calls_used => exact fun b d hd => List.mem_cons_of_mem _ (h.calls_used b d hd)
  case authored => exact h.authored
  case owned =>
    rintro b d n ⟨hd, halive⟩ hn
    exact h.owned b d n ⟨hd, hold (h.calls_used b d hd) halive⟩ hn
  case known => exact h.known
  case condemned =>
    intro b d t hd ht
    obtain ⟨e, he, hdead⟩ := h.condemned b d t hd ht
    exact ⟨e, he, fun halive => hdead (hold (h.calls_used t e he) halive)⟩
  case broken =>
    rintro b d n t ⟨hd, halive⟩ ht
    exact h.broken b d n t ⟨hd, hold (h.calls_used b d hd) halive⟩ ht

/-- Processes die, and lock files are as they are or, if all processes die, as they may be. -/
theorem Locked.die (h : Locked s) {alive : List Process} (halive : ∀ p ∈ alive, p ∈ s.alive)
    {locks : ℕ → Option LockFile}
    (hauthored : ∀ n f, locks n = some f → ∃ c, s.calls f.token = some c ∧ c.process = f.process)
    (hlocks : locks = s.locks ∨ alive = []) : Locked { s with alive, locks } := by
  have hstay : ∀ {q : Process}, q ∈ alive → locks = s.locks := fun hq =>
    hlocks.resolve_right fun hnil => List.not_mem_nil (hnil ▸ hq)
  constructor
  case alive_used => exact fun q hq => h.alive_used q (halive q hq)
  case calls_used => exact h.calls_used
  case authored => exact hauthored
  case owned =>
    rintro b d n ⟨hd, hdalive⟩ hn
    dsimp only
    rw [hstay hdalive]
    exact h.owned b d n ⟨hd, halive _ hdalive⟩ hn
  case known => exact h.known
  case condemned =>
    intro b d t hd ht
    obtain ⟨e, he, hdead⟩ := h.condemned b d t hd ht
    exact ⟨e, he, fun hmem => hdead (halive _ hmem)⟩
  case broken =>
    rintro b d n t ⟨hd, hdalive⟩ ht
    dsimp only
    rw [hstay hdalive]
    exact h.broken b d n t ⟨hd, halive _ hdalive⟩ ht

/-- In the lane, a call goes on or releases the lock. -/
theorem Lane.advance_pc (l : Lane) (o : Service) (a : Token) (lanePc : LanePc) :
    (∃ next, (l.advance o a lanePc).2 = .lane o next) ∨
      (l.advance o a lanePc).2 = .releasing 0 := by
  unfold Lane.advance
  cases lanePc <;> dsimp only <;> (repeat' split) <;>
    first | exact Or.inr rfl | exact Or.inl ⟨_, rfl⟩

/-- A call goes on in the lane, under the same lock. -/
theorem Locked.goto_lane (h : Locked s) (hat : s.At a c) {lanePc : LanePc}
    (hpc : c.pc = .lane o lanePc) (l : Lane) : Locked (s.goto a c (l.advance o a lanePc).2) := by
  have howns : c.pc.Owns 0 := hpc ▸ rfl
  rcases l.advance_pc o a lanePc with ⟨next, heq⟩ | heq
  · rw [heq]
    exact h.goto_of_owns hat (fun _ hn => hn ▸ howns) (fun _ _ => not_false) (fun _ => False.elim)
      fun _ _ => not_false
  · rw [heq]
    exact h.goto_releasing hat howns

/-- **Every step keeps the locks.** -/
theorem Locked.step {e : Event} (h : Locked w.system) (hstep : World.Step w e w') :
    Locked w'.system := by
  cases hstep with
  | spawn hnew => exact h.spawn hnew
  | crash p =>
    exact h.die (fun q hq => (List.mem_filter.mp hq).1) h.authored (Or.inl rfl)
  | reboot tmp hlocks hreservation => exact h.die (fun _ => False.elim ∘ List.not_mem_nil) hlocks (Or.inr rfl)
  | withSignerLane owner hnew halive =>
    exact h.begin hnew halive (fun _ => not_false) (fun _ _ => not_false) (fun _ => not_false)
      fun _ _ => not_false
  | recoverSignerLock level expectedToken hnew halive =>
    exact h.begin hnew halive (fun _ => not_false) (fun _ _ => not_false) (fun _ => not_false)
      fun _ _ => not_false
  | advance ino hat =>
    unfold World.advance
    split
    next owner lanePc hpc => exact h.goto_lane hat hpc _
    · exact h.advance hat ino
  | throw hat => exact h.throw hat
  | intend pending hacting => exact h

/-! ### The reservation -/

/-- The last entry of the service has not ended well: it is running, or its process has died, or
it threw, or left something pending. -/
def Lane.Unresolved (l : Lane) (o : Service) : Prop :=
  ∃ e, l.last o = some e ∧ e.ending ≠ some .clean

/-- The reservation says this service, and so does all that the machine may fall back to. -/
def Lane.Reserves (l : Lane) (o : Service) : Prop :=
  ∀ x ∈ l.reservation :: l.stale, x = some o

/-- **The invariant of the reservation.** -/
structure Lane.Reserved (l : Lane) : Prop where
  reserves : ∀ o, l.Unresolved o → l.Reserves o
  intent : ∀ o, l.intent o = true → l.Unresolved o

/-- What a call that is past a point of the lane may rely on. -/
def Lane.Holds (l : Lane) (o : Service) (a : Token) : LanePc → Prop
  | .exists | .read | .syncUnlink => True
  | .writeTmp => ∀ x ∈ l.reservation, x = o
  | .syncTmp | .rename => (∀ x ∈ l.reservation, x = o) ∧ l.tmp = some o
  | .syncRename => l.reservation = some o
  | .enter => l.Reserves o
  | .acting | .hasPending => l.Reserves o ∧ l.last o = some { token := a, ending := none }
  | .unlink => l.Reserves o ∧ l.last o = some { token := a, ending := none } ∧ l.intent o = false

/-- **The invariant of the lane.** -/
structure Laned (w : World) : Prop where
  locked : Locked w.system
  reserved : w.lane.Reserved
  holds : ∀ a c o lanePc, w.system.At a c → c.pc = .lane o lanePc → w.lane.Holds o a lanePc

theorem Lane.unresolved_setEnding {ending : Option Ending} :
    (l.setEnding o a ending).Unresolved o' ↔
      if o' = o then ending ≠ some .clean else l.Unresolved o' := by
  unfold Lane.Unresolved Lane.setEnding
  dsimp only
  split_ifs with h
  · subst h
    rw [update_self]
    constructor
    · rintro ⟨e, he, hending⟩
      cases he
      exact hending
    · exact fun hending => ⟨_, rfl, hending⟩
  · rw [update_of_ne h]

/-- **Of two services, one has everything resolved.** -/
theorem Lane.Reserved.unique (h : l.Reserved) (ho : l.Unresolved o) (ho' : l.Unresolved o') :
    o = o' := by
  have h₁ := h.reserves o ho l.reservation List.mem_cons_self
  have h₂ := h.reserves o' ho' l.reservation List.mem_cons_self
  exact Option.some.inj (h₁.symm.trans h₂)

/-- If the reservation says at most this service, no other one has something unresolved. -/
theorem Lane.Reserved.eq_of_reservation (h : l.Reserved) (ho : ∀ x ∈ l.reservation, x = o)
    (ho' : l.Unresolved o') : o' = o :=
  ho o' (h.reserves o' ho' l.reservation List.mem_cons_self)

/-- An entry is written down. -/
theorem Lane.Reserved.setEnding (h : l.Reserved) (hreserves : l.Reserves o) {ending : Option Ending}
    (hintent : ending = some .clean → l.intent o = false) :
    (l.setEnding o a ending).Reserved := by
  constructor
  case reserves =>
    intro o' ho'
    rw [Lane.unresolved_setEnding] at ho'
    split_ifs at ho' with heq
    · exact heq ▸ hreserves
    · exact h.reserves o' ho'
  case intent =>
    intro o' ho'
    rw [Lane.unresolved_setEnding]
    split_ifs with heq
    · intro hclean
      have hfalse := hintent hclean
      rw [← heq] at hfalse
      exact Bool.false_ne_true (hfalse.symm.trans ho')
    · exact h.intent o' ho'

/-- **Every operation under the lock keeps the reservation**, and what the call may rely on. -/
theorem Lane.Reserved.advance (h : l.Reserved) {lanePc : LanePc} (hholds : l.Holds o a lanePc) :
    (l.advance o a lanePc).1.Reserved ∧
      ∀ next, (l.advance o a lanePc).2 = .lane o next → (l.advance o a lanePc).1.Holds o a next := by
  unfold Lane.advance
  cases lanePc
  case «exists» =>
    dsimp only
    split
    · exact ⟨h, by rintro _ ⟨⟩; trivial⟩
    next hnone =>
      refine ⟨h, ?_⟩
      rintro _ ⟨⟩ x hx
      rw [hnone] at hx
      cases hx
  case read =>
    dsimp only
    split
    next prior hprior =>
      split_ifs with heq
      · refine ⟨h, ?_⟩
        rintro _ ⟨⟩ x hx
        rw [hprior] at hx
        cases hx
        exact heq
      · exact ⟨h, fun _ => nofun⟩
    · exact ⟨h, fun _ => nofun⟩
  case writeTmp =>
    refine ⟨⟨h.reserves, h.intent⟩, ?_⟩
    rintro _ ⟨⟩
    exact ⟨hholds, rfl⟩
  case syncTmp =>
    refine ⟨h, ?_⟩
    rintro _ ⟨⟩
    exact hholds
  case rename =>
    obtain ⟨hreservation, htmp⟩ := hholds
    dsimp only
    rw [htmp]
    refine ⟨⟨fun o' ho' => ?_, h.intent⟩, ?_⟩
    · have heq := h.eq_of_reservation hreservation ho'
      intro x hx
      rcases List.mem_cons.mp hx with rfl | hx
      · exact congrArg some heq.symm
      · exact h.reserves o' ho' x hx
    · rintro _ ⟨⟩
      rfl
  case syncRename =>
    refine ⟨⟨fun o' ho' x hx => ?_, h.intent⟩, ?_⟩
    · rw [List.mem_singleton.mp hx]
      exact h.reserves o' ho' l.reservation List.mem_cons_self
    · rintro _ ⟨⟩ x hx
      rw [List.mem_singleton.mp hx]
      exact hholds
  case enter =>
    refine ⟨h.setEnding hholds nofun, ?_⟩
    rintro _ ⟨⟩
    exact ⟨hholds, update_self ..⟩
  case acting =>
    refine ⟨h, ?_⟩
    rintro _ ⟨⟩
    exact hholds
  case hasPending =>
    dsimp only
    split_ifs with hintent
    · exact ⟨h.setEnding hholds.1 nofun, fun _ => nofun⟩
    · refine ⟨h, ?_⟩
      rintro _ ⟨⟩
      exact ⟨hholds.1, hholds.2, Bool.eq_false_iff.mpr hintent⟩
  case unlink =>
    obtain ⟨hreserves, hlast, hintent⟩ := hholds
    dsimp only
    split
    · refine ⟨⟨fun o' ho' => ?_, fun o' ho' => ?_⟩, by rintro _ ⟨⟩; trivial⟩
      · -- nobody else has something unresolved, since the reservation said this service
        rw [Lane.unresolved_setEnding] at ho'
        split_ifs at ho' with heq
        · exact absurd rfl ho'
        · exact absurd (h.eq_of_reservation
            (fun x hx => Option.some.inj (hx.symm.trans (hreserves _ List.mem_cons_self))) ho') heq
      · rw [Lane.unresolved_setEnding]
        split_ifs with heq
        · have htrue : l.intent o' = true := ho'
          rw [heq, hintent] at htrue
          cases htrue
        · exact h.intent o' ho'
    · exact ⟨h.setEnding hreserves nofun, fun _ => nofun⟩
  case syncUnlink =>
    refine ⟨⟨fun o' ho' x hx => ?_, h.intent⟩, fun _ => nofun⟩
    rw [List.mem_singleton.mp hx]
    exact h.reserves o' ho' l.reservation List.mem_cons_self

/-- An exception keeps the reservation. -/
theorem Lane.Reserved.throw (h : l.Reserved) {lanePc : LanePc} (hholds : l.Holds o a lanePc) :
    (l.throw o a lanePc).Reserved := by
  unfold Lane.throw
  cases lanePc
  case acting => exact h.setEnding hholds.1 nofun
  case hasPending => exact h.setEnding hholds.1 nofun
  case unlink => exact h.setEnding hholds.1 nofun
  all_goals exact h

/-! ### The lane -/

/-- One call is in the lane. -/
theorem Laned.unique (h : Laned w) {lanePc lanePc' : LanePc} (ha : w.system.At a c)
    (hc : c.pc = .lane o lanePc) (hb : w.system.At b d) (hd : d.pc = .lane o' lanePc') : a = b :=
  h.locked.unique (n := 0) ha (hc ▸ rfl) hb (hd ▸ rfl)

/-- What an operation on the lock files does to the calls: the call that does it goes on, and may
be in the lane then, at its beginning. -/
theorem System.advance_eq (hlane : ∀ o lanePc, c.pc ≠ .lane o lanePc) (ino : ℕ) :
    s.advance a c ino = s ∨ ∃ locks pc, s.advance a c ino = { s with locks }.goto a c pc ∧
      ∀ o lanePc, pc = .lane o lanePc → lanePc = .exists := by
  unfold System.advance
  rcases hpc : c.pc with _ | _ | _ | _ | _ | job | ⟨owner, lanePc⟩ | ⟨_, _, _, _ | _ | _⟩ | _ | _ | _
  case syncing =>
    refine Or.inr ⟨s.locks, job.start, rfl, ?_⟩
    cases job with
    | lane owner =>
      rintro o _ ⟨⟩
      rfl
    | recover level expectedToken ino => exact fun _ _ => nofun
  case lane => exact absurd hpc (hlane owner lanePc)
  case done => exact Or.inl rfl
  all_goals
    dsimp only
    repeat' split
    all_goals exact Or.inr ⟨_, _, rfl, fun _ _ => nofun⟩

/-- A call that is in the lane has been there, or is at its beginning. -/
theorem System.at_advance (hat : s.At a c) (hlane : ∀ o lanePc, c.pc ≠ .lane o lanePc) {ino : ℕ}
    (hb : (s.advance a c ino).At b d) {lanePc : LanePc} (hd : d.pc = .lane o lanePc) :
    s.At b d ∨ lanePc = .exists := by
  rcases System.advance_eq (s := s) (a := a) hlane ino with heq | ⟨locks, pc, heq, hpc⟩
  · exact Or.inl (heq ▸ hb)
  · rw [heq] at hb
    rcases eq_or_ne b a with rfl | hne
    · obtain rfl := Option.some.inj (System.calls_goto_self.symm.trans hb.1)
      exact Or.inr (hpc o lanePc hd)
    · exact Or.inl ⟨(System.calls_goto_of_ne hne).symm.trans hb.1, hb.2⟩

/-- **Every step keeps the lane.** -/
theorem Laned.step {e : Event} (h : Laned w) (hstep : World.Step w e w') : Laned w' := by
  refine ⟨h.locked.step hstep, ?_, ?_⟩
  · -- the reservation
    cases hstep with
    | spawn hnew => exact h.reserved
    | crash p => exact h.reserved
    | reboot tmp hlocks hreservation =>
      refine ⟨fun o ho x hx => ?_, h.reserved.intent⟩
      rw [List.mem_singleton.mp hx]
      exact h.reserved.reserves o ho _ hreservation
    | withSignerLane owner hnew halive => exact h.reserved
    | recoverSignerLock level expectedToken hnew halive => exact h.reserved
    | @advance a c ino hat =>
      unfold World.advance
      split
      next owner lanePc hpc => exact (h.reserved.advance (h.holds a c owner lanePc hat hpc)).1
      · exact h.reserved
    | @throw a c hat =>
      unfold World.throw
      dsimp only
      split
      next owner lanePc hpc => exact h.reserved.throw (h.holds a c owner lanePc hat hpc)
      · exact h.reserved
    | @intend a owner pending hacting =>
      obtain ⟨c, hat, hpc⟩ := hacting
      refine ⟨h.reserved.reserves, fun o ho => ?_⟩
      rcases eq_or_ne o owner with rfl | hne
      · exact ⟨_, (h.holds a c o .acting hat hpc).2, nofun⟩
      · dsimp only at ho
        rw [update_of_ne hne] at ho
        exact h.reserved.intent o ho
  · -- what the calls rely on
    intro b d o lanePc hb hd
    cases hstep with
    | spawn hnew =>
      refine h.holds b d o lanePc ⟨hb.1, ?_⟩ hd
      rcases List.mem_cons.mp hb.2 with heq | halive
      · exact absurd (heq ▸ h.locked.calls_used b d hb.1) hnew
      · exact halive
    | crash p => exact h.holds b d o lanePc ⟨hb.1, (List.mem_filter.mp hb.2).1⟩ hd
    | reboot tmp hlocks hreservation => exact absurd hb.2 List.not_mem_nil
    | @withSignerLane a p owner hnew halive =>
      exact h.holds b d o lanePc (hb.of_begin fun heq => by cases heq.symm.trans hd) hd
    | @recoverSignerLock a p level expectedToken hnew halive =>
      exact h.holds b d o lanePc (hb.of_begin fun heq => by cases heq.symm.trans hd) hd
    | @advance a c ino hat =>
      unfold World.advance at hb ⊢
      split at hb
      next owner lanePc' hpc =>
        dsimp only at hb ⊢
        rcases eq_or_ne b a with rfl | hne
        · obtain rfl := Option.some.inj (System.calls_goto_self.symm.trans hb.1)
          obtain ⟨-, hnext⟩ := h.reserved.advance (h.holds b c owner lanePc' hat hpc)
          rcases w.lane.advance_pc owner b lanePc' with ⟨next, heq⟩ | heq
          · obtain ⟨rfl, rfl⟩ := Pc.lane.inj (heq.symm.trans hd)
            exact hnext next heq
          · cases heq.symm.trans hd
        · exact absurd (h.unique (hb.of_goto hne) hd hat hpc) hne
      next hlane =>
        dsimp only at hb ⊢
        rcases System.at_advance hat hlane hb hd with hold | rfl
        · exact h.holds b d o lanePc hold hd
        · trivial
    | @throw a c hat =>
      unfold World.throw at hb ⊢
      dsimp only at hb ⊢
      rcases eq_or_ne b a with rfl | hne
      · obtain rfl := Option.some.inj (System.calls_goto_self.symm.trans hb.1)
        dsimp only [Pc.throw] at hd
        split at hd <;> cases hd
      · split
        next owner lanePc' hpc => exact absurd (h.unique (hb.of_goto hne) hd hat hpc) hne
        · exact h.holds b d o lanePc (hb.of_goto hne) hd
    | @intend a owner pending hacting =>
      obtain ⟨c, hat, hpc⟩ := hacting
      obtain rfl := h.unique hb hd hat hpc
      obtain rfl := System.At.unique hb hat
      obtain ⟨rfl, rfl⟩ := Pc.lane.inj (hd.symm.trans hpc)
      exact h.holds b d o .acting hb hd

theorem laned_initial : Laned World.initial where
  locked :=
    { alive_used := fun _ => False.elim ∘ List.not_mem_nil
      calls_used := fun _ _ => nofun
      authored := fun _ _ => nofun
      owned := fun _ _ _ h => (nomatch h.1)
      known := fun _ _ _ _ => nofun
      condemned := fun _ _ _ => nofun
      broken := fun _ _ _ _ h => (nomatch h.1) }
  reserved := ⟨fun _ ⟨_, he, _⟩ => (nomatch he), fun _ => nofun⟩
  holds := fun _ _ _ _ h => (nomatch h.1)

/-- **The invariant holds throughout.** -/
theorem World.Reachable.laned (h : w.Reachable) : Laned w := by
  refine Transition.Reachable.invariant (I := Laned) ?_ ?_ h
  · rintro _ rfl
    exact laned_initial
  · intro w e w' hlaned hstep
    exact hlaned.step hstep

/-- A call that comes to run the action of its service was about to enter it. -/
theorem World.Step.enters {e : Event} (hlocked : Locked w.system) (hstep : World.Step w e w')
    (hbefore : ¬ w.system.Acting a o) (hafter : w'.system.Acting a o) :
    ∃ c, w.system.At a c ∧ c.pc = .lane o .enter := by
  obtain ⟨d, hb, hd⟩ := hafter
  have hnever : ¬ w.system.At a d := fun hat => hbefore ⟨d, hat, hd⟩
  cases hstep with
  | spawn hnew =>
    refine absurd ⟨hb.1, ?_⟩ hnever
    rcases List.mem_cons.mp hb.2 with heq | halive
    · exact absurd (heq ▸ hlocked.calls_used a d hb.1) hnew
    · exact halive
  | crash p => exact absurd ⟨hb.1, (List.mem_filter.mp hb.2).1⟩ hnever
  | reboot tmp hlocks hreservation => exact absurd hb.2 List.not_mem_nil
  | @withSignerLane b p owner hnew halive =>
    exact absurd (hb.of_begin fun heq => by cases heq.symm.trans hd) hnever
  | @recoverSignerLock b p level expectedToken hnew halive =>
    exact absurd (hb.of_begin fun heq => by cases heq.symm.trans hd) hnever
  | @advance b c ino hat =>
    unfold World.advance at hb
    split at hb
    next owner lanePc hpc =>
      dsimp only at hb
      rcases eq_or_ne a b with rfl | hne
      · obtain rfl := Option.some.inj (System.calls_goto_self.symm.trans hb.1)
        refine ⟨c, hat, ?_⟩
        have hgoes : (w.lane.advance owner a lanePc).2 = .lane o .acting := hd
        unfold Lane.advance at hgoes
        cases lanePc <;> dsimp only at hgoes <;> (repeat' split at hgoes) <;>
          first | (cases hgoes; exact hpc) | cases hgoes
      · exact absurd (hb.of_goto hne) hnever
    next hlane =>
      rcases System.at_advance hat hlane hb hd with hold | heq
      · exact absurd hold hnever
      · cases heq
  | @throw b c hat =>
    unfold World.throw at hb
    dsimp only at hb
    rcases eq_or_ne a b with rfl | hne
    · obtain rfl := Option.some.inj (System.calls_goto_self.symm.trans hb.1)
      dsimp only [Pc.throw] at hd
      split at hd <;> cases hd
    · exact absurd (hb.of_goto hne) hnever
  | intend pending hacting => exact absurd hb hnever

/-- **The lane excludes.** Whatever the services do, and whenever processes die, operations throw
or the machine stops: one call at most runs an action; a service that enters its action finds that
the last entry of every other service has ended well; and one service at most has an unresolved
signed intent. -/
theorem lane_excludes (h : w.Reachable) :
    (∀ a o b o', w.system.Acting a o → w.system.Acting b o' → a = b) ∧
      (∀ e w' a o, World.Step w e w' → ¬ w.system.Acting a o → w'.system.Acting a o →
        ∀ o', o' ≠ o → ∀ entry, w.lane.last o' = some entry → entry.ending = some .clean) ∧
      ∀ o o', w.lane.intent o = true → w.lane.intent o' = true → o = o' := by
  have hlaned := h.laned
  refine ⟨?_, ?_, ?_⟩
  · rintro a o b o' ⟨c, ha, hc⟩ ⟨d, hb, hd⟩
    exact hlaned.unique ha hc hb hd
  · intro e w' a o hstep hbefore hafter o' hne entry hentry
    obtain ⟨c, hat, hpc⟩ := hstep.enters hlaned.locked hbefore hafter
    have hreserves : w.lane.Reserves o := hlaned.holds a c o .enter hat hpc
    by_contra hending
    have hsaid := hlaned.reserved.reserves o' ⟨entry, hentry, hending⟩ w.lane.reservation
      List.mem_cons_self
    rw [hreserves w.lane.reservation List.mem_cons_self] at hsaid
    exact hne (Option.some.inj hsaid).symm
  · intro o o' ho ho'
    exact hlaned.reserved.unique (hlaned.reserved.intent o ho) (hlaned.reserved.intent o' ho')

/-! ### Two services -/

/-- One operation of a call that can do one. -/
def World.go (w : World) (a : Token) : World :=
  match w.system.calls a with
  | some c => if c.process ∈ w.system.alive then w.advance a c 0 else w
  | none => w

theorem World.Reachable.go (h : w.Reachable) (a : Token) : (w.go a).Reachable := by
  unfold World.go
  split
  next c hc =>
    split_ifs with halive
    · exact h.next (.advance 0 ⟨hc, halive⟩)
    · exact h
  · exact h

/-- Some operations of a call. -/
def World.goes (w : World) (a : Token) (n : ℕ) : World := (fun w => World.go w a)^[n] w

theorem World.Reachable.goes (h : w.Reachable) (a : Token) (n : ℕ) : (w.goes a n).Reachable := by
  induction n generalizing w with
  | zero => exact h
  | succ n ih => exact ih (h.go a)

/-- A new process calls `withSignerLane`. -/
def World.joined (w : World) (p : Process) (a : Token) (owner : Service) : World :=
  { w with system := (w.system.spawn p).begin a p (.opening (.lane owner)) }

theorem World.Reachable.joined {p : Process} {a : Token} (h : w.Reachable)
    (hp : p ∉ w.system.used) (ha : w.system.calls a = none) (owner : Service) :
    (w.joined p a owner).Reachable := by
  have hspawned : World.Reachable { w with system := w.system.spawn p } := h.next (.spawn hp)
  exact hspawned.next (.withSignerLane owner ha List.mem_cons_self)

/-- The holder runs its action, and the locker has found the lock taken. -/
def sampleWorld : World :=
  (((World.initial.joined ⟨1, 100⟩ 0 .holder).goes 0 9).joined ⟨1, 101⟩ 1 .locker).goes 1 1

theorem sampleWorld_reachable : sampleWorld.Reachable := by
  have hinitial : World.initial.Reachable := Transition.Reachable.of_init rfl
  have hholder := (hinitial.joined (p := ⟨1, 100⟩) (a := 0) List.not_mem_nil rfl .holder).goes 0 9
  exact (hholder.joined (p := ⟨1, 101⟩) (a := 1) (by decide) rfl .locker).goes 1 1

theorem sampleWorld_acting : sampleWorld.system.Acting 0 .holder :=
  ⟨⟨⟨1, 100⟩, .lane .holder .acting⟩, ⟨rfl, by decide⟩, rfl⟩

/-- The holder has ended well, and the locker has come back and is about to enter its action. -/
def laterWorld : World := ((sampleWorld.goes 0 6).joined ⟨1, 102⟩ 2 .locker).goes 2 8

theorem laterWorld_reachable : laterWorld.Reachable :=
  ((sampleWorld_reachable.goes 0 6).joined (p := ⟨1, 102⟩) (a := 2) (by decide) rfl .locker).goes 2 8

theorem laterWorld_at : laterWorld.system.At 2 ⟨⟨1, 102⟩, .lane .locker .enter⟩ :=
  ⟨rfl, by decide⟩

/-- The locker runs its action. -/
def enteredWorld : World := laterWorld.advance 2 ⟨⟨1, 102⟩, .lane .locker .enter⟩ 0

theorem enteredWorld_step : World.Step laterWorld (.advance 2) enteredWorld :=
  .advance 0 laterWorld_at

theorem enteredWorld_acting : enteredWorld.system.Acting 2 .locker :=
  ⟨⟨⟨1, 102⟩, .lane .locker .acting⟩, ⟨rfl, by decide⟩, rfl⟩

/-- The locker has signed an intent. -/
def signedWorld : World :=
  { enteredWorld with
    lane := { enteredWorld.lane with
      intent := update enteredWorld.lane.intent .locker true } }

theorem signedWorld_reachable : signedWorld.Reachable :=
  (laterWorld_reachable.next enteredWorld_step).next (.intend true enteredWorld_acting)

/-- While the holder acts, nobody else does; when the locker enters, the holder has ended well; and
when the locker has signed an intent, nobody else has one. -/
theorem lane_excludes_sample :
    (sampleWorld.system.Acting 0 .holder ∧ ∀ b o, sampleWorld.system.Acting b o → 0 = b) ∧
      (enteredWorld.system.Acting 2 .locker ∧ ∃ entry, laterWorld.lane.last .holder = some entry ∧
        entry.ending = some .clean) ∧
      signedWorld.lane.intent .locker = true ∧
      ∀ o, signedWorld.lane.intent o = true → Service.locker = o := by
  have hidle : ¬ laterWorld.system.Acting 2 .locker := by
    rintro ⟨c, hc, hacting⟩
    obtain rfl := Option.some.inj (laterWorld_at.1.symm.trans hc.1)
    cases hacting
  have hlast : laterWorld.lane.last .holder = some ⟨0, some .clean⟩ := rfl
  have hclean := (lane_excludes laterWorld_reachable).2.1 (.advance 2) enteredWorld 2 .locker
    enteredWorld_step hidle enteredWorld_acting .holder (by decide) _ hlast
  have hsigned : signedWorld.lane.intent .locker = true := rfl
  exact ⟨⟨sampleWorld_acting, fun b o hb =>
      (lane_excludes sampleWorld_reachable).1 0 .holder b o sampleWorld_acting hb⟩,
    ⟨enteredWorld_acting, _, hlast, hclean⟩, hsigned, fun o ho =>
      (lane_excludes signedWorld_reachable).2.2 .locker o hsigned ho⟩

end SignerLane

end Backend

end TickerGarden
