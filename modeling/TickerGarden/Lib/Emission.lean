import Mathlib.Algebra.Order.BigOperators.Group.List
import Mathlib.Algebra.Order.Ring.Int
import Mathlib.Tactic.Ring
import Mathlib.Tactic.Linarith

/-!
# Streams that are paid out over time

A **stream** pays at a constant rate until it ends, and pays what the division into a rate
left over when it ends. What is read of a stream is when it ends, its rate and what is left
over; the type of streams is arbitrary.

* `Emission.outstanding u l` – what the streams of `l` have still to pay at the time `u`.
  Advancing the time by a length takes that length times the sum of the rates off it
  (`Emission.outstanding_advance`): an identity, whatever the signs are.
* `Emission.live t l` – the streams that are left at the time `t`, of a list in the order of
  the ends.
* `Emission.length_mul_lt` – how many streams there can be, if their ends keep a distance and
  lie in a window.
-/

namespace Emission

variable {α : Type} (ends : α → ℕ) (rate rest : α → ℤ)

/-- The sum of the rates. -/
def totalRate (l : List α) : ℤ := (l.map rate).sum

/-- What is still to be paid from a time on. -/
def outstanding (u : ℕ) (l : List α) : ℤ := (l.map fun s => rate s * (ends s - u) + rest s).sum

@[simp] theorem totalRate_nil : totalRate rate ([] : List α) = 0 := rfl

@[simp] theorem totalRate_cons (s : α) (l : List α) :
    totalRate rate (s :: l) = rate s + totalRate rate l := List.sum_cons

@[simp] theorem totalRate_append (l m : List α) :
    totalRate rate (l ++ m) = totalRate rate l + totalRate rate m := by
  rw [totalRate, List.map_append, List.sum_append]
  rfl

@[simp] theorem outstanding_nil (u : ℕ) : outstanding ends rate rest u ([] : List α) = 0 := rfl

@[simp] theorem outstanding_cons (u : ℕ) (s : α) (l : List α) :
    outstanding ends rate rest u (s :: l)
      = rate s * (ends s - u) + rest s + outstanding ends rate rest u l := List.sum_cons

@[simp] theorem outstanding_append (u : ℕ) (l m : List α) :
    outstanding ends rate rest u (l ++ m)
      = outstanding ends rate rest u l + outstanding ends rate rest u m := by
  rw [outstanding, List.map_append, List.sum_append]
  rfl

/-- **Time passes**, and the rates are paid for as long. -/
theorem outstanding_advance (u v : ℕ) (l : List α) :
    outstanding ends rate rest u l
      = totalRate rate l * (v - u) + outstanding ends rate rest v l := by
  induction l with
  | nil => simp
  | cons s l ih =>
    rw [outstanding_cons, outstanding_cons, totalRate_cons, ih]
    ring

/-- The streams that are left. -/
def live (t : ℕ) (l : List α) : List α := l.dropWhile fun s => decide (ends s ≤ t)

theorem live_suffix (t : ℕ) (l : List α) : live ends t l <:+ l := List.dropWhile_suffix _

theorem live_cons_of_le {t : ℕ} {s : α} (h : ends s ≤ t) (l : List α) :
    live ends t (s :: l) = live ends t l := List.dropWhile_cons_of_pos (decide_eq_true h)

theorem live_cons_of_lt {t : ℕ} {s : α} (h : t < ends s) (l : List α) :
    live ends t (s :: l) = s :: l := List.dropWhile_cons_of_neg (by simpa using h)

variable {ends rate rest} {l : List α} {t u w gap : ℕ}

/-- Of a list in the order of the ends, the streams that are left end later. -/
theorem lt_of_mem_live (hordered : l.Pairwise fun s s' => ends s ≤ ends s') {s : α}
    (hs : s ∈ live ends t l) : t < ends s := by
  induction l with
  | nil => exact absurd hs List.not_mem_nil
  | cons s' l ih =>
    obtain ⟨hfirst, hordered⟩ := List.pairwise_cons.mp hordered
    rcases le_or_gt (ends s') t with hle | hlt
    · exact ih hordered (live_cons_of_le ends hle l ▸ hs)
    · rw [live_cons_of_lt ends hlt l] at hs
      rcases List.mem_cons.mp hs with rfl | hs
      · exact hlt
      · exact hlt.trans_le (hfirst s hs)

/-! ### Signs -/

theorem totalRate_nonneg (h : ∀ s ∈ l, 0 ≤ rate s) : 0 ≤ totalRate rate l :=
  List.sum_nonneg (by simpa using h)

/-- What a stream that pays has still to pay is at least its rate. -/
theorem totalRate_le_outstanding (h : ∀ s ∈ l, u < ends s ∧ 0 ≤ rate s ∧ 0 ≤ rest s) :
    totalRate rate l ≤ outstanding ends rate rest u l := by
  induction l with
  | nil => exact le_rfl
  | cons s l ih =>
    obtain ⟨hlt, hrate, hrest⟩ := h s List.mem_cons_self
    have hone : (1 : ℤ) ≤ ends s - u := by omega
    have hmul := mul_le_mul_of_nonneg_left hone hrate
    have hl := ih fun s hs => h s (List.mem_cons_of_mem _ hs)
    rw [totalRate_cons, outstanding_cons]
    linarith

theorem outstanding_nonneg (h : ∀ s ∈ l, u ≤ ends s ∧ 0 ≤ rate s ∧ 0 ≤ rest s) :
    0 ≤ outstanding ends rate rest u l := by
  induction l with
  | nil => exact le_rfl
  | cons s l ih =>
    obtain ⟨hle, hrate, hrest⟩ := h s List.mem_cons_self
    have hmul := mul_nonneg hrate (show (0 : ℤ) ≤ ends s - u by omega)
    have hl := ih fun s hs => h s (List.mem_cons_of_mem _ hs)
    rw [outstanding_cons]
    linarith

/-- **Nothing is paid back**: what is left of the streams has no more to pay than they had. -/
theorem outstanding_live_le (hut : u ≤ t)
    (h : ∀ s ∈ l, u ≤ ends s ∧ 0 ≤ rate s ∧ 0 ≤ rest s) :
    outstanding ends rate rest t (live ends t l) ≤ outstanding ends rate rest u l := by
  induction l with
  | nil => exact le_rfl
  | cons s l ih =>
    have hl : ∀ s ∈ l, u ≤ ends s ∧ 0 ≤ rate s ∧ 0 ≤ rest s := fun s hs =>
      h s (List.mem_cons_of_mem _ hs)
    rcases le_or_gt (ends s) t with hle | hlt
    · obtain ⟨hus, hrate, hrest⟩ := h s List.mem_cons_self
      have hmul := mul_nonneg hrate (show (0 : ℤ) ≤ ends s - u by omega)
      rw [live_cons_of_le ends hle, outstanding_cons]
      linarith [ih hl]
    · have hmul := mul_nonneg (totalRate_nonneg fun s hs => (h s hs).2.1)
        (show (0 : ℤ) ≤ t - u by omega)
      rw [live_cons_of_lt ends hlt, outstanding_advance ends rate rest u t]
      linarith

/-! ### Distances -/

/-- **The slots that streams can take**: each of them takes a distance of the window that the
ends lie in. -/
theorem length_mul_lt (hspaced : l.Pairwise fun s s' => ends s + gap ≤ ends s')
    (hlow : ∀ s ∈ l, u < ends s) (hhigh : ∀ s ∈ l, ends s + gap ≤ w) (huw : u < w) :
    u + l.length * gap < w := by
  induction l generalizing u with
  | nil => simpa using huw
  | cons s l ih =>
    obtain ⟨hfirst, hspaced⟩ := List.pairwise_cons.mp hspaced
    have hs := hlow s List.mem_cons_self
    have hsw := hhigh s List.mem_cons_self
    have hrest := ih (u := u + gap) hspaced
      (fun s' hs' => by have := hfirst s' hs'; omega)
      (fun s' hs' => hhigh s' (List.mem_cons_of_mem _ hs')) (by omega)
    rw [List.length_cons, Nat.add_mul, Nat.one_mul]
    omega

end Emission
