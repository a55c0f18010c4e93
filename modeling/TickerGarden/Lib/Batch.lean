import Mathlib.Order.Basic
import Mathlib.Algebra.Order.Group.Nat
import Mathlib.Data.List.Basic
import Mathlib.Tactic.Common

/-!
# Batches that can be resumed

A batch performs its items one after the other until it stops at one, and says where. Whoever
resumes it there has performed every item once: what a batch has done is what performing the
items before the cursor does, `Batch.resume_eq`, and when the items come in a strict order the
cursor alone says which those are, `Batch.takeWhile_eq_filter`.

Failures do not matter here: an item that fails performs nothing. What matters is that what a
failing item has done is undone, and that is for the performing function to say.
-/

namespace Batch

variable {ι σ : Type}

/-- One item after the other up to the first at which the batch stops, with what is left. -/
def resume (stops : ι → Bool) (perform : σ → ι → σ) : List ι → σ → σ × List ι
  | [], s => (s, [])
  | i :: is, s => if stops i then (s, i :: is) else resume stops perform is (perform s i)

variable {stops : ι → Bool} {perform : σ → ι → σ} {l : List ι} {s : σ}

/-- **What a batch does** is to perform the items before the one it stops at. -/
theorem resume_eq : resume stops perform l s
    = ((l.takeWhile fun i => !stops i).foldl perform s, l.dropWhile fun i => !stops i) := by
  induction l generalizing s with
  | nil => rfl
  | cons i l ih =>
    rw [resume]
    by_cases hstop : stops i = true
    · rw [if_pos hstop, List.takeWhile_cons_of_neg (by simp [hstop]),
        List.dropWhile_cons_of_neg (by simp [hstop])]
      rfl
    · rw [if_neg hstop, List.takeWhile_cons_of_pos (by simpa using hstop),
        List.dropWhile_cons_of_pos (by simpa using hstop), ih]
      rfl

/-- A batch in two parts: the second begins only if the first comes to its end. -/
theorem resume_append {m : List ι} : resume stops perform (l ++ m) s
    = if (resume stops perform l s).2 = [] then resume stops perform m (resume stops perform l s).1
      else ((resume stops perform l s).1, (resume stops perform l s).2 ++ m) := by
  induction l generalizing s with
  | nil => rfl
  | cons i l ih =>
    rw [List.cons_append, resume, resume]
    by_cases hstop : stops i = true
    · rw [if_pos hstop, if_pos hstop, if_neg (List.cons_ne_nil _ _)]
      rfl
    · rw [if_neg hstop, if_neg hstop, ih]

/-- **The cursor says what has been performed**, when the items are in a strict order. -/
theorem takeWhile_eq_filter {r : ι → ι → Prop} [DecidableRel r] (hr : ∀ i j, r i j → ¬ r j i)
    (hl : l.Pairwise r) {p : ι → Bool} {i : ι} {rest : List ι} (h : l.dropWhile p = i :: rest) :
    l.takeWhile p = l.filter fun j => r j i := by
  have hsplit : l = l.takeWhile p ++ i :: rest := by rw [← h, List.takeWhile_append_dropWhile]
  rw [hsplit, List.pairwise_append, List.pairwise_cons] at hl
  obtain ⟨-, ⟨hafter, -⟩, hbefore⟩ := hl
  have hkeep : (l.takeWhile p).filter (fun j => r j i) = l.takeWhile p :=
    List.filter_eq_self.mpr fun j hj => decide_eq_true (hbefore j hj i List.mem_cons_self)
  have hdrop : (i :: rest).filter (fun j => r j i) = [] := by
    refine List.filter_eq_nil_iff.mpr fun j hj => ?_
    rw [decide_eq_true_eq]
    rcases List.mem_cons.mp hj with rfl | hmem
    · exact fun hself => hr _ _ hself hself
    · exact hr _ _ (hafter j hmem)
  conv_rhs => rw [hsplit, List.filter_append, hkeep, hdrop, List.append_nil]

/-- What every item preserves, a batch preserves. -/
theorem foldl_invariant {I : σ → Prop} (hstep : ∀ s i, I s → I (perform s i)) (hs : I s) :
    I (l.foldl perform s) := by
  induction l generalizing s with
  | nil => exact hs
  | cons i l ih => exact ih (hstep s i hs)

/-- **A quantity that is only ever cleared** is what it was up to some point, and cleared from
there on. -/
theorem cleared_once {q : ℕ → ℕ} {n : ℕ} (h : ∀ j < n, q (j + 1) = q j ∨ q (j + 1) = 0) :
    ∃ m ≤ n, ∀ j ≤ n, q j = if j ≤ m then q 0 else 0 := by
  induction n with
  | zero => exact ⟨0, le_rfl, fun j hj => by rw [if_pos hj, Nat.le_zero.mp hj]⟩
  | succ n ih =>
    obtain ⟨m, hm, hq⟩ := ih fun j hj => h j (Nat.lt_succ_of_lt hj)
    have hlast := hq n le_rfl
    rcases h n (Nat.lt_succ_self n) with hsame | hzero
    · by_cases hle : n ≤ m
      · -- nothing has been cleared yet
        refine ⟨n + 1, le_rfl, fun j hj => ?_⟩
        rw [if_pos hj]
        rcases Nat.lt_or_ge n j with hlt | hge
        · obtain rfl : j = n + 1 := le_antisymm hj hlt
          rw [hsame, hlast, if_pos hle]
        · rw [hq j hge, if_pos (hge.trans hle)]
      · refine ⟨m, hm.trans (Nat.le_succ n), fun j hj => ?_⟩
        rcases Nat.lt_or_ge n j with hlt | hge
        · obtain rfl : j = n + 1 := le_antisymm hj hlt
          rw [hsame, hlast, if_neg hle, if_neg (by omega)]
        · exact hq j hge
    · refine ⟨m, hm.trans (Nat.le_succ n), fun j hj => ?_⟩
      rcases Nat.lt_or_ge n j with hlt | hge
      · obtain rfl : j = n + 1 := le_antisymm hj hlt
        rw [hzero, if_neg (by omega)]
      · exact hq j hge

end Batch
