import Mathlib.Logic.Function.Iterate
import Mathlib.Order.Nat
import Mathlib.Tactic.Common

/-!
# Trees of blocks

A block is known by its hash, which says its number and its parent: the blocks of all chains
there ever are form a tree, and a chain is what lies below its tip. So two chains that have a
block in common have all blocks below it in common, `BlockTree.blockAt_eq_of_eq`, and where
they have none above it, they **fork** there, `BlockTree.Forks`.
-/

/-- The blocks of all chains, by their hashes. -/
structure BlockTree (H : Type*) where
  parent : H → H
  number : H → ℕ
  number_parent : ∀ h, number h ≠ 0 → number (parent h) + 1 = number h

namespace BlockTree

variable {H : Type*} (B : BlockTree H)

/-- The block of a chain at a height, if the chain is as long as that. -/
def blockAt (tip : H) (n : ℕ) : Option H :=
  if n ≤ B.number tip then some (B.parent^[B.number tip - n] tip) else none

/-- **Two chains fork** at a height: they have the same block there, and none above it. -/
structure Forks (a b : H) (fork : ℕ) : Prop where
  le_left : fork ≤ B.number a
  le_right : fork ≤ B.number b
  agree : B.blockAt a fork = B.blockAt b fork
  differ : ∀ n h, fork < n → B.blockAt a n = some h → B.blockAt b n ≠ some h

variable {B} {a b h tip : H} {m n fork : ℕ}

theorem number_iterate {k : ℕ} (hk : k ≤ B.number h) : B.number (B.parent^[k] h) = B.number h - k := by
  induction k with
  | zero => rfl
  | succ k ih =>
    have hprev := ih (Nat.le_of_succ_le hk)
    have hstep := B.number_parent (B.parent^[k] h) (by omega)
    rw [Function.iterate_succ_apply']
    omega

theorem blockAt_eq_some_iff :
    B.blockAt tip n = some h ↔ n ≤ B.number tip ∧ B.parent^[B.number tip - n] tip = h := by
  rw [blockAt]
  split
  · rename_i hle
    rw [Option.some.injEq, and_iff_right hle]
  · rename_i hlt
    exact iff_of_false (fun hc => nomatch hc) fun hc => hlt hc.1

theorem number_of_blockAt (h' : B.blockAt tip n = some h) : B.number h = n := by
  obtain ⟨hle, rfl⟩ := blockAt_eq_some_iff.mp h'
  rw [number_iterate (Nat.sub_le _ _)]
  omega

theorem exists_blockAt (hle : n ≤ B.number tip) : ∃ h, B.blockAt tip n = some h :=
  ⟨_, if_pos hle⟩

theorem le_of_blockAt (h' : B.blockAt tip n = some h) : n ≤ B.number tip :=
  (blockAt_eq_some_iff.mp h').1

/-- **Below a block of a chain** the chain is that of the block. -/
theorem blockAt_of_le (h' : B.blockAt tip n = some h) (hle : m ≤ n) :
    B.blockAt tip m = B.blockAt h m := by
  have hnumber := number_of_blockAt h'
  obtain ⟨hn, rfl⟩ := blockAt_eq_some_iff.mp h'
  rw [blockAt, blockAt, if_pos (hle.trans hn), if_pos (by omega), ← Function.iterate_add_apply]
  congr 2
  omega

/-- **Chains that have a block in common** are the same below it. -/
theorem blockAt_eq_of_eq (ha : B.blockAt a n = some h) (hb : B.blockAt b n = some h) (hle : m ≤ n) :
    B.blockAt a m = B.blockAt b m :=
  (blockAt_of_le ha hle).trans (blockAt_of_le hb hle).symm

/-- The parent of a block is the block below it. -/
theorem blockAt_parent (h' : B.blockAt tip (n + 1) = some h) :
    B.blockAt tip n = some (B.parent h) := by
  have hnumber := number_of_blockAt h'
  have hparent := B.number_parent h (by omega)
  rw [blockAt_of_le h' (Nat.le_succ n), blockAt_eq_some_iff, hnumber, Nat.add_sub_cancel_left]
  exact ⟨Nat.le_succ n, rfl⟩

/-- Below the fork the chains have the same blocks, and above it they have not. -/
theorem Forks.blockAt_iff (hf : B.Forks a b fork) (ha : B.blockAt a n = some h) :
    B.blockAt b n = some h ↔ n ≤ fork := by
  constructor
  · intro hb
    by_contra hlt
    exact hf.differ n h (Nat.not_le.mp hlt) ha hb
  · intro hle
    obtain ⟨h', hfork⟩ := exists_blockAt hf.le_left
    rw [← ha]
    exact (blockAt_eq_of_eq hfork (hf.agree ▸ hfork) hle).symm

end BlockTree
