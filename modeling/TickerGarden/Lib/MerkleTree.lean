import Mathlib.Data.List.Basic
import Mathlib.Data.Nat.Bitwise

/-!
# Merkle trees with promoted nodes

A tree over a list of leaves is built level by level: neighbours are hashed in pairs, and a last
node without a neighbour goes up as it is. The proof of a leaf has the siblings on its way to
the root, and none for a level at which the node had no neighbour, so proofs of one tree may
have different lengths.

Nothing is asked of the hash of a pair but that it does not tell the two apart. So a proof
needs no positions: hashing a leaf with the siblings, one after the other, gives the root
(`MerkleTree.foldl_climb`).
-/

namespace MerkleTree

variable {α : Type} (h : α → α → α)

/-! ### Levels -/

/-- The next level. -/
def levelUp : List α → List α
  | [] => []
  | [a] => [a]
  | a :: b :: l => h a b :: levelUp l

/-- The levels of a tree, the leaves first. At most `n` levels are built on top of them. -/
def levels : ℕ → List α → List (List α)
  | 0, l => [l]
  | n + 1, l => if 1 < l.length then l :: levels n (levelUp h l) else [l]

/-- The root: the first node of the last level. -/
def root (n : ℕ) (l : List α) : Option α := (levels h n l).getLast?.bind List.head?

/-- The siblings on the way up from an index, level by level. -/
def climb : List (List α) → ℕ → List α
  | [], _ => []
  | l :: ls, i => l[i ^^^ 1]?.toList ++ climb ls (i / 2)

@[simp] theorem climb_cons (l : List α) (ls : List (List α)) (i : ℕ) :
    climb (l :: ls) i = l[i ^^^ 1]?.toList ++ climb ls (i / 2) := rfl

theorem levels_ne_nil (n : ℕ) (l : List α) : levels h n l ≠ [] := by
  cases n with
  | zero => exact List.cons_ne_nil _ _
  | succ n =>
    rw [levels]
    split_ifs <;> exact List.cons_ne_nil _ _

theorem length_levelUp (l : List α) : (levelUp h l).length = (l.length + 1) / 2 := by
  induction l using levelUp.induct with
  | case1 => simp [levelUp]
  | case2 a => simp [levelUp]
  | case3 a b l ih =>
    rw [levelUp, List.length_cons, ih, List.length_cons, List.length_cons]
    omega

/-- A node of the next level: of two nodes, or of the last one. -/
theorem getElem?_levelUp (l : List α) (i : ℕ) :
    (levelUp h l)[i]? = l[2 * i]?.map fun a => l[2 * i + 1]?.elim a (h a) := by
  induction l using levelUp.induct generalizing i with
  | case1 => rfl
  | case2 a =>
    cases i with
    | zero => rfl
    | succ i => rfl
  | case3 a b l ih =>
    cases i with
    | zero => rfl
    | succ i => exact ih i

/-- The level above a part of a level that starts at an even place. -/
theorem levelUp_drop (l : List α) (c : ℕ) : levelUp h (l.drop (2 * c)) = (levelUp h l).drop c := by
  refine List.ext_getElem? fun i => ?_
  rw [getElem?_levelUp, List.getElem?_drop, List.getElem?_drop, List.getElem?_drop,
    getElem?_levelUp, Nat.mul_add, Nat.add_assoc]

/-- The level above the first pairs of a level. -/
theorem levelUp_take (l : List α) (n : ℕ) : levelUp h (l.take (2 * n)) = (levelUp h l).take n := by
  refine List.ext_getElem? fun i => ?_
  rw [getElem?_levelUp, List.getElem?_take, List.getElem?_take, List.getElem?_take,
    getElem?_levelUp]
  by_cases hi : i < n
  · have hleft : 2 * i < 2 * n := by omega
    have hright : 2 * i + 1 < 2 * n := by omega
    rw [if_pos hleft, if_pos hright, if_pos hi]
  · have hleft : ¬ 2 * i < 2 * n := by omega
    rw [if_neg hleft, if_neg hi]
    rfl

/-- **The width of a level**: the number of leaves, halved and rounded up again and again, is
rounded up once. -/
theorem length_iterate_levelUp (l : List α) (k : ℕ) :
    ((levelUp h)^[k] l).length = (l.length + 2 ^ k - 1) / 2 ^ k := by
  induction k with
  | zero => simp
  | succ k ih =>
    have hpos : 0 < 2 ^ k := Nat.two_pow_pos k
    have hround : (l.length + 2 ^ k - 1) / 2 ^ k + 1 = (l.length + 2 ^ (k + 1) - 1) / 2 ^ k := by
      rw [← Nat.add_div_right _ hpos]
      congr 1
      omega
    rw [Function.iterate_succ_apply', length_levelUp, ih, hround, Nat.div_div_eq_div_mul, pow_succ]

/-- **The height of a tree**: a tree over at most `2 ^ k` leaves has at most `k` levels above
them. -/
theorem length_levels_le {k n : ℕ} {l : List α} (hl : l.length ≤ 2 ^ k) :
    (levels h n l).length ≤ k + 1 := by
  induction k generalizing n l with
  | zero =>
    have hone : ¬ 1 < l.length := Nat.not_lt.mpr hl
    cases n with
    | zero => exact le_rfl
    | succ n => rw [levels, if_neg hone, List.length_singleton]
  | succ k ih =>
    cases n with
    | zero => exact Nat.succ_le_succ (Nat.zero_le _)
    | succ n =>
      rw [levels]
      split_ifs
      · have hhalf : (levelUp h l).length ≤ 2 ^ k := by
          rw [length_levelUp]
          rw [pow_succ] at hl
          omega
        exact Nat.succ_le_succ (ih hhalf)
      · exact Nat.succ_le_succ (Nat.zero_le _)

/-- A proof has at most one node for each level. -/
theorem length_climb_le (ls : List (List α)) (i : ℕ) : (climb ls i).length ≤ ls.length := by
  induction ls generalizing i with
  | nil => exact le_rfl
  | cons l ls ih =>
    have hone : l[i ^^^ 1]?.toList.length ≤ 1 := by
      cases l[i ^^^ 1]? with
      | none => exact Nat.zero_le 1
      | some a => exact le_rfl
    rw [climb_cons, List.length_append, List.length_cons]
    have hrest := ih (i / 2)
    omega

/-! ### Proofs -/

variable {h}

/-- **One step up**: a node, hashed with its sibling if it has one, is the node above. -/
theorem getElem?_levelUp_half (hcomm : ∀ a b, h a b = h b a) {l : List α} {i : ℕ} {a : α}
    (ha : l[i]? = some a) :
    (levelUp h l)[i / 2]? = some (l[i ^^^ 1]?.toList.foldl h a) := by
  rw [getElem?_levelUp]
  rcases Nat.even_or_odd' i with ⟨k, rfl | rfl⟩
  · rw [Nat.xor_one_of_even (even_two_mul k), Nat.mul_div_cancel_left k Nat.two_pos, ha]
    cases l[2 * k + 1]? <;> rfl
  · have hk : (2 * k + 1) / 2 = k := by omega
    have hlt : 2 * k < l.length := Nat.lt_of_succ_lt (List.getElem?_eq_some_iff.mp ha).1
    rw [Nat.xor_one_of_odd (odd_two_mul_add_one k), hk, ha, Nat.add_sub_cancel,
      List.getElem?_eq_getElem hlt]
    exact congrArg some (hcomm _ _)

/-- A level with more than one node is not the last. -/
theorem levels_of_one_lt (n : ℕ) {l : List α} (hl : 1 < l.length) :
    levels h (n + 1) l = l :: levels h n (levelUp h l) := by
  rw [levels, if_pos hl]

theorem root_of_one_lt (n : ℕ) {l : List α} (hl : 1 < l.length) :
    root h (n + 1) l = root h n (levelUp h l) := by
  rw [root, levels_of_one_lt n hl, root]
  cases hls : levels h n (levelUp h l) with
  | nil => exact absurd hls (levels_ne_nil h n _)
  | cons x ls => rw [List.getLast?_cons_cons]

theorem levels_of_length_one (n : ℕ) (a : α) : levels h n [a] = [[a]] := by
  cases n with
  | zero => rfl
  | succ n => rfl

/-- The root is the node of any level that has only one. -/
theorem root_of_iterate {n k : ℕ} {l : List α} {a : α} (hn : l.length ≤ n + 1)
    (ha : (levelUp h)^[k] l = [a]) : root h n l = some a := by
  induction k generalizing n l with
  | zero =>
    obtain rfl : l = [a] := ha
    rw [root, levels_of_length_one]
    rfl
  | succ k ih =>
    rw [Function.iterate_succ_apply] at ha
    have hup := length_levelUp h l
    rcases Nat.lt_or_ge 1 l.length with hl | hl
    · obtain ⟨n, rfl⟩ : ∃ n', n = n' + 1 := ⟨n - 1, by omega⟩
      rw [root_of_one_lt n hl]
      exact ih (by omega) ha
    · -- a single node is promoted again and again
      have hsame : levelUp h l = l := by
        match l, hl with
        | [], _ => rfl
        | [_], _ => rfl
      rw [hsame] at ha
      exact ih hn ha

/-- **Every proof leads to the root.** -/
theorem foldl_climb (hcomm : ∀ a b, h a b = h b a) {n : ℕ} {l : List α} {i : ℕ} {a : α}
    (hn : l.length ≤ n + 1) (ha : l[i]? = some a) :
    root h n l = some ((climb (levels h n l).dropLast i).foldl h a) := by
  have hi := (List.getElem?_eq_some_iff.mp ha).1
  induction n generalizing l i a with
  | zero =>
    obtain ⟨b, rfl⟩ := List.length_eq_one_iff.mp (by omega : l.length = 1)
    obtain rfl : i = 0 := by simpa using hi
    exact ha
  | succ n ih =>
    rcases Nat.lt_or_ge 1 l.length with hl | hl
    · have hup := length_levelUp h l
      rw [root_of_one_lt n hl, levels_of_one_lt n hl,
        List.dropLast_cons_of_ne_nil (levels_ne_nil h n _), climb_cons, List.foldl_append]
      exact ih (by omega) (getElem?_levelUp_half hcomm ha) (by omega)
    · obtain ⟨b, rfl⟩ := List.length_eq_one_iff.mp (by omega : l.length = 1)
      obtain rfl : i = 0 := by simpa using hi
      rw [root, levels_of_length_one]
      exact ha

end MerkleTree
