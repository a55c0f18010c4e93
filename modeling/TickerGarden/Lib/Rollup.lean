import Mathlib.Algebra.BigOperators.Group.Finset.Basic
import Mathlib.Data.List.Dedup
import TickerGarden.Lib.Table

/-!
# Rollups

A database keeps sums over the rows of a table in another one, a **rollup**, and keeps it up
to date with triggers: a statement takes some rows out of the table and puts others into it,
`Rollup.Change`, and what they contribute is added to the groups they belong to. A group that
has no row in the rollup has nothing.

| operation            | what it does                                                    |
|----------------------|-----------------------------------------------------------------|
| `Rollup.Change`      | a statement, by the rows it takes out and the rows it puts in     |
| `Rollup.Write`       | the same with its kind, `INSERT`, `UPDATE` or `DELETE`            |
| `Rollup.add`         | `INSERT … ON CONFLICT DO UPDATE`, adding to the group             |
| `Rollup.subtract`    | `UPDATE`, subtracting from the group if it has a row              |
| `Rollup.grouped`     | `GROUP BY`, with the sum of each group                            |
| `Rollup.dropZero`    | `DELETE`, of the groups that have nothing                         |

That the rollup follows its table is an equation between `Rollup.amount`, what a group has,
and `Rollup.total`, the sum over the rows. The first changes by what is added
(`Rollup.amount_addAll`), the second by what the rows contribute (`Rollup.Change.total_apply`).
-/

namespace Rollup

variable {κ β γ A : Type} [DecidableEq κ] [DecidableEq γ] [AddCommGroup A]

/-! ### Sums over a table -/

/-- The sum of a quantity over all rows. -/
def total (f : κ → β → A) (m : Table κ β) : A := (m.entries.map fun e => f e.1 e.2).sum

/-- The sum of a quantity over some rows. -/
def sumRows (f : κ → β → A) (rows : List (κ × β)) : A := (rows.map fun r => f r.1 r.2).sum

section Totals

variable {f g : κ → β → A} {m m' : Table κ β} {k : κ} {b : β}

omit [DecidableEq κ] in
@[simp] theorem sumRows_nil (f : κ → β → A) : sumRows f [] = 0 := rfl

omit [DecidableEq κ] in
@[simp] theorem sumRows_cons (f : κ → β → A) (r : κ × β) (rows : List (κ × β)) :
    sumRows f (r :: rows) = f r.1 r.2 + sumRows f rows := rfl

variable (f m k b)

/-- **A row is erased**, and the sum loses what it says. -/
theorem total_erase : total f (m.erase k) + (m.lookup k).elim 0 (f k) = total f m :=
  Table.sum_kerase f k m.entries

/-- **A row is written** where there was none. -/
theorem total_insert_of_notMem (h : k ∉ m) : total f (m.insert k b) = f k b + total f m := by
  rw [total, AList.entries_insert_of_notMem h]
  rfl

/-- **A row is written**, over one that is there or not. -/
theorem total_insert : total f (m.insert k b) = f k b + total f (m.erase k) := by
  rw [total, AList.entries_insert, List.map_cons, List.sum_cons]
  rfl

variable {f m}

omit [DecidableEq κ] in
/-- The sum of two quantities. -/
theorem total_add (f g : κ → β → A) (m : Table κ β) :
    total (fun k b => f k b + g k b) m = total f m + total g m := by
  rw [total, List.sum_map_add]
  rfl

omit [DecidableEq κ] in
/-- Quantities that agree on the rows have the same sum. -/
theorem total_congr [DecidableEq κ] (h : ∀ k b, m.lookup k = some b → f k b = g k b) :
    total f m = total g m :=
  congrArg List.sum (List.map_congr_left fun e he =>
    h e.1 e.2 (Option.mem_def.mp (AList.mem_lookup_iff.mpr he)))

/-- Tables with the same rows have the same sums. -/
theorem total_eq (h : ∀ k, m.lookup k = m'.lookup k) : total f m = total f m' := by
  have hperm : m.entries.Perm m'.entries :=
    List.lookup_ext m.nodupKeys m'.nodupKeys fun k b => by
      change b ∈ m.lookup k ↔ b ∈ m'.lookup k
      rw [h]
  exact (hperm.map _).sum_eq

variable {k b}

/-- **A quantity changes in one row**, and the sum changes with it. -/
theorem total_of_eq_off (hk : m.lookup k = some b) (hoff : ∀ j c, j ≠ k → f j c = g j c) :
    total f m + g k b = total g m + f k b := by
  have hf := total_erase f m k
  have hg := total_erase g m k
  have hrest : total f (m.erase k) = total g (m.erase k) := total_congr fun j c hj => by
    refine hoff j c ?_
    rintro rfl
    rw [AList.lookup_erase] at hj
    cases hj
  rw [hk, Option.elim_some] at hf hg
  rw [← hf, ← hg, hrest, add_right_comm]

omit [DecidableEq κ] in
/-- The number of rows, as a sum. -/
theorem total_ite (p : κ → β → Prop) [∀ k b, Decidable (p k b)] (m : Table κ β) :
    total (fun k b => if p k b then (1 : ℤ) else 0) m
      = m.entries.countP fun e => decide (p e.1 e.2) := by
  rw [total]
  induction m.entries with
  | nil => rfl
  | cons e l ih =>
    rw [List.map_cons, List.sum_cons, ih, List.countP_cons, add_comm]
    by_cases h : p e.1 e.2
    · simp [h]
    · simp [h]

end Totals

/-! ### Statements -/

/-- **A statement**: the rows it takes out of a table and the rows it puts into it. An
insertion takes none out, a deletion puts none in, and an update does both. -/
structure Change (m : Table κ β) where
  old : List (κ × β)
  new : List (κ × β)
  old_nodup : (old.map Prod.fst).Nodup
  lookup_old : ∀ r ∈ old, m.lookup r.1 = some r.2
  new_nodup : (new.map Prod.fst).Nodup
  new_fresh : ∀ r ∈ new, r.1 ∈ m → r.1 ∈ old.map Prod.fst

namespace Change

variable {m : Table κ β} (c : Change m)

/-- The table after the statement. -/
def apply : Table κ β :=
  c.new.foldl (fun m r => m.insert r.1 r.2) (c.old.foldl (fun m r => m.erase r.1) m)

variable {f : κ → β → A}

/-- Rows that are there are erased. -/
theorem total_foldl_erase {rows : List (κ × β)} (hnd : (rows.map Prod.fst).Nodup)
    (h : ∀ r ∈ rows, m.lookup r.1 = some r.2) :
    total f (rows.foldl (fun m r => m.erase r.1) m) + sumRows f rows = total f m := by
  induction rows generalizing m with
  | nil => exact add_zero _
  | cons r rows ih =>
    obtain ⟨hr, hnd⟩ := List.nodup_cons.mp hnd
    have hfirst := total_erase f m r.1
    rw [h r List.mem_cons_self, Option.elim_some] at hfirst
    rw [List.foldl_cons, sumRows_cons, add_left_comm, ih hnd, add_comm, hfirst]
    intro x hx
    have hne : x.1 ≠ r.1 := fun hc => hr (hc ▸ List.mem_map_of_mem hx)
    rw [AList.lookup_erase_ne hne]
    exact h x (List.mem_cons_of_mem r hx)

/-- Rows that are not there are inserted. -/
theorem total_foldl_insert {rows : List (κ × β)} (hnd : (rows.map Prod.fst).Nodup)
    (h : ∀ r ∈ rows, r.1 ∉ m) :
    total f (rows.foldl (fun m r => m.insert r.1 r.2) m) = total f m + sumRows f rows := by
  induction rows generalizing m with
  | nil => exact (add_zero _).symm
  | cons r rows ih =>
    obtain ⟨hr, hnd⟩ := List.nodup_cons.mp hnd
    rw [List.foldl_cons, sumRows_cons, ih hnd,
      total_insert_of_notMem f m r.1 r.2 (h r List.mem_cons_self)]
    · rw [add_comm (f r.1 r.2), add_assoc]
    · intro x hx hmem
      rcases (AList.mem_insert m).mp hmem with heq | hmem
      · exact hr (heq ▸ List.mem_map_of_mem hx)
      · exact h x (List.mem_cons_of_mem r hx) hmem

theorem lookup_foldl_erase {rows : List (κ × β)} {k : κ} :
    (rows.foldl (fun m r => m.erase r.1) m).lookup k
      = if k ∈ rows.map Prod.fst then none else m.lookup k := by
  induction rows generalizing m with
  | nil => rfl
  | cons r rows ih =>
    rw [List.foldl_cons, ih, List.map_cons]
    rcases eq_or_ne k r.1 with rfl | hne
    · rw [AList.lookup_erase, ite_self, if_pos List.mem_cons_self]
    · rw [AList.lookup_erase_ne hne]
      exact if_congr (List.mem_cons.trans (or_iff_right hne)).symm rfl rfl

/-- No row that a statement puts in is there after it has taken its rows out. -/
theorem fresh (r : κ × β) (hr : r ∈ c.new) : r.1 ∉ c.old.foldl (fun m r => m.erase r.1) m := by
  rw [← AList.lookup_eq_none, lookup_foldl_erase]
  split
  · rfl
  · rename_i hnot
    exact AList.lookup_eq_none.mpr fun hmem => hnot (c.new_fresh r hr hmem)

/-- **What a statement does to a sum.** -/
theorem total_apply (f : κ → β → A) :
    total f c.apply + sumRows f c.old = total f m + sumRows f c.new := by
  rw [apply, total_foldl_insert c.new_nodup c.fresh, add_right_comm,
    total_foldl_erase c.old_nodup c.lookup_old]

/-- What a statement leaves: the rows it puts in, and the rows it does not take out. -/
theorem lookup_apply {k : κ} {b : β} : c.apply.lookup k = some b ↔
    (k, b) ∈ c.new ∨ m.lookup k = some b ∧ k ∉ c.old.map Prod.fst := by
  have hrows : ∀ (rows : List (κ × β)) (t : Table κ β), (rows.map Prod.fst).Nodup →
      (∀ r ∈ rows, r.1 ∉ t) →
      ((rows.foldl (fun m r => m.insert r.1 r.2) t).lookup k = some b ↔
        (k, b) ∈ rows ∨ t.lookup k = some b) := by
    intro rows t hnd hfresh
    rw [← Option.mem_def, AList.mem_lookup_iff, Table.entries_foldl_insert hnd hfresh,
      List.mem_append, List.mem_reverse, ← AList.mem_lookup_iff, Option.mem_def]
    refine or_congr_left ?_
    rw [List.mem_map]
    constructor
    · rintro ⟨⟨k', b'⟩, hmem, heq⟩
      cases heq
      exact hmem
    · exact fun hmem => ⟨(k, b), hmem, rfl⟩
  rw [apply, hrows _ _ c.new_nodup c.fresh, lookup_foldl_erase]
  refine or_congr_right ?_
  split
  · rename_i hmem
    exact iff_of_false (fun hc => nomatch hc) fun hc => hc.2 hmem
  · rename_i hmem
    exact (and_iff_left hmem).symm

end Change

/-- `TG_OP`. -/
inductive Operation
  | insert
  | update
  | delete
deriving DecidableEq

/-- A statement with its kind: an insertion takes no rows out, and a deletion puts none in. -/
structure Write (m : Table κ β) extends Change m where
  op : Operation
  inserts : op = .insert → old = []
  deletes : op = .delete → new = []

/-- The rows an `INSERT … ON CONFLICT DO NOTHING` inserts: the first one of each key that is
not there. -/
def fresh (m : Table κ β) : List (κ × β) → List (κ × β)
  | [] => []
  | r :: rows => if r.1 ∈ m then fresh m rows else r :: fresh (m.insert r.1 r.2) rows

theorem fresh_spec (m : Table κ β) (rows : List (κ × β)) :
    ((fresh m rows).map Prod.fst).Nodup ∧ ∀ r ∈ fresh m rows, r.1 ∉ m ∧ r ∈ rows := by
  induction rows generalizing m with
  | nil => exact ⟨List.nodup_nil, fun r hr => absurd hr List.not_mem_nil⟩
  | cons r rows ih =>
    rw [fresh]
    split
    · obtain ⟨hnd, hrest⟩ := ih m
      exact ⟨hnd, fun x hx => ⟨(hrest x hx).1, List.mem_cons_of_mem r (hrest x hx).2⟩⟩
    · rename_i hnot
      obtain ⟨hnd, hrest⟩ := ih (m.insert r.1 r.2)
      refine ⟨List.nodup_cons.mpr ⟨?_, hnd⟩, fun x hx => ?_⟩
      · intro hmem
        obtain ⟨x, hx, heq⟩ := List.mem_map.mp hmem
        exact (hrest x hx).1 ((AList.mem_insert m).mpr (Or.inl heq))
      · rcases List.mem_cons.mp hx with rfl | hx
        · exact ⟨hnot, List.mem_cons_self⟩
        · exact ⟨fun hc => (hrest x hx).1 ((AList.mem_insert m).mpr (Or.inr hc)),
            List.mem_cons_of_mem r (hrest x hx).2⟩

/-- `INSERT … ON CONFLICT DO NOTHING`. -/
def Write.doNothing (m : Table κ β) (rows : List (κ × β)) : Write m where
  old := []
  new := fresh m rows
  old_nodup := List.nodup_nil
  lookup_old _ hr := absurd hr List.not_mem_nil
  new_nodup := (fresh_spec m rows).1
  new_fresh r hr hmem := absurd hmem ((fresh_spec m rows).2 r hr).1
  op := .insert
  inserts _ := rfl
  deletes h := nomatch h

/-- `DELETE … WHERE`. -/
def Write.delete (m : Table κ β) (p : κ → β → Bool) : Write m where
  old := (m.entries.filter fun e => p e.1 e.2).map fun e => (e.1, e.2)
  new := []
  old_nodup := by
    have hkeys : (m.entries.map Sigma.fst).Nodup := m.nodupKeys
    rw [List.map_map]
    exact List.Nodup.sublist (List.Sublist.map _ List.filter_sublist) hkeys
  lookup_old r hr := by
    obtain ⟨e, he, rfl⟩ := List.mem_map.mp hr
    exact Option.mem_def.mp (AList.mem_lookup_iff.mpr (List.mem_of_mem_filter he))
  new_nodup := List.nodup_nil
  new_fresh _ hr := absurd hr List.not_mem_nil
  op := .delete
  inserts h := nomatch h
  deletes _ := rfl

/-- What a deletion leaves. -/
theorem Write.lookup_delete {m : Table κ β} {p : κ → β → Bool} {k : κ} :
    (Write.delete m p).apply.lookup k = (m.lookup k).filter fun b => !p k b := by
  refine Option.ext fun b => ?_
  have hkeys : k ∈ (Write.delete m p).old.map Prod.fst ↔ ∃ c, m.lookup k = some c ∧ p k c := by
    rw [List.mem_map]
    constructor
    · rintro ⟨r, hr, rfl⟩
      obtain ⟨e, he, rfl⟩ := List.mem_map.mp hr
      obtain ⟨hmem, hp⟩ := List.mem_filter.mp he
      exact ⟨e.2, Option.mem_def.mp (AList.mem_lookup_iff.mpr hmem), hp⟩
    · rintro ⟨c, hc, hp⟩
      exact ⟨(k, c), List.mem_map.mpr ⟨⟨k, c⟩, List.mem_filter.mpr
        ⟨AList.mem_lookup_iff.mp (Option.mem_def.mpr hc), hp⟩, rfl⟩, rfl⟩
  rw [Change.lookup_apply, Option.filter_eq_some_iff, hkeys, Bool.not_eq_true']
  constructor
  · rintro (hnew | ⟨hb, hnot⟩)
    · exact absurd hnew List.not_mem_nil
    · exact ⟨hb, Bool.eq_false_iff.mpr fun hp => hnot ⟨b, hb, hp⟩⟩
  · rintro ⟨hb, hp⟩
    refine Or.inr ⟨hb, ?_⟩
    rintro ⟨c, hc, hpc⟩
    rw [hb, Option.some.injEq] at hc
    rw [← hc, hp] at hpc
    cases hpc

/-! ### Rollups -/

/-- What a group has. -/
def amount (a : Table γ A) (g : γ) : A := (a.lookup g).getD 0

/-- `INSERT … ON CONFLICT DO UPDATE`: an amount is added to its group. -/
def add (a : Table γ A) (d : γ × A) : Table γ A := a.insert d.1 (amount a d.1 + d.2)

/-- Several amounts are added, one after another. -/
def addAll (a : Table γ A) (ds : List (γ × A)) : Table γ A := ds.foldl add a

/-- `UPDATE`: an amount is subtracted from its group, if that has a row. -/
def subtract (a : Table γ A) (d : γ × A) : Table γ A :=
  match a.lookup d.1 with
  | none => a
  | some x => a.insert d.1 (x - d.2)

/-- The sum of the amounts of a group. -/
def sumOf (ds : List (γ × A)) (g : γ) : A := (ds.map fun d => if d.1 = g then d.2 else 0).sum

/-- `GROUP BY`: the groups there are, each with its sum. -/
def grouped (ds : List (γ × A)) : List (γ × A) :=
  (ds.map Prod.fst).dedup.map fun g => (g, sumOf ds g)

section Rollups

variable {a : Table γ A} {ds : List (γ × A)} {g : γ}

theorem amount_of_notMem (h : g ∉ a) : amount a g = 0 := by
  rw [amount, AList.lookup_eq_none.mpr h, Option.getD_none]

theorem amount_add (d : γ × A) :
    amount (add a d) g = amount a g + if d.1 = g then d.2 else 0 := by
  rw [amount, add]
  rcases eq_or_ne d.1 g with rfl | hne
  · rw [AList.lookup_insert, Option.getD_some, if_pos rfl]
  · rw [AList.lookup_insert_ne hne.symm, if_neg hne, add_zero]
    rfl

/-- **What a group has after amounts were added.** -/
theorem amount_addAll (ds : List (γ × A)) :
    amount (addAll a ds) g = amount a g + sumOf ds g := by
  induction ds generalizing a with
  | nil => exact (add_zero _).symm
  | cons d ds ih =>
    rw [addAll, List.foldl_cons]
    have hrest : amount (addAll (add a d) ds) g = amount (add a d) g + sumOf ds g := ih
    rw [addAll] at hrest
    rw [hrest, amount_add, add_assoc]
    rfl

theorem mem_addAll : g ∈ addAll a ds ↔ g ∈ a ∨ g ∈ ds.map Prod.fst := by
  induction ds generalizing a with
  | nil => simp [addAll]
  | cons d ds ih =>
    have hrest : g ∈ addAll (add a d) ds ↔ g ∈ add a d ∨ g ∈ ds.map Prod.fst := ih
    rw [addAll, List.foldl_cons, ← addAll, hrest, add, AList.mem_insert, List.map_cons,
      List.mem_cons]
    tauto

/-- What a group has after an amount was taken from one that has a row. -/
theorem amount_subtract {d : γ × A} (h : d.1 ∈ a) :
    amount (subtract a d) g = amount a g - if d.1 = g then d.2 else 0 := by
  obtain ⟨x, hx⟩ := Option.isSome_iff_exists.mp (AList.lookup_isSome.mpr h)
  rw [subtract, hx]
  rcases eq_or_ne d.1 g with rfl | hne
  · rw [amount, AList.lookup_insert, amount, hx, if_pos rfl]
    rfl
  · rw [amount, AList.lookup_insert_ne hne.symm, if_neg hne, sub_zero]
    rfl

theorem mem_subtract {d : γ × A} : g ∈ subtract a d ↔ g ∈ a := by
  rw [subtract]
  split
  · exact Iff.rfl
  · rename_i x hx
    rw [AList.mem_insert]
    refine or_iff_right_of_imp ?_
    rintro rfl
    exact AList.lookup_isSome.mp (hx ▸ rfl)

omit [DecidableEq κ] in
theorem sumOf_append (ds es : List (γ × A)) : sumOf (ds ++ es) g = sumOf ds g + sumOf es g := by
  rw [sumOf, List.map_append, List.sum_append]
  rfl

/-- The sum of a group is nothing, if there is no amount of it. -/
theorem sumOf_of_notMem (h : g ∉ ds.map Prod.fst) : sumOf ds g = 0 := by
  refine List.sum_eq_zero fun x hx => ?_
  obtain ⟨d, hd, rfl⟩ := List.mem_map.mp hx
  exact if_neg fun hc : d.1 = g => h (hc ▸ List.mem_map_of_mem hd)

/-- In a list of different groups each has its own amount. -/
theorem sumOf_map {gs : List γ} (hnd : gs.Nodup) (f : γ → A) :
    sumOf (gs.map fun g => (g, f g)) g = if g ∈ gs then f g else 0 := by
  induction gs with
  | nil => rfl
  | cons x gs ih =>
    obtain ⟨hx, hnd⟩ := List.nodup_cons.mp hnd
    rw [List.map_cons, sumOf, List.map_cons, List.sum_cons, ← sumOf, ih hnd]
    rcases eq_or_ne x g with rfl | hne
    · rw [if_pos rfl, if_neg hx, if_pos List.mem_cons_self, add_zero]
    · rw [if_neg hne, zero_add]
      simp [hne.symm]

/-- **A `GROUP BY` keeps the sums.** -/
theorem sumOf_grouped : sumOf (grouped ds) g = sumOf ds g := by
  rw [grouped, sumOf_map (List.nodup_dedup _)]
  split
  · rfl
  · rename_i hnot
    rw [List.mem_dedup] at hnot
    exact (sumOf_of_notMem hnot).symm

/-- What adds nothing can be left out. -/
theorem sumOf_filter_ne_zero [DecidableEq A] (ds : List (γ × A)) :
    sumOf (ds.filter fun d => decide (d.2 ≠ 0)) g = sumOf ds g := by
  induction ds with
  | nil => rfl
  | cons d ds ih =>
    by_cases h : d.2 = 0
    · rw [List.filter_cons_of_neg (by simpa using h), ih, sumOf, sumOf, List.map_cons,
        List.sum_cons, h, ite_self, zero_add]
    · rw [List.filter_cons_of_pos (by simpa using h), sumOf, List.map_cons, List.sum_cons, ← sumOf, ih]
      rfl

omit [DecidableEq κ] in
theorem sumOf_neg (ds : List (γ × A)) : sumOf (ds.map fun d => (d.1, -d.2)) g = -sumOf ds g := by
  induction ds with
  | nil => exact neg_zero.symm
  | cons d ds ih =>
    rw [List.map_cons, sumOf, List.map_cons, List.sum_cons, ← sumOf, ih, sumOf, sumOf, List.map_cons,
      List.sum_cons, neg_add]
    congr 1
    split
    · rfl
    · exact neg_zero.symm

omit [DecidableEq κ] in
/-- Amounts that come from rows, as a sum over the rows. -/
theorem sumOf_rows (key : κ → β → γ) (f : κ → β → A) (rows : List (κ × β)) :
    sumOf (rows.map fun r => (key r.1 r.2, f r.1 r.2)) g
      = sumRows (fun k b => if key k b = g then f k b else 0) rows := by
  rw [sumOf, sumRows, List.map_map]
  rfl

omit [DecidableEq κ] in
/-- Amounts of the rows that are selected, as a sum over all rows. -/
theorem sumOf_entries (p : κ → β → Prop) [∀ k b, Decidable (p k b)] (key : κ → β → γ)
    (f : κ → β → A) (m : Table κ β) :
    sumOf ((m.entries.filter fun e => decide (p e.1 e.2)).map fun e => (key e.1 e.2, f e.1 e.2)) g
      = total (fun k b => if p k b ∧ key k b = g then f k b else 0) m := by
  rw [total]
  induction m.entries with
  | nil => rfl
  | cons e l ih =>
    rw [List.map_cons, List.sum_cons, ← ih]
    by_cases hp : p e.1 e.2
    · rw [List.filter_cons_of_pos (by simpa using hp), List.map_cons, sumOf, List.map_cons,
        List.sum_cons, ← sumOf]
      exact congrArg (· + _) (if_congr (iff_and_self.mpr fun _ => hp) rfl rfl)
    · rw [List.filter_cons_of_neg (by simpa using hp), if_neg fun hc => hp hc.1, zero_add]

/-- `DELETE`: the groups that have nothing. -/
def dropZero [DecidableEq A] (a : Table γ A) : Table γ A :=
  Table.restrict (fun g => amount a g ≠ 0) a

@[simp] theorem amount_dropZero [DecidableEq A] : amount (dropZero a) g = amount a g := by
  rw [amount, dropZero, Table.lookup_restrict]
  split
  · rfl
  · rename_i hzero
    exact (not_not.mp hzero).symm

theorem mem_dropZero [DecidableEq A] : g ∈ dropZero a ↔ amount a g ≠ 0 := by
  rw [← AList.lookup_isSome, dropZero, Table.lookup_restrict]
  split
  · rename_i hne
    refine iff_of_true (AList.lookup_isSome.mpr ?_) hne
    by_contra hmem
    exact hne (amount_of_notMem hmem)
  · rename_i hzero
    exact iff_of_false Bool.false_ne_true hzero

/-- What a group has, as a sum over the rows of the rollup. -/
theorem amount_eq_total : amount a g = total (fun k x => if k = g then x else 0) a := by
  have hrow := total_erase (fun k x => if k = g then x else 0) a g
  have hrest : total (fun k x => if k = g then x else 0) (a.erase g) = 0 := by
    refine List.sum_eq_zero fun x hx => ?_
    obtain ⟨e, he, rfl⟩ := List.mem_map.mp hx
    refine if_neg ?_
    rintro rfl
    have hlookup := AList.mem_lookup_iff.mpr he
    rw [AList.lookup_erase] at hlookup
    cases hlookup
  rw [hrest, zero_add] at hrow
  rw [← hrow, amount]
  cases a.lookup g with
  | none => rfl
  | some x => exact (if_pos rfl).symm

omit [DecidableEq κ] in
/-- A sum over rows, by groups. -/
theorem total_eq_sum (p : γ → Prop) [DecidablePred p] (key : κ → β → γ) (f : κ → β → A)
    {m : Table κ β} {G : Finset γ} (hG : ∀ e ∈ m.entries, key e.1 e.2 ∈ G) :
    total (fun k b => if p (key k b) then f k b else 0) m
      = ∑ g ∈ G, if p g then total (fun k b => if key k b = g then f k b else 0) m else 0 := by
  simp only [total]
  generalize m.entries = l at hG
  induction l with
  | nil =>
    refine (Finset.sum_eq_zero fun g _ => ?_).symm
    exact ite_self 0
  | cons e l ih =>
    have hhead : (∑ g ∈ G, if p g then (if key e.1 e.2 = g then f e.1 e.2 else 0) else 0)
        = if p (key e.1 e.2) then f e.1 e.2 else 0 := by
      rw [Finset.sum_eq_single_of_mem _ (hG e List.mem_cons_self)]
      · rw [if_pos rfl]
      · intro g _ hne
        rw [if_neg hne.symm, ite_self]
    rw [List.map_cons, List.sum_cons, ih fun e' he' => hG e' (List.mem_cons_of_mem e he'), ← hhead,
      ← Finset.sum_add_distrib]
    refine Finset.sum_congr rfl fun g _ => ?_
    rw [List.map_cons, List.sum_cons]
    split
    · rfl
    · exact add_zero 0

omit [DecidableEq κ] in
/-- **The groups of a rollup are read instead of its rows**: where each group has the sum of
its rows, some of them together have the sum of theirs. -/
theorem total_groups (p : γ → Prop) [DecidablePred p] {key : κ → β → γ} {f : κ → β → A}
    {m : Table κ β} (h : ∀ g, amount a g = total (fun k b => if key k b = g then f k b else 0) m) :
    total (fun g x => if p g then x else 0) a
      = total (fun k b => if p (key k b) then f k b else 0) m := by
  let G : Finset γ := a.keys.toFinset ∪ (m.entries.map fun e => key e.1 e.2).toFinset
  have hrows : ∀ e ∈ m.entries, key e.1 e.2 ∈ G := fun e he =>
    Finset.mem_union_right _ (List.mem_toFinset.mpr (List.mem_map_of_mem he))
  have hgroups : ∀ e ∈ a.entries, e.1 ∈ G := fun e he =>
    Finset.mem_union_left _ (List.mem_toFinset.mpr (List.mem_map_of_mem he))
  rw [total_eq_sum p key f hrows, total_eq_sum p (fun g _ => g) (fun _ x => x) hgroups]
  refine Finset.sum_congr rfl fun g _ => ?_
  rw [← amount_eq_total, h]

/-! ### Row triggers -/

/-- **A rollup tracks a table** that is written row by row: each group has the sum of its rows,
and a row, so that an `UPDATE` finds it. -/
structure Tracks (a : Table γ A) (key : κ → γ) (f : β → A) (m : Table κ β) : Prop where
  amount_eq : ∀ g, amount a g = total (fun k b => if key k = g then f b else 0) m
  mem : ∀ k ∈ m, key k ∈ a

variable {m : Table κ β} {key : κ → γ} {f : β → A}

omit [DecidableEq κ] in
theorem Tracks.empty [DecidableEq κ] : Tracks (∅ : Table γ A) key f (∅ : Table κ β) where
  amount_eq _ := rfl
  mem k hk := absurd hk (AList.notMem_empty k)

/-- A row is deleted, if there is one. -/
theorem Tracks.erase (h : Tracks a key f m) (k : κ) :
    Tracks ((m.lookup k).elim a fun b => subtract a (key k, f b)) key f (m.erase k) := by
  have htotal : ∀ g, total (fun k b => if key k = g then f b else 0) (m.erase k)
      + (m.lookup k).elim 0 (fun b => if key k = g then f b else 0)
      = total (fun k b => if key k = g then f b else 0) m := fun g => total_erase _ m k
  have hmem : ∀ j ∈ m.erase k, j ∈ m := fun j hj => (AList.mem_erase.mp hj).2
  cases hlookup : m.lookup k with
  | none =>
    rw [hlookup] at htotal
    exact ⟨fun g => (h.amount_eq g).trans ((htotal g).symm.trans (add_zero _)),
      fun j hj => h.mem j (hmem j hj)⟩
  | some b =>
    rw [hlookup] at htotal
    have hk : key k ∈ a := h.mem k (AList.lookup_isSome.mp (hlookup ▸ rfl))
    refine ⟨fun g => ?_, fun j hj => mem_subtract.mpr (h.mem j (hmem j hj))⟩
    rw [Option.elim_some, amount_subtract hk, h.amount_eq, ← htotal, Option.elim_some,
      add_sub_cancel_right]

/-- A row is inserted, or updated where there is one. -/
theorem Tracks.insert (h : Tracks a key f m) (k : κ) (b : β) :
    Tracks (add ((m.lookup k).elim a fun b => subtract a (key k, f b)) (key k, f b)) key f
      (m.insert k b) := by
  have herase := h.erase k
  refine ⟨fun g => ?_, fun j hj => ?_⟩
  · rw [amount_add, herase.amount_eq, total_insert, add_comm]
  · rw [add, AList.mem_insert]
    rcases eq_or_ne j k with rfl | hne
    · exact Or.inl rfl
    · refine Or.inr (herase.mem j (AList.mem_erase.mpr ⟨hne, ?_⟩))
      exact ((AList.mem_insert m).mp hj).resolve_left hne

end Rollups

end Rollup
