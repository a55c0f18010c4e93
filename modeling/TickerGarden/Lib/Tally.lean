import Mathlib.Algebra.Group.Hom.Defs
import TickerGarden.Lib.Rollup

/-!
# Tallies

A rollup often counts the rows of each group, beside what else it adds up, and a group whose
count comes to zero is deleted. This is right as long as the count tells whether there is a
row: what is **counted** is nothing when its count is zero. A **tally** of sums is a rollup
that has them, and a row for each group whose count is not zero.

Rollups may be stacked: the rows of one are the source of the next, which has a row of the
first in several groups, or in none.

| operation           | what it does                                                     |
|---------------------|------------------------------------------------------------------|
| `Tally.drop`        | `DELETE` of a group, if its count is zero                          |
| `Tally.adjust`      | an amount is added to a group, which is dropped if it counts zero  |
| `Tally.spread`      | the same with all groups a row is in                               |

What they do to a tally is `Tally.Tallies.adjust` and `Tally.Tallies.spread`, and a row that
is replaced in the first of two rollups is `Tally.Tallies.replace`.
-/

namespace Tally

open Rollup

variable {κ β γ A : Type} [DecidableEq κ] [DecidableEq γ] [AddCommGroup A]

/-! ### Amounts that are counted -/

/-- **An amount is counted**: its count is no debt, and it is nothing if that is zero. -/
structure Counted (count : A →+ ℤ) (x : A) : Prop where
  nonneg : 0 ≤ count x
  eq_zero : count x = 0 → x = 0

section Counted

variable {count : A →+ ℤ} {x y : A}

theorem Counted.zero : Counted count (0 : A) where
  nonneg := (map_zero count).ge
  eq_zero _ := rfl

/-- What has a count is counted. -/
theorem Counted.of_pos (h : 0 < count x) : Counted count x where
  nonneg := h.le
  eq_zero hzero := absurd hzero h.ne'

theorem Counted.add (hx : Counted count x) (hy : Counted count y) : Counted count (x + y) where
  nonneg := by
    rw [map_add]
    exact add_nonneg hx.nonneg hy.nonneg
  eq_zero h := by
    rw [map_add] at h
    have hnx := hx.nonneg
    have hny := hy.nonneg
    rw [hx.eq_zero (by omega), hy.eq_zero (by omega), add_zero]

theorem Counted.ite (p : Prop) [Decidable p] (hx : Counted count x) :
    Counted count (if p then x else 0) := by
  split
  · exact hx
  · exact Counted.zero

theorem Counted.list_sum {l : List A} (h : ∀ x ∈ l, Counted count x) : Counted count l.sum := by
  induction l with
  | nil => exact Counted.zero
  | cons x l ih =>
    rw [List.sum_cons]
    exact (h x List.mem_cons_self).add (ih fun y hy => h y (List.mem_cons_of_mem x hy))

omit [DecidableEq κ] in
/-- A sum of counted amounts over a table. -/
theorem Counted.total {f : κ → β → A} {m : Table κ β}
    (h : ∀ e ∈ m.entries, Counted count (f e.1 e.2)) : Counted count (total f m) := by
  refine Counted.list_sum fun x hx => ?_
  obtain ⟨e, he, rfl⟩ := List.mem_map.mp hx
  exact h e he

omit [DecidableEq κ] in
/-- The amount of a group of counted amounts. -/
theorem Counted.sumOf {ds : List (γ × A)} (h : ∀ d ∈ ds, Counted count d.2) (g : γ) :
    Counted count (sumOf ds g) := by
  refine Counted.list_sum fun x hx => ?_
  obtain ⟨d, hd, rfl⟩ := List.mem_map.mp hx
  exact (h d hd).ite _

omit [DecidableEq κ] in
/-- **A group has a count exactly if it has a row**, where every row has one. -/
theorem count_sumOf_ne_zero {ds : List (γ × A)} (h : ∀ d ∈ ds, 0 < count d.2) (g : γ) :
    count (Rollup.sumOf ds g) ≠ 0 ↔ g ∈ ds.map Prod.fst := by
  induction ds with
  | nil => exact iff_of_false (fun hc => hc (map_zero count)) List.not_mem_nil
  | cons d ds ih =>
    have hrest := ih fun e he => h e (List.mem_cons_of_mem d he)
    have hnonneg : 0 ≤ count (Rollup.sumOf ds g) :=
      (Counted.sumOf (fun e he => Counted.of_pos (h e (List.mem_cons_of_mem d he))) g).nonneg
    have hsum : count (Rollup.sumOf (d :: ds) g)
        = count (if d.1 = g then d.2 else 0) + count (Rollup.sumOf ds g) := by
      rw [← map_add]
      rfl
    rw [hsum, List.map_cons, List.mem_cons, ← hrest]
    by_cases hg : d.1 = g
    · have hpos := h d List.mem_cons_self
      rw [if_pos hg]
      refine iff_of_true ?_ (Or.inl hg.symm)
      omega
    · rw [if_neg hg, map_zero, zero_add]
      exact (or_iff_right fun hc => hg hc.symm).symm

end Counted

/-! ### Operations -/

/-- `DELETE … WHERE count = 0`, of one group. -/
def drop (count : A →+ ℤ) (a : Table γ A) (g : γ) : Table γ A :=
  if count (amount a g) = 0 then a.erase g else a

/-- An amount is added to a group, which is deleted if its count is zero. -/
def adjust (count : A →+ ℤ) (a : Table γ A) (d : γ × A) : Table γ A := drop count (add a d) d.1

/-- An amount is added to several groups. -/
def spread (count : A →+ ℤ) (a : Table γ A) (gs : List γ) (x : A) : Table γ A :=
  gs.foldl (fun a g => adjust count a (g, x)) a

/-- **A tally of some sums**: the rollup has them, and a row where the count is not zero. -/
structure Tallies (count : A →+ ℤ) (a : Table γ A) (S : γ → A) : Prop where
  amount_eq : ∀ g, amount a g = S g
  mem_iff : ∀ g, g ∈ a ↔ count (S g) ≠ 0

section Tallies

variable {count : A →+ ℤ} {a : Table γ A} {S S' : γ → A} {g : γ}

theorem Tallies.congr (h : Tallies count a S) (hS : ∀ g, S g = S' g) : Tallies count a S' := by
  obtain rfl : S = S' := funext hS
  exact h

/-- **An amount is added to a group whose count stays above zero.** -/
theorem Tallies.add (h : Tallies count a S) {d : γ × A}
    (hS : ∀ g, S' g = S g + if d.1 = g then d.2 else 0) (hcount : count (S' d.1) ≠ 0) :
    Tallies count (Rollup.add a d) S' where
  amount_eq g := by rw [amount_add, h.amount_eq, hS]
  mem_iff g := by
    rw [Rollup.add, AList.mem_insert]
    rcases eq_or_ne g d.1 with rfl | hne
    · exact iff_of_true (Or.inl rfl) hcount
    · rw [or_iff_right hne, h.mem_iff, hS, if_neg hne.symm, add_zero]

/-- What deleting a group leaves of the others. -/
theorem amount_drop (hzero : count (amount a g) = 0 → amount a g = 0) (j : γ) :
    amount (drop count a g) j = amount a j := by
  rw [drop]
  split
  · rename_i h
    rcases eq_or_ne j g with rfl | hne
    · rw [hzero h, amount, AList.lookup_erase, Option.getD_none]
    · rw [amount, AList.lookup_erase_ne hne]
      rfl
  · rfl

/-- **A group is adjusted**: it has a row afterwards if it counts, and the other groups are as
they were. -/
theorem Tallies.adjust (h : Tallies count a S) {d : γ × A}
    (hS : ∀ g, S' g = S g + if d.1 = g then d.2 else 0) (hcounted : Counted count (S' d.1)) :
    Tallies count (adjust count a d) S' := by
  have hamount : ∀ j, amount (Rollup.add a d) j = S' j := fun j => by
    rw [amount_add, h.amount_eq, hS]
  by_cases hzero : count (S' d.1) = 0
  · refine ⟨fun j => ?_, fun j => ?_⟩
    · rw [Tally.adjust, amount_drop, hamount]
      rw [hamount]
      exact hcounted.eq_zero
    · rw [Tally.adjust, drop, hamount, if_pos hzero, AList.mem_erase, Rollup.add, AList.mem_insert]
      rcases eq_or_ne j d.1 with rfl | hne
      · exact iff_of_false (fun hc => hc.1 rfl) fun hc => hc hzero
      · rw [and_iff_right hne, or_iff_right hne, h.mem_iff, hS, if_neg hne.symm, add_zero]
  · rw [Tally.adjust, drop, hamount, if_neg hzero]
    exact h.add hS hzero

/-- **An amount is added to several groups**, all of them different. -/
theorem Tallies.spread {gs : List γ} (hnd : gs.Nodup) {x : A} (h : Tallies count a S)
    (hS : ∀ g, S' g = S g + if g ∈ gs then x else 0) (hcounted : ∀ g, Counted count (S' g)) :
    Tallies count (spread count a gs x) S' := by
  induction gs generalizing a S with
  | nil => exact h.congr fun g => by rw [hS, if_neg List.not_mem_nil, add_zero]
  | cons g gs ih =>
    obtain ⟨hg, hnd⟩ := List.nodup_cons.mp hnd
    have hfirst : Tallies count (Tally.adjust count a (g, x))
        fun j => S j + if g = j then x else 0 := by
      refine h.adjust (fun _ => rfl) ?_
      have hhere := hcounted g
      rw [hS, if_pos List.mem_cons_self] at hhere
      rwa [if_pos rfl]
    refine ih hnd hfirst fun j => ?_
    -- each of the groups is met once
    rw [hS, add_assoc]
    congr 1
    rcases eq_or_ne g j with rfl | hne
    · rw [if_pos List.mem_cons_self, if_pos rfl, if_neg hg, add_zero]
    · rw [if_neg hne, zero_add]
      exact if_congr (List.mem_cons.trans (or_iff_right hne.symm)) rfl rfl

/-- **A tally that is filled at once**, of amounts that count. -/
theorem Tallies.backfill {ds : List (γ × A)} (h : ∀ d ∈ ds, 0 < count d.2) :
    Tallies count (addAll ∅ (grouped ds)) (sumOf ds) where
  amount_eq g := by
    rw [amount_addAll, sumOf_grouped]
    exact zero_add _
  mem_iff g := by
    rw [mem_addAll, or_iff_right (AList.notMem_empty g), count_sumOf_ne_zero h, grouped,
      List.map_map, List.mem_map]
    constructor
    · rintro ⟨j, hj, rfl⟩
      exact List.mem_dedup.mp hj
    · intro hg
      exact ⟨g, List.mem_dedup.mpr hg, rfl⟩

end Tallies

/-! ### A rollup of a rollup -/

/-- The sums of the second of two rollups: a row of the first is in the groups `into` has for
its key. -/
def sums (into : κ → List γ) (m : Table κ A) (g : γ) : A :=
  total (fun k x => if g ∈ into k then x else 0) m

section Stacked

variable {count : A →+ ℤ} {b : Table γ A} {into : κ → List γ} {m : Table κ A} {k : κ} {x : A}

/-- The rows of a table are counted. -/
def RowsCounted (count : A →+ ℤ) (m : Table κ A) : Prop := ∀ e ∈ m.entries, Counted count e.2

omit [DecidableEq κ] in
theorem RowsCounted.sums (h : RowsCounted count m) (into : κ → List γ) (g : γ) :
    Counted count (sums into m g) :=
  Counted.total fun e he => (h e he).ite _

theorem RowsCounted.erase (h : RowsCounted count m) (k : κ) : RowsCounted count (m.erase k) := by
  intro e he
  refine h e (AList.mem_lookup_iff.mp ?_)
  have hlookup := AList.mem_lookup_iff.mpr he
  rcases eq_or_ne e.1 k with rfl | hne
  · rw [AList.lookup_erase] at hlookup
    cases hlookup
  · rwa [AList.lookup_erase_ne hne] at hlookup

theorem RowsCounted.insert (h : RowsCounted count m) (hx : Counted count x) :
    RowsCounted count (m.insert k x) := by
  intro e he
  rw [AList.entries_insert] at he
  rcases List.mem_cons.mp he with rfl | he
  · exact hx
  · exact h.erase k e he

/-- **A row of the first rollup is taken out.** -/
theorem Tallies.retract (hinto : ∀ k, (into k).Nodup) (hm : RowsCounted count m)
    (h : Tallies count b (sums into m)) (hx : m.lookup k = some x) :
    Tallies count (Tally.spread count b (into k) (-x)) (sums into (m.erase k)) := by
  refine h.spread (hinto k) (fun g => ?_) fun g => (hm.erase k).sums into g
  have htotal := total_erase (fun k x => if g ∈ into k then x else 0) m k
  rw [hx, Option.elim_some] at htotal
  rw [sums, sums, ← htotal, add_assoc]
  split
  · rw [add_neg_cancel, add_zero]
  · rw [add_zero, add_zero]

/-- **A row of the first rollup is put in**, where there is none. -/
theorem Tallies.supply (hinto : ∀ k, (into k).Nodup) (hm : RowsCounted count (m.erase k))
    (h : Tallies count b (sums into (m.erase k))) (hx : Counted count x) :
    Tallies count (Tally.spread count b (into k) x) (sums into (m.insert k x)) := by
  have hinsert : ∀ g, sums into (m.insert k x) g
      = sums into (m.erase k) g + if g ∈ into k then x else 0 := fun g => by
    rw [sums, total_insert, add_comm]
    rfl
  refine h.spread (hinto k) hinsert fun g => ?_
  rw [hinsert]
  exact (hm.sums into g).add (hx.ite _)

/-- **A row of the first rollup is replaced**, or put in where there was none. -/
theorem Tallies.replace (hinto : ∀ k, (into k).Nodup) (hm : RowsCounted count m)
    (h : Tallies count b (sums into m)) (hx : Counted count x) :
    Tallies count (Tally.spread count
      ((m.lookup k).elim b fun old => Tally.spread count b (into k) (-old)) (into k) x)
      (sums into (m.insert k x)) := by
  refine Tallies.supply hinto (hm.erase k) ?_ hx
  cases hlookup : m.lookup k with
  | none =>
    refine h.congr fun g => ?_
    have htotal := total_erase (fun k x => if g ∈ into k then x else 0) m k
    rw [hlookup, Option.elim_none, add_zero] at htotal
    exact htotal.symm
  | some old => exact h.retract hinto hm hlookup

/-- **Groups of the second rollup are read instead of the rows of the first**, where each row is
in one of them at most. -/
theorem Tallies.total_select (h : Tallies count b (sums into m)) (P : γ → Prop) [DecidablePred P]
    (e : κ → Prop) [DecidablePred e] (sel : κ → γ)
    (hinto : ∀ g k, P g → (g ∈ into k ↔ e k ∧ sel k = g)) :
    total (fun g x => if P g then x else 0) b
      = total (fun k x => if e k ∧ P (sel k) then x else 0) m := by
  let G : Finset γ := b.keys.toFinset ∪ (m.entries.map fun r => sel r.1).toFinset
  have hgroups : ∀ r ∈ b.entries, r.1 ∈ G := fun r hr =>
    Finset.mem_union_left _ (List.mem_toFinset.mpr (List.mem_map_of_mem hr))
  have hrows : ∀ r ∈ m.entries, sel r.1 ∈ G := fun r hr =>
    Finset.mem_union_right _ (List.mem_toFinset.mpr (List.mem_map_of_mem hr))
  have hsplit : total (fun k x => if e k ∧ P (sel k) then x else 0) m
      = total (fun k x => if P (sel k) then (if e k then x else 0) else 0) m :=
    total_congr fun k x _ => (if_congr and_comm rfl rfl).trans (ite_and ..)
  rw [hsplit, total_eq_sum P (fun k _ => sel k) (fun k x => if e k then x else 0) hrows,
    total_eq_sum P (fun g _ => g) (fun _ x => x) hgroups]
  refine Finset.sum_congr rfl fun g _ => ?_
  split
  · rename_i hP
    rw [← amount_eq_total, h.amount_eq, sums]
    refine total_congr fun k x _ => ?_
    rw [if_congr ((hinto g k hP).trans and_comm) rfl rfl, ite_and]
  · rfl

omit [DecidableEq κ] in
/-- What a list of rows adds to the groups they are in. -/
theorem sumOf_flatMap (hinto : ∀ k, (into k).Nodup) (m : Table κ A) (g : γ) :
    sumOf (m.entries.flatMap fun e => (into e.1).map fun g => (g, e.2)) g = sums into m g := by
  rw [sums, total]
  induction m.entries with
  | nil => rfl
  | cons e l ih =>
    rw [List.flatMap_cons, sumOf_append, ih, sumOf_map (hinto e.1) fun _ => e.2, List.map_cons,
      List.sum_cons]

variable {into' : κ → List γ} {gs : κ → List γ}

/-- **A row of the first rollup comes into groups**, after it was in none. -/
theorem Tallies.admit (hgs : (gs k).Nodup) (hm : RowsCounted count m)
    (h : Tallies count b (sums into m)) (hx : m.lookup k = some x) (hnone : into k = [])
    (hinto : ∀ j, into' j = if j = k then gs k else into j) :
    Tallies count (Tally.spread count b (gs k) x) (sums into' m) := by
  refine h.spread hgs (fun g => ?_) fun g => hm.sums into' g
  have htotal := total_of_eq_off (f := fun j x => if g ∈ into j then x else 0)
    (g := fun j x => if g ∈ into' j then x else 0) hx fun j c hne => by rw [hinto, if_neg hne]
  rw [hnone, if_neg List.not_mem_nil, add_zero, hinto, if_pos rfl] at htotal
  exact htotal.symm

/-- **A row of the first rollup leaves its groups.** -/
theorem Tallies.dismiss (hgs : (gs k).Nodup) (hm : RowsCounted count m)
    (h : Tallies count b (sums into m)) (hx : m.lookup k = some x) (hsome : into k = gs k)
    (hinto : ∀ j, into' j = if j = k then [] else into j) :
    Tallies count (Tally.spread count b (gs k) (-x)) (sums into' m) := by
  refine h.spread hgs (fun g => ?_) fun g => hm.sums into' g
  have htotal := total_of_eq_off (f := fun j x => if g ∈ into j then x else 0)
    (g := fun j x => if g ∈ into' j then x else 0) hx fun j c hne => by rw [hinto, if_neg hne]
  rw [hinto, if_pos rfl, if_neg List.not_mem_nil, add_zero, hsome] at htotal
  rw [sums, sums, htotal, add_assoc]
  split
  · rw [add_neg_cancel, add_zero]
  · rw [add_zero, add_zero]

/-- **Rows of the first rollup are moved** from groups to groups, one after the other. -/
theorem Tallies.moveAll {rows : List (κ × A)} (source target : κ → List γ)
    {move : Table γ A → κ × A → Table γ A}
    (hmove : ∀ (b : Table γ A) (into : κ → List γ), ∀ r : κ × A, m.lookup r.1 = some r.2 →
      into r.1 = source r.1 → Tallies count b (sums into m) → Tallies count (move b r)
        (sums (fun j => if j = r.1 then target r.1 else into j) m))
    (hnd : (rows.map Prod.fst).Nodup) (hrows : ∀ r ∈ rows, m.lookup r.1 = some r.2)
    (h : Tallies count b (sums into m)) (hsource : ∀ r ∈ rows, into r.1 = source r.1)
    (hinto : ∀ j, into' j = if j ∈ rows.map Prod.fst then target j else into j) :
    Tallies count (rows.foldl move b) (sums into' m) := by
  induction rows generalizing b into with
  | nil =>
    obtain rfl : into' = into := funext fun j => by rw [hinto, List.map_nil, if_neg List.not_mem_nil]
    exact h
  | cons r rows ih =>
    obtain ⟨hr, hnd⟩ := List.nodup_cons.mp hnd
    have hfirst := hmove b into r (hrows r List.mem_cons_self) (hsource r List.mem_cons_self) h
    refine ih hnd (fun x hx => hrows x (List.mem_cons_of_mem r hx)) hfirst ?_ ?_
    · intro x hx
      have hne : x.1 ≠ r.1 := fun hc => hr (hc ▸ List.mem_map_of_mem hx)
      rw [if_neg hne]
      exact hsource x (List.mem_cons_of_mem r hx)
    · intro j
      rw [hinto, List.map_cons]
      rcases eq_or_ne j r.1 with rfl | hne
      · rw [if_pos List.mem_cons_self, if_neg hr, if_pos rfl]
      · rw [if_neg hne]
        exact if_congr (List.mem_cons.trans (or_iff_right hne)) rfl rfl

/-- **Rows of the first rollup come into groups**, one after the other. -/
theorem Tallies.admitAll {rows : List (κ × A)} (hgs : ∀ k, (gs k).Nodup) (hm : RowsCounted count m)
    (hnd : (rows.map Prod.fst).Nodup) (hrows : ∀ r ∈ rows, m.lookup r.1 = some r.2)
    (h : Tallies count b (sums into m)) (hnone : ∀ r ∈ rows, into r.1 = [])
    (hinto : ∀ j, into' j = if j ∈ rows.map Prod.fst then gs j else into j) :
    Tallies count (rows.foldl (fun b r => Tally.spread count b (gs r.1) r.2) b) (sums into' m) :=
  Tallies.moveAll (fun _ => []) gs
    (fun _ _ r hr hnone h => h.admit (hgs r.1) hm hr hnone fun _ => rfl) hnd hrows h hnone hinto

/-- **Rows of the first rollup leave their groups**, one after the other. -/
theorem Tallies.dismissAll {rows : List (κ × A)} (hgs : ∀ k, (gs k).Nodup)
    (hm : RowsCounted count m) (hnd : (rows.map Prod.fst).Nodup)
    (hrows : ∀ r ∈ rows, m.lookup r.1 = some r.2) (h : Tallies count b (sums into m))
    (hsome : ∀ r ∈ rows, into r.1 = gs r.1)
    (hinto : ∀ j, into' j = if j ∈ rows.map Prod.fst then [] else into j) :
    Tallies count (rows.foldl (fun b r => Tally.spread count b (gs r.1) (-r.2)) b)
      (sums into' m) :=
  Tallies.moveAll gs (fun _ => [])
    (fun _ _ r hr hsome h => h.dismiss (hgs r.1) hm hr hsome fun _ => rfl) hnd hrows h hsome hinto

end Stacked

end Tally
