import Mathlib.Algebra.BigOperators.Group.List.Basic
import Mathlib.Algebra.Order.BigOperators.Group.List
import Mathlib.Data.List.AList
import Mathlib.Algebra.Ring.Int.Defs
import TickerGarden.Lib.Checked
import TickerGarden.Lib.Paging

/-!
# Tables

A **table** has a value for some of its keys, and can be listed: it is what a program calls
a map when it also iterates over it, and what a database calls a table with a primary key.

`Table.total` adds up a quantity over the entries. What the operations say about it is
`Table.total_insert`, and `Table.lookup_accumulate` is the loop that adds up entries in
groups. Two tables with the same lookups have the same entries, in whatever order
(`Table.total_congr`).

What a database does with a table is `Table.map`, an update of every row, `Table.restrict`,
a selection of rows by their key, `Table.rows`, a listing in the order of the keys, and
`Table.insertNew`, the insertion that fails on a key that is there.
-/

/-- A table of values, each under its own key. -/
abbrev Table (κ β : Type) := AList fun _ : κ => β

namespace Table

variable {α β γ κ : Type} [DecidableEq κ] [DecidableEq γ]

/-! ### Properties of all rows -/

/-- Every row has a property. -/
def Every (P : κ → β → Prop) (m : Table κ β) : Prop := ∀ k, ∀ b ∈ m.lookup k, P k b

theorem every_empty (P : κ → β → Prop) : Every P (∅ : Table κ β) := by
  intro k b hb
  rw [AList.lookup_empty] at hb
  cases hb

variable {P Q : κ → β → Prop} {m : Table κ β} {k : κ} {b : β}

theorem Every.mono (h : Every P m) (hPQ : ∀ k b, P k b → Q k b) : Every Q m :=
  fun k b hb => hPQ k b (h k b hb)

/-- **A row is written**, and has the property as the others do. -/
theorem Every.insert (h : Every P m) (hb : P k b) : Every P (m.insert k b) := by
  intro j c hc
  rcases eq_or_ne j k with rfl | hne
  · rw [AList.lookup_insert] at hc
    cases hc
    exact hb
  · rw [AList.lookup_insert_ne hne] at hc
    exact h j c hc

/-- A row that was not there is written, and the others stay. -/
theorem lookup_insert_of_none (hk : m.lookup k = none) {j : κ} {c : β}
    (hc : m.lookup j = some c) : (m.insert k b).lookup j = some c := by
  have hne : j ≠ k := by
    rintro rfl
    rw [hk] at hc
    cases hc
  rw [AList.lookup_insert_ne hne, hc]

/-- A row that is there after a row was written. -/
theorem of_lookup_insert {j : κ} {c : β} (h : (m.insert k b).lookup j = some c) :
    j = k ∧ c = b ∨ j ≠ k ∧ m.lookup j = some c := by
  rcases eq_or_ne j k with rfl | hne
  · rw [AList.lookup_insert] at h
    exact .inl ⟨rfl, (Option.some.inj h).symm⟩
  · rw [AList.lookup_insert_ne hne] at h
    exact .inr ⟨hne, h⟩

/-- A row is there in one table, and was not in another. -/
def Appears (m m' : Table κ β) (k : κ) : Prop :=
  m.lookup k = none ∧ (m'.lookup k).isSome = true

theorem not_appears_self : ¬ Appears m m k := by
  rintro ⟨hnone, hsome⟩
  rw [hnone] at hsome
  cases hsome

/-- Only the row that is written appears. -/
theorem Appears.of_insert {j : κ} (h : Appears m (m.insert k b) j) : j = k ∧ m.lookup k = none := by
  rcases eq_or_ne j k with rfl | hne
  · exact ⟨rfl, h.1⟩
  · rw [Appears, AList.lookup_insert_ne hne] at h
    exact (not_appears_self h).elim

/-- What appears in two steps appears in one of them. -/
theorem Appears.split {m' m'' : Table κ β} (h : Appears m m'' k) :
    Appears m m' k ∨ Appears m' m'' k := by
  cases hk : m'.lookup k with
  | none => exact .inr ⟨hk, h.2⟩
  | some c => exact .inl ⟨h.1, by rw [hk]; rfl⟩

/-! ### Sums over the entries -/

/-- The sum of a quantity over all entries. -/
def total (f : κ → β → ℤ) (m : Table κ β) : ℤ := (m.entries.map fun e => f e.1 e.2).sum

omit [DecidableEq κ] in
@[simp] theorem total_empty (f : κ → β → ℤ) : total f (∅ : Table κ β) = 0 := rfl

/-- Taking an entry out of a list of entries takes its quantity off the sum. -/
theorem sum_kerase {A : Type} [AddCommMonoid A] (f : κ → β → A) (k : κ)
    (l : List (Sigma fun _ : κ => β)) :
    ((l.kerase k).map fun e => f e.1 e.2).sum + (l.dlookup k).elim 0 (f k)
      = (l.map fun e => f e.1 e.2).sum := by
  induction l with
  | nil => exact add_zero _
  | cons e l ih =>
    rcases eq_or_ne k e.1 with rfl | hne
    · rw [List.kerase_cons_eq rfl, List.dlookup_cons_eq, List.map_cons, List.sum_cons]
      exact add_comm _ _
    · rw [List.kerase_cons_ne hne, List.dlookup_cons_ne _ _ hne, List.map_cons, List.sum_cons,
        List.map_cons, List.sum_cons, add_assoc, ih]

/-- **An entry is replaced**, and the total changes by what it says. -/
theorem total_insert (f : κ → β → ℤ) (k : κ) (b : β) (m : Table κ β) :
    total f (m.insert k b) = total f m + f k b - (m.lookup k).elim 0 (f k) := by
  have h := sum_kerase f k m.entries
  rw [total, AList.entries_insert, List.map_cons, List.sum_cons, total, ← h, AList.lookup]
  dsimp only
  omega

/-- A quantity of an entry, or of the default that stands for a missing one. -/
theorem elim_getD (m : Table κ β) (k : κ) (d : β) (f : β → ℤ) (h : f d = 0) :
    (m.lookup k).elim 0 f = f ((m.lookup k).getD d) := by
  cases m.lookup k with
  | none => exact h.symm
  | some b => rfl

/-- **The loop that adds up in groups** computes the total of each group. -/
theorem lookup_accumulate (key : α → γ) (amount : α → ℤ) (xs : List α) (sums : Table γ ℤ) (g : γ) :
    ((xs.foldl (fun sums x => sums.insert (key x) ((sums.lookup (key x)).getD 0 + amount x))
      sums).lookup g).getD 0
      = (sums.lookup g).getD 0 + (xs.map fun x => if key x = g then amount x else 0).sum := by
  induction xs generalizing sums with
  | nil => exact (add_zero _).symm
  | cons x xs ih =>
    rw [List.foldl_cons, ih, List.map_cons, List.sum_cons, ← add_assoc]
    congr 1
    rcases eq_or_ne g (key x) with rfl | hne
    · rw [AList.lookup_insert, Option.getD_some, if_pos rfl]
    · rw [AList.lookup_insert_ne hne, if_neg hne.symm, add_zero]

/-- **Tables with the same lookups have the same totals.** -/
theorem total_congr (f : κ → β → ℤ) {m n : Table κ β} (h : ∀ k, m.lookup k = n.lookup k) :
    total f m = total f n := by
  have hperm : m.entries.Perm n.entries :=
    List.lookup_ext m.nodupKeys n.nodupKeys fun k b => by
      change b ∈ m.lookup k ↔ b ∈ n.lookup k
      rw [h]
  exact (hperm.map _).sum_eq

/-- **An entry is erased**, and the total loses what it said. -/
theorem total_erase (f : κ → β → ℤ) (k : κ) (m : Table κ β) :
    total f (m.erase k) = total f m - (m.lookup k).elim 0 (f k) := by
  have h := sum_kerase f k m.entries
  rw [total, total, ← h, AList.lookup]
  exact (add_sub_cancel_right _ _).symm

omit [DecidableEq κ] in
/-- The total of a sum of quantities, one of them scaled. -/
theorem total_add_mul (f g : κ → β → ℤ) (c : ℤ) (m : Table κ β) :
    total (fun k b => f k b + c * g k b) m = total f m + c * total g m := by
  rw [total, total, total]
  induction m.entries with
  | nil => simp
  | cons e l ih =>
    rw [List.map_cons, List.map_cons, List.map_cons, List.sum_cons, List.sum_cons, List.sum_cons,
      ih, mul_add, add_add_add_comm]

/-- Quantities that agree on the entries have the same total. -/
theorem total_congr_left {f g : κ → β → ℤ} {m : Table κ β}
    (h : ∀ k b, m.lookup k = some b → f k b = g k b) : total f m = total g m :=
  congrArg List.sum (List.map_congr_left fun e he =>
    h e.1 e.2 (Option.mem_def.mp (AList.mem_lookup_iff.mpr he)))

theorem total_nonneg {f : κ → β → ℤ} {m : Table κ β}
    (h : ∀ k b, m.lookup k = some b → 0 ≤ f k b) : 0 ≤ total f m := by
  refine List.sum_nonneg fun x hx => ?_
  obtain ⟨e, he, rfl⟩ := List.mem_map.mp hx
  exact h e.1 e.2 (Option.mem_def.mp (AList.mem_lookup_iff.mpr he))

/-- **No entry has more than the total**, if none is negative. -/
theorem lookup_le_total {f : κ → β → ℤ} {m : Table κ β}
    (h : ∀ k b, m.lookup k = some b → 0 ≤ f k b) {k : κ} {b : β} (hk : m.lookup k = some b) :
    f k b ≤ total f m := by
  have hrest : 0 ≤ total f (m.erase k) := total_nonneg fun j c hj => by
    rcases eq_or_ne j k with rfl | hne
    · rw [AList.lookup_erase] at hj
      cases hj
    · exact h j c (AList.lookup_erase_ne hne ▸ hj)
  rw [total_erase, hk, Option.elim_some] at hrest
  exact sub_nonneg.mp hrest

/-- **Some of the entries** have no more than the total, if none is negative. -/
theorem sum_le_total {f : κ → β → ℤ} {ks : List κ} {g : κ → ℤ} (hnodup : ks.Nodup)
    {m : Table κ β} (h : ∀ k b, m.lookup k = some b → 0 ≤ f k b)
    (hg : ∀ k ∈ ks, ∃ b ∈ m.lookup k, g k ≤ f k b) : (ks.map g).sum ≤ total f m := by
  induction ks generalizing m with
  | nil => exact total_nonneg h
  | cons k ks ih =>
    obtain ⟨hk, hks⟩ := List.nodup_cons.mp hnodup
    obtain ⟨b, hb, hle⟩ := hg k List.mem_cons_self
    -- the first entry is taken off, the others are left to the induction
    have hrest := ih hks (m := m.erase k)
      (fun j c hj => by
        rcases eq_or_ne j k with rfl | hne
        · rw [AList.lookup_erase] at hj
          cases hj
        · exact h j c (AList.lookup_erase_ne hne ▸ hj))
      (fun j hj => by
        have hne : j ≠ k := by
          rintro rfl
          exact hk hj
        rw [AList.lookup_erase_ne hne]
        exact hg j (List.mem_cons_of_mem k hj))
    rw [total_erase, Option.mem_def.mp hb, Option.elim_some] at hrest
    rw [List.map_cons, List.sum_cons]
    linarith

/-- The number of entries does not change when a key that is there is written. -/
theorem length_insert_of_mem {k : κ} {m : Table κ β} (hk : k ∈ m) (b : β) :
    (m.insert k b).entries.length = m.entries.length := by
  have hkeys (n : Table κ β) : n.keys.length = n.entries.length := List.length_map _
  have hpos := List.length_pos_of_mem (AList.mem_keys.mp hk)
  rw [← hkeys, ← hkeys, AList.keys_insert, List.length_cons,
    List.length_erase_of_mem (AList.mem_keys.mp hk), Nat.sub_add_cancel hpos]

/-- **Two tables that agree off some keys** have totals that differ as those keys do. -/
theorem total_eq_off (f : κ → β → ℤ) {ks : List κ} (hnodup : ks.Nodup) {m m' : Table κ β}
    (h : ∀ k, k ∉ ks → m'.lookup k = m.lookup k) :
    total f m' = total f m
      + (ks.map fun k => (m'.lookup k).elim 0 (f k) - (m.lookup k).elim 0 (f k)).sum := by
  induction ks generalizing m with
  | nil =>
    rw [List.map_nil, List.sum_nil, add_zero]
    exact total_congr f fun k => h k List.not_mem_nil
  | cons k ks ih =>
    obtain ⟨hk, hks⟩ := List.nodup_cons.mp hnodup
    -- the first key is settled, the others are left to the induction
    obtain ⟨n, hn, htotal⟩ : ∃ n : Table κ β,
        (∀ j, n.lookup j = if j = k then m'.lookup k else m.lookup j) ∧
        total f n = total f m + ((m'.lookup k).elim 0 (f k) - (m.lookup k).elim 0 (f k)) := by
      cases hlookup : m'.lookup k with
      | none =>
        refine ⟨m.erase k, fun j => ?_, ?_⟩
        · rcases eq_or_ne j k with rfl | hne
          · rw [if_pos rfl, AList.lookup_erase]
          · rw [if_neg hne, AList.lookup_erase_ne hne]
        · rw [total_erase, Option.elim_none, zero_sub, sub_eq_add_neg]
      | some b =>
        refine ⟨m.insert k b, fun j => ?_, ?_⟩
        · rcases eq_or_ne j k with rfl | hne
          · rw [if_pos rfl, AList.lookup_insert]
          · rw [if_neg hne, AList.lookup_insert_ne hne]
        · rw [total_insert, Option.elim_some, add_sub_assoc]
    have hrest := ih hks (m := n) fun j hj => by
      rw [hn]
      split_ifs with heq
      · rw [heq]
      · exact h j fun hmem => (List.mem_cons.mp hmem).elim heq hj
    have hmap : (ks.map fun j => (m'.lookup j).elim 0 (f j) - (n.lookup j).elim 0 (f j))
        = ks.map fun j => (m'.lookup j).elim 0 (f j) - (m.lookup j).elim 0 (f j) := by
      refine List.map_congr_left fun j hj => ?_
      have hne : j ≠ k := by
        rintro rfl
        exact hk hj
      rw [hn, if_neg hne]
    rw [hrest, hmap, htotal, List.map_cons, List.sum_cons, add_assoc]

/-! ### Updates and selections -/

/-- Every row is updated. -/
def map (f : κ → β → α) (m : Table κ β) : Table κ α where
  entries := m.entries.map fun e => ⟨e.1, f e.1 e.2⟩
  nodupKeys := by
    have hkeys : (m.entries.map fun e => (⟨e.1, f e.1 e.2⟩ : Sigma fun _ : κ => α)).keys
        = m.entries.keys := by
      rw [List.keys, List.map_map]
      rfl
    rw [List.NodupKeys, hkeys]
    exact m.keys_nodup

@[simp] theorem lookup_map (f : κ → β → α) (m : Table κ β) (k : κ) :
    (map f m).lookup k = (m.lookup k).map (f k) := by
  rw [AList.lookup, AList.lookup, map]
  dsimp only
  induction m.entries with
  | nil => rfl
  | cons e l ih =>
    rw [List.map_cons]
    rcases eq_or_ne k e.1 with rfl | hne
    · exact (List.dlookup_cons_eq _ _ _).trans
        (congrArg (Option.map (f e.1)) (List.dlookup_cons_eq l e.1 e.2).symm)
    · exact (List.dlookup_cons_ne (β := fun _ => α) _ ⟨e.1, f e.1 e.2⟩ hne).trans
        (ih.trans (congrArg (Option.map (f k)) (List.dlookup_cons_ne l e hne).symm))

omit [DecidableEq κ] in
theorem total_map (f : κ → α → ℤ) (g : κ → β → α) (m : Table κ β) :
    total f (map g m) = total (fun k b => f k (g k b)) m := by
  rw [total, total, map, List.map_map]
  rfl

/-- The left table is written over the right one. -/
theorem lookup_union (m n : Table κ β) (k : κ) :
    (m ∪ n).lookup k = (m.lookup k).or (n.lookup k) := by
  cases h : m.lookup k with
  | none =>
    rw [AList.lookup_union_right (AList.lookup_eq_none.mp h)]
    rfl
  | some b =>
    have hmem : k ∈ m := AList.lookup_isSome.mp (by rw [h]; rfl)
    rw [AList.lookup_union_left hmem, h]
    rfl

/-- The rows with certain keys. -/
def restrict (p : κ → Prop) [DecidablePred p] (m : Table κ β) : Table κ β where
  entries := m.entries.filter fun e => decide (p e.1)
  nodupKeys := m.nodupKeys.sublist List.filter_sublist

@[simp] theorem lookup_restrict (p : κ → Prop) [DecidablePred p] (m : Table κ β) (k : κ) :
    (restrict p m).lookup k = if p k then m.lookup k else none := by
  refine Option.ext fun b => ?_
  rw [← Option.mem_def, ← Option.mem_def, AList.mem_lookup_iff, restrict, List.mem_filter]
  split_ifs with hp
  · rw [AList.mem_lookup_iff, and_iff_left (decide_eq_true hp)]
  · simp [hp]

/-! ### Listings -/

/-- The rows in the order of their keys. -/
def rows (ord : κ → ℕ) (m : Table κ β) : List (κ × β) :=
  (m.entries.map fun e => (e.1, e.2)).insertionSort fun x y => ord x.1 ≤ ord y.1

theorem mem_rows {ord : κ → ℕ} {m : Table κ β} {k : κ} {b : β} :
    (k, b) ∈ rows ord m ↔ m.lookup k = some b := by
  rw [rows, List.mem_insertionSort, List.mem_map, ← Option.mem_def, AList.mem_lookup_iff]
  constructor
  · rintro ⟨⟨k', b'⟩, he, h⟩
    obtain ⟨rfl, rfl⟩ := Prod.mk.injEq .. ▸ h
    exact he
  · exact fun h => ⟨_, h, rfl⟩

omit [DecidableEq κ] in
/-- The keys of a listing are those of the table, each once. -/
theorem nodup_rows (ord : κ → ℕ) (m : Table κ β) : ((rows ord m).map Prod.fst).Nodup := by
  have hperm := (List.perm_insertionSort (fun x y : κ × β => ord x.1 ≤ ord y.1)
    (m.entries.map fun e => (e.1, e.2))).map Prod.fst
  rw [rows, hperm.nodup_iff, List.map_map]
  exact m.keys_nodup

omit [DecidableEq κ] in
/-- A listing is in the strict order of the keys, if they are told apart by it. -/
theorem listed_rows {ord : κ → ℕ} (hord : Function.Injective ord) (m : Table κ β) :
    Paging.Listed (fun x => ord x.1) (rows ord m) := by
  have : Std.Total fun x y : κ × β => ord x.1 ≤ ord y.1 := ⟨fun x y => le_total _ _⟩
  have : IsTrans (κ × β) fun x y => ord x.1 ≤ ord y.1 := ⟨fun x y z => le_trans⟩
  have hsorted := List.pairwise_insertionSort (fun x y : κ × β => ord x.1 ≤ ord y.1)
    (m.entries.map fun e => (e.1, e.2))
  have hnodup := List.pairwise_map.mp (nodup_rows ord m)
  refine (hsorted.and hnodup).imp ?_
  rintro x y ⟨hle, hne⟩
  exact lt_of_le_of_ne hle (hord.ne hne)

/-- Insert a row; a row with this key already there is an error. -/
def insertNew {err : Type} (duplicate : err) (m : Table κ β) (row : κ × β) :
    Except err (Table κ β) :=
  if row.1 ∈ m then .error duplicate else .ok (m.insert row.1 row.2)

/-- **New rows are inserted**, and nothing else changes. -/
theorem insertNew_rows {err : Type} (duplicate : err) {xs : List (κ × β)} {m : Table κ β}
    (hnodup : (xs.map Prod.fst).Nodup) (hnew : ∀ x ∈ xs, x.1 ∉ m) :
    ∃ t, xs.foldlM (insertNew duplicate) m = .ok t ∧
      ∀ k b, t.lookup k = some b ↔ (k, b) ∈ xs ∨ m.lookup k = some b := by
  induction xs generalizing m with
  | nil => exact ⟨m, rfl, fun k b => by simp⟩
  | cons x xs ih =>
    obtain ⟨hx, hxs⟩ := List.nodup_cons.mp hnodup
    have hxm := hnew x List.mem_cons_self
    obtain ⟨t, ht, hlookup⟩ := @ih (m.insert x.1 x.2) hxs fun y hy hmem => by
      rcases (AList.mem_insert m).mp hmem with heq | hmem
      · exact hx (heq ▸ List.mem_map_of_mem hy)
      · exact hnew y (List.mem_cons_of_mem x hy) hmem
    refine ⟨t, ?_, fun k b => ?_⟩
    · rw [List.foldlM_cons, insertNew, if_neg hxm]
      exact ht
    · rw [hlookup, List.mem_cons]
      rcases eq_or_ne k x.1 with rfl | hne
      · rw [AList.lookup_insert, AList.lookup_eq_none.mpr hxm, Option.some.injEq]
        have hnot : (x.1, b) ∉ xs := fun hmem => hx (List.mem_map.mpr ⟨_, hmem, rfl⟩)
        simp [hnot, Prod.ext_iff, eq_comm]
      · rw [AList.lookup_insert_ne hne]
        simp [Prod.ext_iff, hne]

/-- The entries of a table into which new rows are written. -/
theorem entries_foldl_insert {xs : List (κ × β)} {m : Table κ β}
    (hnodup : (xs.map Prod.fst).Nodup) (hnew : ∀ x ∈ xs, x.1 ∉ m) :
    (xs.foldl (fun m x => m.insert x.1 x.2) m).entries
      = (xs.map fun x => (⟨x.1, x.2⟩ : Sigma fun _ : κ => β)).reverse ++ m.entries := by
  induction xs generalizing m with
  | nil => rfl
  | cons x xs ih =>
    obtain ⟨hx, hxs⟩ := List.nodup_cons.mp hnodup
    have hxm := hnew x List.mem_cons_self
    rw [List.foldl_cons, ih hxs, AList.entries_insert_of_notMem hxm, List.map_cons,
      List.reverse_cons, List.append_assoc, List.singleton_append]
    intro y hy hmem
    rcases (AList.mem_insert m).mp hmem with heq | hmem
    · exact hx (heq ▸ List.mem_map_of_mem hy)
    · exact hnew y (List.mem_cons_of_mem x hy) hmem

/-- **What is computed from a key is written over a table**, for some of the keys. -/
theorem lookup_foldl_insert_key (f : κ → β) {ks : List κ} {m : Table κ β} {k : κ} :
    (ks.foldl (fun m k => m.insert k (f k)) m).lookup k
      = if k ∈ ks then some (f k) else m.lookup k := by
  induction ks generalizing m with
  | nil => simp
  | cons j ks ih =>
    rw [List.foldl_cons, ih]
    rcases eq_or_ne k j with rfl | hne
    · rw [AList.lookup_insert, if_pos List.mem_cons_self]
      exact ite_self _
    · rw [AList.lookup_insert_ne hne]
      simp [hne]

/-- **A table that is written row by row** has these rows. -/
theorem lookup_foldl_insert {xs : List (κ × β)} (hnodup : (xs.map Prod.fst).Nodup) {k : κ}
    {b : β} :
    (xs.foldl (fun m x => m.insert x.1 x.2) (∅ : Table κ β)).lookup k = some b ↔ (k, b) ∈ xs := by
  rw [← Option.mem_def, AList.mem_lookup_iff,
    entries_foldl_insert hnodup fun x _ => AList.notMem_empty x.1, AList.empty_entries,
    List.append_nil, List.mem_reverse, List.mem_map]
  constructor
  · rintro ⟨⟨k', b'⟩, hx, heq⟩
    cases heq
    exact hx
  · exact fun hx => ⟨_, hx, rfl⟩

theorem length_foldl_insert {xs : List (κ × β)} (hnodup : (xs.map Prod.fst).Nodup) :
    (xs.foldl (fun m x => m.insert x.1 x.2) (∅ : Table κ β)).entries.length = xs.length := by
  rw [entries_foldl_insert hnodup fun x _ => AList.notMem_empty x.1, AList.empty_entries,
    List.append_nil, List.length_reverse, List.length_map]

/-! ### Tables of a list -/

/-- The entries of a list, numbered from a number on. -/
def numbered (n : ℕ) : List β → List (ℕ × β)
  | [] => []
  | b :: l => (n, b) :: numbered (n + 1) l

theorem mem_numbered {n k : ℕ} {l : List β} {b : β} :
    (k, b) ∈ numbered n l ↔ n ≤ k ∧ l[k - n]? = some b := by
  induction l generalizing n with
  | nil => simp [numbered]
  | cons c l ih =>
    rw [numbered, List.mem_cons, ih, Prod.mk.injEq]
    rcases Nat.lt_trichotomy k n with hlt | rfl | hlt
    · constructor
      · rintro (⟨rfl, -⟩ | ⟨hle, -⟩) <;> omega
      · rintro ⟨hle, -⟩
        omega
    · simp [eq_comm]
    · obtain ⟨d, rfl⟩ : ∃ d, k = n + 1 + d := ⟨k - n - 1, by omega⟩
      have hd : n + 1 + d - n = d + 1 := by omega
      have hne : n + 1 + d ≠ n := by omega
      rw [hd, List.getElem?_cons_succ, Nat.add_sub_cancel_left]
      simp only [hne, false_and, false_or]
      have hle : n ≤ n + 1 + d := by omega
      rw [and_iff_right (Nat.le_add_right (n + 1) d), and_iff_right hle]

theorem getElem?_numbered (n k : ℕ) (l : List β) :
    (numbered n l)[k]? = l[k]?.map fun b => (n + k, b) := by
  induction l generalizing n k with
  | nil => rfl
  | cons b l ih =>
    cases k with
    | zero => rfl
    | succ k =>
      rw [numbered, List.getElem?_cons_succ, List.getElem?_cons_succ, ih, Nat.add_right_comm,
        Nat.add_assoc]

theorem length_numbered (n : ℕ) (l : List β) : (numbered n l).length = l.length := by
  induction l generalizing n with
  | nil => rfl
  | cons b l ih => rw [numbered, List.length_cons, ih, List.length_cons]

theorem numbered_append (n : ℕ) (l l' : List β) :
    numbered n (l ++ l') = numbered n l ++ numbered (n + l.length) l' := by
  induction l generalizing n with
  | nil => rfl
  | cons b l ih =>
    rw [List.cons_append, numbered, ih, numbered, List.length_cons, List.cons_append,
      Nat.add_right_comm, Nat.add_assoc]

theorem take_numbered (n m : ℕ) (l : List β) : (numbered n l).take m = numbered n (l.take m) := by
  induction l generalizing n m with
  | nil => rw [List.take_nil, numbered, List.take_nil]
  | cons b l ih =>
    cases m with
    | zero => rfl
    | succ m => rw [numbered, List.take_succ_cons, List.take_succ_cons, ih, numbered]

/-- The entries from a number on. -/
theorem filter_numbered (n m : ℕ) (l : List β) :
    (numbered n l).filter (fun x => decide (n + m ≤ x.1)) = numbered (n + m) (l.drop m) := by
  induction l generalizing n m with
  | nil => rw [List.drop_nil]; rfl
  | cons b l ih =>
    cases m with
    | zero =>
      rw [List.drop_zero, Nat.add_zero, List.filter_eq_self.mpr]
      rintro ⟨k, c⟩ hx
      exact decide_eq_true (mem_numbered.mp hx).1
    | succ m =>
      have hnot : ¬ n + (m + 1) ≤ n := by omega
      rw [numbered, List.filter_cons_of_neg (by simp), List.drop_succ_cons, ← Nat.add_assoc,
        Nat.add_right_comm, ih]

theorem pairwise_numbered (n : ℕ) (l : List β) :
    (numbered n l).Pairwise fun x y => x.1 < y.1 := by
  induction l generalizing n with
  | nil => exact List.Pairwise.nil
  | cons b l ih =>
    rw [numbered]
    refine List.Pairwise.cons ?_ (ih (n + 1))
    rintro ⟨k, c⟩ hx
    exact (mem_numbered.mp hx).1

theorem nodup_numbered (n : ℕ) (l : List β) : ((numbered n l).map Prod.fst).Nodup :=
  List.pairwise_map.mpr ((pairwise_numbered n l).imp fun h => h.ne)

/-- **A table that has the entries of a list under their numbers is listed as the list is.** -/
theorem rows_eq_numbered {m : Table ℕ β} {l : List β} (h : ∀ k, m.lookup k = l[k]?) :
    rows id m = numbered 0 l := by
  have hmem (x : ℕ × β) : x ∈ rows id m ↔ x ∈ numbered 0 l := by
    obtain ⟨k, b⟩ := x
    rw [mem_rows, mem_numbered, h, Nat.sub_zero]
    exact (and_iff_right (Nat.zero_le k)).symm
  have hnodup := List.Nodup.of_map _ (nodup_rows id m)
  have hnodup' := List.Nodup.of_map _ (nodup_numbered 0 l)
  have hanti : ∀ x y : ℕ × β, x ∈ rows id m → y ∈ numbered 0 l → x.1 < y.1 → y.1 < x.1 → x = y := by
    intro x y _ _ hxy hyx
    exact absurd hxy hyx.asymm
  exact List.Perm.eq_of_pairwise hanti (listed_rows Function.injective_id m)
    (pairwise_numbered 0 l) ((List.perm_ext_iff_of_nodup hnodup hnodup').mpr hmem)

/-- Entries that go on where a table of a list ends. -/
theorem insertNew_numbered {err : Type} (duplicate : err) {m : Table ℕ β} {l l' : List β}
    (h : ∀ k, m.lookup k = l[k]?) :
    ∃ t, (numbered l.length l').foldlM (insertNew duplicate) m = .ok t ∧
      ∀ k, t.lookup k = (l ++ l')[k]? := by
  obtain ⟨t, ht, hlookup⟩ := insertNew_rows duplicate (nodup_numbered l.length l') (m := m) (by
    rintro ⟨k, b⟩ hx
    rw [← AList.lookup_eq_none, h]
    exact List.getElem?_eq_none (mem_numbered.mp hx).1)
  refine ⟨t, ht, fun k => Option.ext fun b => ?_⟩
  rw [hlookup, mem_numbered, h]
  rcases Nat.lt_or_ge k l.length with hlt | hle
  · rw [List.getElem?_append_left hlt]
    constructor
    · rintro (⟨hle, -⟩ | hb)
      · omega
      · exact hb
    · exact Or.inr
  · rw [List.getElem?_append_right hle, List.getElem?_eq_none hle]
    constructor
    · rintro (⟨-, hb⟩ | hb)
      · exact hb
      · cases hb
    · exact fun hb => Or.inl ⟨hle, hb⟩

end Table
