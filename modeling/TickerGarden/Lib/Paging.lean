import Mathlib.Algebra.GroupWithZero.Nat
import Mathlib.Data.List.Sort
import Mathlib.Order.Lattice

/-!
# Reading a list page by page

A program that reads a long list in bounded pieces keeps a **cursor**: the key of the last row
it has read. The rows are listed by strictly increasing keys, a page is the first few rows
whose key is beyond the cursor, and the cursor then moves to the last of them. Nothing else is
remembered, so such a reading may stop between any two pages and go on later, with pages of
another size.

What is left to read (`Paging.rest`) is all there is to say about a cursor: a page is a
beginning of it (`Paging.page_eq_take`), the rest after the page is the rest of it
(`Paging.rest_next`), and a page that is not full was the last (`Paging.rest_next_eq_nil`).

A server that hands its cursors out reads one row more than it shows, so that the last page has
no cursor. `Paging.follow_listing` says what a client sees that follows the cursors.
-/

namespace Paging

variable {ρ κ : Type} [LinearOrder κ] (key : ρ → κ)

/-- Rows in the order of their keys, no key twice. -/
def Listed (rows : List ρ) : Prop := rows.Pairwise fun x y => key x < key y

/-- The rows that are still to be read. -/
def rest (cursor : κ) (rows : List ρ) : List ρ := rows.filter fun x => decide (cursor < key x)

/-- One page: at most `n` rows from the cursor on. -/
def page (n : ℕ) (cursor : κ) (rows : List ρ) : List ρ := (rest key cursor rows).take n

/-- The cursor after a page: the last key of it, or the old cursor if it was empty. -/
def next (cursor : κ) (rows : List ρ) : κ := (rows.getLast?.map key).getD cursor

variable {key}

theorem page_eq_take (n : ℕ) (cursor : κ) (rows : List ρ) :
    page key n cursor rows = (rest key cursor rows).take n := rfl

theorem mem_rest {cursor : κ} {rows : List ρ} {x : ρ} :
    x ∈ rest key cursor rows ↔ x ∈ rows ∧ cursor < key x := by
  simp [rest]

/-- A cursor before all rows leaves all of them. -/
theorem rest_of_forall_lt {cursor : κ} {rows : List ρ} (h : ∀ x ∈ rows, cursor < key x) :
    rest key cursor rows = rows :=
  List.filter_eq_self.mpr fun x hx => decide_eq_true (h x hx)

/-- A cursor at or behind all rows leaves none. -/
theorem rest_of_forall_le {cursor : κ} {rows : List ρ} (h : ∀ x ∈ rows, key x ≤ cursor) :
    rest key cursor rows = [] :=
  List.filter_eq_nil_iff.mpr fun x hx => by simpa using h x hx

theorem Listed.rest {rows : List ρ} (h : Listed key rows) (cursor : κ) :
    Listed key (rest key cursor rows) :=
  List.Pairwise.filter _ h

/-- A later cursor leaves a part of what an earlier one leaves. -/
theorem rest_rest {c d : κ} (h : c ≤ d) (rows : List ρ) :
    rest key d (rest key c rows) = rest key d rows := by
  rw [rest, rest, rest, List.filter_filter]
  refine List.filter_congr fun x _ => ?_
  rw [Bool.and_eq_left_iff_imp]
  intro hx
  exact decide_eq_true (h.trans_lt (of_decide_eq_true hx))

/-- Listed rows divide at a cursor. -/
theorem Listed.filter_append_rest {rows : List ρ} (h : Listed key rows) (cursor : κ) :
    rows.filter (fun x => decide (key x ≤ cursor)) ++ Paging.rest key cursor rows = rows := by
  induction rows with
  | nil => rfl
  | cons x rows ih =>
    have hx : ∀ y ∈ rows, key x < key y := fun y hy => List.rel_of_pairwise_cons h hy
    rcases le_or_gt (key x) cursor with hle | hlt
    · rw [List.filter_cons_of_pos (by simpa using hle), List.cons_append, Paging.rest,
        List.filter_cons_of_neg (by simpa using hle)]
      exact congrArg _ (ih h.of_cons)
    · -- everything after `x` is beyond the cursor as well
      have hall : ∀ y ∈ x :: rows, cursor < key y := by
        rintro y hy
        rcases List.mem_cons.mp hy with rfl | hy
        · exact hlt
        · exact hlt.trans (hx y hy)
      rw [rest_of_forall_lt hall, List.filter_eq_nil_iff.mpr, List.nil_append]
      intro y hy
      simpa using hall y hy

/-- The cursor at the end of the first of two listed parts leaves the second. -/
theorem Listed.rest_next_append {xs ys : List ρ} {cursor : κ} (h : Listed key (xs ++ ys))
    (hcursor : ∀ y ∈ ys, cursor < key y) : Paging.rest key (next key cursor xs) (xs ++ ys) = ys := by
  obtain ⟨hxs, -, hlt⟩ := List.pairwise_append.mp h
  rw [Paging.rest, List.filter_append]
  rcases List.eq_nil_or_concat xs with rfl | ⟨zs, z, rfl⟩
  · exact rest_of_forall_lt hcursor
  · rw [next, List.concat_eq_append, List.getLast?_append, List.getLast?_singleton]
    have hle : ∀ x ∈ zs ++ [z], key x ≤ key z := by
      intro x hx
      rcases List.mem_append.mp hx with hx | hx
      · rw [List.concat_eq_append] at hxs
        exact ((List.pairwise_append.mp hxs).2.2 x hx z (List.mem_singleton_self z)).le
      · exact (congrArg key (List.mem_singleton.mp hx)).le
    have hz : z ∈ zs.concat z := by
      rw [List.concat_eq_append]
      exact List.mem_append_right _ (List.mem_singleton_self z)
    exact (congrArg₂ _ (rest_of_forall_le hle) (rest_of_forall_lt (hlt z hz))).trans
      (List.nil_append ys)

/-- **The step**: after a page, what is left is what was left without the page. -/
theorem rest_next {rows : List ρ} (h : Listed key rows) (n : ℕ) (cursor : κ) :
    rest key (next key cursor (page key n cursor rows)) rows = (rest key cursor rows).drop n := by
  have hmoves : cursor ≤ next key cursor (page key n cursor rows) := by
    rw [next]
    rcases hlast : (page key n cursor rows).getLast? with _ | x
    · exact le_rfl
    · have hx := List.mem_of_mem_take (List.mem_of_getLast? hlast)
      exact (mem_rest.mp hx).2.le
  have hlisted := h.rest cursor
  rw [← List.take_append_drop n (rest key cursor rows)] at hlisted
  have hdrop := hlisted.rest_next_append fun y hy =>
    (mem_rest.mp (List.mem_of_mem_drop hy)).2
  rwa [List.take_append_drop, ← page_eq_take, rest_rest hmoves] at hdrop

/-- A page that is not full was the last. -/
theorem rest_next_eq_nil {rows : List ρ} (h : Listed key rows) {n : ℕ} {cursor : κ}
    (hshort : (page key n cursor rows).length < n) :
    rest key (next key cursor (page key n cursor rows)) rows = [] := by
  rw [page_eq_take, List.length_take] at hshort
  rw [rest_next h, List.drop_eq_nil_iff]
  omega

theorem length_rest_le (cursor : κ) (rows : List ρ) :
    (rest key cursor rows).length ≤ rows.length :=
  List.length_filter_le _ _

/-- A full page brings the end closer. -/
theorem length_rest_next_lt {rows : List ρ} (h : Listed key rows) {n : ℕ} {cursor : κ}
    (hone : 1 ≤ n) (hfull : ¬ (page key n cursor rows).length < n) :
    (rest key (next key cursor (page key n cursor rows)) rows).length
      < (rest key cursor rows).length := by
  rw [page_eq_take, List.length_take] at hfull
  rw [rest_next h, List.length_drop]
  omega

/-! ### One row ahead

A page that is read with one row more than it shows knows whether it is the last: then there is
no cursor to go on with. The first page has no cursor either. -/

variable (key) in
/-- The rows that are still to be read, with a cursor or from the start. -/
def left (cursor : Option κ) (rows : List ρ) : List ρ :=
  cursor.elim rows fun c => rest key c rows

/-- What a page shows of the rows that were read for it. -/
def visible (n : ℕ) (read : List ρ) : List ρ := read.take n

/-- The row the next page starts after, if there is one more. -/
def ahead (n : ℕ) (read : List ρ) : Option ρ :=
  if n < read.length then (visible n read).getLast? else none

omit [LinearOrder κ] in
theorem visible_take (n : ℕ) (rows : List ρ) : visible n (rows.take (n + 1)) = rows.take n := by
  rw [visible, List.take_take, Nat.min_eq_left (Nat.le_succ n)]

theorem ahead_eq_none_iff {n : ℕ} (hn : 1 ≤ n) (rows : List ρ) :
    ahead n (rows.take (n + 1)) = none ↔ rows.length ≤ n := by
  rw [ahead, visible_take, List.length_take]
  constructor
  · intro h
    by_contra hlt
    rw [if_pos (by omega), List.getLast?_eq_none_iff, List.take_eq_nil_iff] at h
    rcases h with h | rfl
    · omega
    · exact hlt (Nat.zero_le n)
  · intro h
    rw [if_neg (by omega)]

/-- **The step**: after the last row of a page, what is left is what was left without the page. -/
theorem left_ahead {rows : List ρ} (h : Listed key rows) {n : ℕ} {cursor : Option κ} {x : ρ}
    (hx : ahead n ((left key cursor rows).take (n + 1)) = some x) :
    left key (some (key x)) rows = (left key cursor rows).drop n := by
  have hlast : ((left key cursor rows).take n).getLast? = some x := by
    rw [ahead, visible_take] at hx
    split at hx
    · exact hx
    · cases hx
  cases cursor with
  | none =>
    -- the page is a beginning of the rows
    have hstart := h
    change (rows.take n).getLast? = some x at hlast
    rw [← List.take_append_drop n rows] at hstart
    have hbefore : ∀ y ∈ rows.drop n, key x < key y := fun y hy =>
      (List.pairwise_append.mp hstart).2.2 x (List.mem_of_getLast? hlast) y hy
    have hcut := hstart.rest_next_append hbefore
    rw [next, hlast, List.take_append_drop] at hcut
    exact hcut
  | some c =>
    have hcut := rest_next h n c
    rw [next, page_eq_take] at hcut
    change ((rest key c rows).take n).getLast? = some x at hlast
    rw [hlast] at hcut
    exact hcut

/-- An order by keys is transitive. -/
theorem trans_of_eq_decide {le : ρ → ρ → Bool} (hle : ∀ a b, le a b = decide (key a ≤ key b))
    (a b c : ρ) (hab : le a b = true) (hbc : le b c = true) : le a c = true := by
  rw [hle, decide_eq_true_eq] at *
  exact hab.trans hbc

/-- An order by keys is total. -/
theorem total_of_eq_decide {le : ρ → ρ → Bool} (hle : ∀ a b, le a b = decide (key a ≤ key b))
    (a b : ρ) : le a b || le b a := by
  rw [hle, hle, Bool.or_eq_true, decide_eq_true_eq, decide_eq_true_eq]
  exact le_total _ _

/-- **A query is a page.** The rows after a cursor, in order, are what is left of the listing. -/
theorem mergeSort_filter_eq_left {rows : List ρ} {le : ρ → ρ → Bool} {after : ρ → Bool}
    {cursor : Option κ} (hnodup : (rows.map key).Nodup) (hle : ∀ a b, le a b = decide (key a ≤ key b))
    (hafter : ∀ r, after r = cursor.all fun c => decide (c < key r)) :
    (rows.filter after).mergeSort le = left key cursor (rows.mergeSort le) := by
  have htrans := trans_of_eq_decide hle
  have htotal := total_of_eq_decide hle
  have hleft : left key cursor (rows.mergeSort le) = (rows.mergeSort le).filter after := by
    cases cursor with
    | none =>
      refine (List.filter_eq_self.mpr fun r _ => ?_).symm
      rw [hafter]
      rfl
    | some c => exact List.filter_congr fun r _ => (hafter r).symm
  rw [hleft]
  refine List.Perm.eq_of_pairwise ?_ (List.pairwise_mergeSort htrans htotal _)
    ((List.pairwise_mergeSort htrans htotal _).filter _)
    ((List.mergeSort_perm _ _).trans ((List.mergeSort_perm _ _).filter _).symm)
  -- rows with one key are one row
  intro a b ha hb hab hba
  rw [hle, decide_eq_true_eq] at hab hba
  exact List.inj_on_of_nodup_map hnodup (List.mem_of_mem_filter (List.mem_mergeSort.mp ha))
    (List.mem_mergeSort.mp (List.mem_of_mem_filter hb)) (le_antisymm hab hba)

/-- The listing of a query is listed. -/
theorem listed_mergeSort {rows : List ρ} {le : ρ → ρ → Bool} (hnodup : (rows.map key).Nodup)
    (hle : ∀ a b, le a b = decide (key a ≤ key b)) : Listed key (rows.mergeSort le) := by
  have hsorted : (rows.mergeSort le).Pairwise fun a b => key a ≤ key b := by
    refine (List.pairwise_mergeSort (trans_of_eq_decide hle) (total_of_eq_decide hle) rows).imp
      fun {a b} h => ?_
    rwa [hle, decide_eq_true_eq] at h
  have hdistinct : (rows.mergeSort le).Pairwise fun a b => key a ≠ key b :=
    List.pairwise_map.mp (((List.mergeSort_perm rows le).map key).nodup_iff.mpr hnodup)
  exact hsorted.imp₂ (fun a b h hne => lt_of_le_of_ne h hne) hdistinct

/-! ### Following the cursors

Whoever reads the pages one after the other gives each time the cursor of the page before, and
stops at a page without one. -/

section Follow

variable {α γ ε : Type}

/-- Read pages of the given sizes, until one has no cursor: what they show, and the last cursor. -/
def follow (read : Option γ → ℕ → Except ε (List α × Option γ)) :
    List ℕ → Option γ → Except ε (List α × Option γ)
  | [], cursor => .ok ([], cursor)
  | n :: ns, cursor => do
    let (shown, cursor) ← read cursor n
    match cursor with
    | none => return (shown, none)
    | some c =>
      let (more, last) ← follow read ns (some c)
      return (shown ++ more, last)

/-- **Every row once, in order.** If each page shows the beginning of what is left at its
cursor, and has a cursor for what is left then if this is something, the pages show what was
left at the first cursor, as far as their sizes reach. -/
theorem follow_eq_ok {read : Option γ → ℕ → Except ε (List α × Option γ)}
    (Left : Option γ → List α → Prop) {most : ℕ}
    (hread : ∀ cursor xs n, Left cursor xs → 1 ≤ n → n ≤ most → ∃ next,
      read cursor n = .ok (xs.take n, next) ∧ (next = none ↔ xs.length ≤ n) ∧
        (next ≠ none → Left next (xs.drop n)))
    (ns : List ℕ) (cursor : Option γ) (xs : List α) (hns : ∀ n ∈ ns, 1 ≤ n ∧ n ≤ most)
    (hleft : Left cursor xs) (hsome : ns = [] → cursor ≠ none ∧ xs ≠ []) :
    ∃ last, follow read ns cursor = .ok (xs.take ns.sum, last) ∧
      (last = none ↔ xs.length ≤ ns.sum) := by
  induction ns generalizing cursor xs with
  | nil =>
    obtain ⟨hcursor, hxs⟩ := hsome rfl
    refine ⟨cursor, rfl, iff_of_false hcursor fun hlen => hxs ?_⟩
    exact List.length_eq_zero_iff.mp (Nat.le_zero.mp hlen)
  | cons n ns ih =>
    obtain ⟨hone, hmost⟩ := hns n List.mem_cons_self
    obtain ⟨next, hpage, hnone, hnext⟩ := hread cursor xs n hleft hone hmost
    rw [follow, hpage, List.sum_cons]
    cases next with
    | none =>
      have hlen : xs.length ≤ n := hnone.mp rfl
      refine ⟨none, ?_, iff_of_true rfl (hlen.trans (Nat.le_add_right n _))⟩
      rw [List.take_of_length_le (hlen.trans (Nat.le_add_right n _)), List.take_of_length_le hlen]
      rfl
    | some c =>
      have hlen : n < xs.length := not_le.mp fun hle => nomatch hnone.mpr hle
      obtain ⟨last, hmore, hlast⟩ := ih (some c) (xs.drop n)
        (fun m hm => hns m (List.mem_cons_of_mem n hm)) (hnext fun hc => nomatch hc)
        fun _ => ⟨Option.some_ne_none c, fun hc => by
          rw [List.drop_eq_nil_iff] at hc
          omega⟩
      refine ⟨last, ?_, hlast.trans ?_⟩
      · rw [List.take_add]
        change (follow read ns (some c) >>= fun p => pure (xs.take n ++ p.1, p.2)) = _
        rw [hmore]
        rfl
      · rw [List.length_drop]
        omega

/-- **Whoever follows the cursors reads a listing**, if each page is a page of it and its cursor
is that of the row it ends with. -/
theorem follow_listing {rows : List ρ} (h : Listed key rows) (shown : ρ → α) (sign : ρ → γ)
    {read : Option γ → ℕ → Except ε (List α × Option γ)} {most : ℕ}
    (hread : ∀ (c : Option ρ) n, 1 ≤ n → n ≤ most → read (c.map sign) n
      = .ok (((left key (c.map key) rows).take n).map shown,
        (ahead n ((left key (c.map key) rows).take (n + 1))).map sign))
    {ns : List ℕ} (hne : ns ≠ []) (hns : ∀ n ∈ ns, 1 ≤ n ∧ n ≤ most) :
    ∃ last, follow read ns none = .ok ((rows.map shown).take ns.sum, last) ∧
      (last = none ↔ (rows.map shown).length ≤ ns.sum) := by
  refine follow_eq_ok (fun cursor xs => ∃ c : Option ρ, cursor = c.map sign ∧
    xs = (left key (c.map key) rows).map shown) ?_ ns none _ hns ⟨none, rfl, rfl⟩
    fun hc => absurd hc hne
  rintro - - n ⟨c, rfl, rfl⟩ hone hmost
  refine ⟨_, (hread c n hone hmost).trans (by rw [List.map_take]), ?_, fun hsome => ?_⟩
  · rw [Option.map_eq_none_iff, ahead_eq_none_iff hone, List.length_map]
  · obtain ⟨x, hx⟩ := Option.ne_none_iff_exists'.mp fun hc =>
      hsome (Option.map_eq_none_iff.mpr hc)
    refine ⟨some x, by rw [hx], ?_⟩
    rw [← List.map_drop, Option.map_some, left_ahead h hx]

end Follow

end Paging
