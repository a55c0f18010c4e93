import Mathlib.Algebra.BigOperators.Group.List.Lemmas
import Mathlib.Algebra.BigOperators.Ring.Finset
import TickerGarden.Backend.Decoded
import TickerGarden.Lib.Rollup
import TickerGarden.Lib.Transition

/-!
# The counts of holders

The database keeps count of the holders of all markets, with triggers: how many balances a
market has, in how many markets an account has something – of all markets, and of those of
an asset – and how many snapshots exclude an account. A market is bound to its asset by the
first record that is published of it, before, between or after its balances, and a later
record may bind it to another one.

All rows belong to a deployment, which every query and every trigger compares; the tables
here are those of one. A statement writes any number of rows. What is written on a conflict
is an insertion and an update, one after the other, since the triggers look at no other
balances and snapshots than those that are written.

The counters are exact in every reachable state, and no statement fails in one,
`TickerGarden.Backend.HolderCounts.holder_counts`.
-/

namespace TickerGarden

open Checked

namespace Backend

namespace HolderCounts

open Rollup

/-! ### The tables -/

/-- The asset of a counter: none stands for the empty text, for the markets of all assets. -/
abbrev AssetKey := Option Bytes32

/-- A market and an account. -/
abbrev BalanceKey := Bytes32 × Address

/-- The balances and snapshots, and the counters that the triggers keep of them. -/
structure Tables where
  /-- `holder_balances`, with `balance_raw`. -/
  balances : Table BalanceKey ℕ
  /-- `holder_snapshots`, with `excluded_accounts`. -/
  snapshots : Table Bytes32 (List Address)
  /-- `holder_market_assets`. -/
  marketAssets : Table Bytes32 Bytes32
  /-- `holder_market_counts`. -/
  marketCounts : Table Bytes32 ℤ
  /-- `holder_account_refs`. -/
  accountRefs : Table (AssetKey × Address) ℤ
  /-- `holder_exclusion_refs`. -/
  exclusionRefs : Table Address ℤ

/-- A row of `projection_records` or `market_record_versions`, of a market: its identity and
`payload->>'assetUid'`. -/
structure MarketRecord where
  identity : Bytes32
  assetUid : Option Bytes32

/-! ### The triggers -/

/-- One side of a statement in the changeset, with its sign. -/
def signed (n : ℤ) (rows : List (BalanceKey × ℕ)) : List ((BalanceKey × ℕ) × ℤ) :=
  rows.map fun r => (r, n)

/-- The references a change of a positive balance counts in. -/
def refsOf (marketAssets : Table Bytes32 Bytes32) (c : (BalanceKey × ℕ) × ℤ) :
    List ((AssetKey × Address) × ℤ) :=
  ((none, c.1.1.2), c.2) :: ((marketAssets.lookup c.1.1.1).map fun a => ((some a, c.1.1.2), c.2)).toList

/-- `HAVING sum(n)<>0`. -/
def nonzero {γ : Type} (ds : List (γ × ℤ)) : List (γ × ℤ) := ds.filter fun d => decide (d.2 ≠ 0)

/-- Deltas are added to counters, none of which may become negative, and those that are zero
are deleted. -/
def writeCounts {γ : Type} [DecidableEq γ] (negative : String) (counts : Table γ ℤ)
    (deltas : List (γ × ℤ)) : Except JsError (Table γ ℤ) := do
  let written := addAll counts deltas
  throwIf (∃ d ∈ deltas, amount written d.1 < 0) negative
  return dropZero written

/-- `track_holder_balance_batch`, of the rows a statement takes out and puts in. -/
def trackHolderBalanceBatch (t : Tables) (old new : List (BalanceKey × ℕ)) : Except JsError Tables :=
  let changes := signed (-1) old ++ signed 1 new
  if changes = [] then .ok t
  else do
    let marketCounts ← writeCounts "negative holder market row count" t.marketCounts
      (nonzero (grouped (changes.map fun c => (c.1.1.1, c.2))))
    let changeset := changes.filter fun c => decide (0 < c.1.2)
    let accountRefs ← writeCounts "negative holder reference count" t.accountRefs
      (nonzero (grouped (changeset.flatMap (refsOf t.marketAssets))))
    return { t with marketCounts, accountRefs }

/-- `adjust_holder_ref`. -/
def adjustHolderRef (refs : Table (AssetKey × Address) ℤ) (key : AssetKey × Address) (n : ℤ) :
    Except JsError (Table (AssetKey × Address) ℤ) := do
  let written := add refs (key, n)
  let kept := if amount written key = 0 then written.erase key else written
  throwIf (amount kept key < 0) "negative holder reference count"
  return kept

/-- One account of a market that is bound to another asset. -/
def rebindAccount (old : Option Bytes32) (next : Bytes32) (refs : Table (AssetKey × Address) ℤ)
    (account : Address) : Except JsError (Table (AssetKey × Address) ℤ) := do
  let refs ← match old with
    | none => .ok refs
    | some a => adjustHolderRef refs (some a, account) (-1)
  adjustHolderRef refs (some next, account) 1

/-- The accounts that have something in a market. -/
def positiveAccounts (t : Tables) (market : Bytes32) : List Address :=
  (t.balances.entries.filter fun e => decide (e.1.1 = market ∧ 0 < e.2)).map fun e => e.1.2

/-- `track_holder_asset`, of one record. -/
def trackHolderAsset (t : Tables) (r : MarketRecord) : Except JsError Tables :=
  match r.assetUid with
  | none => .ok t
  | some next =>
    let old := t.marketAssets.lookup r.identity
    if old = some next then .ok t
    else do
      let accountRefs ← (positiveAccounts t r.identity).foldlM (rebindAccount old next) t.accountRefs
      return { t with marketAssets := t.marketAssets.insert r.identity next, accountRefs }

/-- What the rows of a statement count in the exclusions: each account once. -/
def excludedBy (n : ℤ) (rows : List (Bytes32 × List Address)) : List (Address × ℤ) :=
  rows.flatMap fun r => r.2.dedup.map fun a => (a, n)

/-- `track_holder_exclusions`: a row that an update leaves as it is does not count. -/
def trackHolderExclusions (op : Operation) (refs : Table Address ℤ)
    (old new : List (Bytes32 × List Address)) : Table Address ℤ :=
  let changes := match op with
    | .insert => excludedBy 1 new
    | .delete => excludedBy (-1) old
    | .update => excludedBy 1 (new.filter fun r => decide (r ∉ old)) ++
        excludedBy (-1) (old.filter fun r => decide (r ∉ new))
  dropZero (addAll refs (nonzero (grouped changes)))

/-! ### Statements -/

/-- A statement. -/
inductive Statement (t : Tables)
  | balances (w : Write t.balances)
  | snapshots (w : Write t.snapshots)
  | records (rows : List MarketRecord)

/-- What a statement does, with its triggers. -/
def execute (t : Tables) : Statement t → Except JsError Tables
  | .balances w => trackHolderBalanceBatch { t with balances := w.apply } w.old w.new
  | .snapshots w => .ok { t with
      snapshots := w.apply
      exclusionRefs := trackHolderExclusions w.op t.exclusionRefs w.old w.new }
  | .records rows => rows.foldlM trackHolderAsset t

/-- The counters of tables that were there before, as the migration fills them. -/
def backfill (balances : Table BalanceKey ℕ) (snapshots : Table Bytes32 (List Address))
    (marketAssets : Table Bytes32 Bytes32) : Tables :=
  let rows := balances.entries.map fun e => (e.1, e.2)
  let positive := (rows.filter fun r => decide (0 < r.2)).map fun r => (r, (1 : ℤ))
  { balances, snapshots, marketAssets
    marketCounts := addAll ∅ (grouped (rows.map fun r => (r.1.1, 1)))
    accountRefs := addAll ∅ (grouped (positive.flatMap (refsOf marketAssets)))
    exclusionRefs := addAll ∅ (grouped (excludedBy 1 (snapshots.entries.map fun e => (e.1, e.2)))) }

/-- Tables whose counters were filled by the migration. -/
def Init (t : Tables) : Prop := ∃ balances snapshots marketAssets,
  t = backfill balances snapshots marketAssets

/-- **One step**: a statement that goes through. -/
inductive Step : Tables → Unit → Tables → Prop
  | statement {t t' : Tables} (s : Statement t) (h : execute t s = .ok t') : Step t () t'

/-- The states a run of statements leads to. -/
def Reachable : Tables → Prop := Transition.Reachable Step Init

/-! ### Counters that are exact -/

/-- **Counters are exact**: each has the number it should have, and none is kept that is
zero. -/
structure Exact {γ : Type} [DecidableEq γ] (counts : Table γ ℤ) (f : γ → ℤ) : Prop where
  amount_eq : ∀ g, amount counts g = f g
  ne_zero : ∀ g ∈ counts, amount counts g ≠ 0

/-- A balance, as a row of its market. -/
def marketWeight (market : Bytes32) (k : BalanceKey) (_ : ℕ) : ℤ := if k.1 = market then 1 else 0

/-- A balance, as a reference, if its market is bound to an asset. -/
def refWeight (bound : BalanceKey → Option Bytes32) (key : AssetKey × Address) (k : BalanceKey)
    (b : ℕ) : ℤ :=
  if 0 < b ∧ k.2 = key.2 ∧ (key.1 = none ∨ bound k = key.1) then 1 else 0

/-- A snapshot, as a reference of an account. -/
def exclusionWeight (account : Address) (_ : Bytes32) (excluded : List Address) : ℤ :=
  if account ∈ excluded then 1 else 0

/-- The asset of the market of a balance. -/
def Tables.bound (t : Tables) (k : BalanceKey) : Option Bytes32 := t.marketAssets.lookup k.1

/-- **The counters are sound**: they are sums over the rows. -/
structure Sound (t : Tables) : Prop where
  markets : Exact t.marketCounts fun market => total (marketWeight market) t.balances
  refs : Exact t.accountRefs fun key => total (refWeight t.bound key) t.balances
  exclusions : Exact t.exclusionRefs fun account => total (exclusionWeight account) t.snapshots

section Counters

variable {γ : Type} [DecidableEq γ] {counts : Table γ ℤ} {f f' : γ → ℤ} {ds : List (γ × ℤ)}
  {message : String}

theorem Exact.congr (h : Exact counts f) (heq : ∀ g, f' g = f g) : Exact counts f' where
  amount_eq g := (h.amount_eq g).trans (heq g).symm
  ne_zero := h.ne_zero

/-- Counters that are exact after zeros are dropped. -/
theorem exact_dropZero (h : ∀ g, amount counts g = f g) : Exact (dropZero counts) f where
  amount_eq g := amount_dropZero.trans (h g)
  ne_zero g hg := by
    rw [amount_dropZero]
    exact mem_dropZero.mp hg

theorem sumOf_nonzero_grouped {g : γ} : sumOf (nonzero (grouped ds)) g = sumOf ds g :=
  (sumOf_filter_ne_zero _).trans sumOf_grouped

variable (message) (ds) (f') in
/-- **Counters that are written are exact**, and nothing fails, if none should be negative. -/
theorem Exact.writeCounts (h : Exact counts f) (hf : ∀ g, f' g = f g + sumOf ds g)
    (hnonneg : ∀ g, 0 ≤ f' g) :
    ∃ written, HolderCounts.writeCounts message counts (nonzero (grouped ds)) = .ok written ∧
      Exact written f' := by
  have hamount : ∀ g, amount (addAll counts (nonzero (grouped ds))) g = f' g := fun g => by
    rw [amount_addAll, sumOf_nonzero_grouped, h.amount_eq, hf]
  refine ⟨dropZero (addAll counts (nonzero (grouped ds))), ?_, exact_dropZero hamount⟩
  rw [HolderCounts.writeCounts, throwIf, revertIf_neg, ok_bind]
  · rfl
  · rintro ⟨d, -, hneg⟩
    rw [hamount] at hneg
    exact absurd (hnonneg d.1) (not_le.mpr hneg)

/-- The counters of the migration. -/
theorem exact_backfill (hpos : ∀ d ∈ ds, 0 < d.2) (hf : ∀ g, f g = sumOf ds g) :
    Exact (addAll ∅ (grouped ds)) f where
  amount_eq g := by
    rw [amount_addAll, sumOf_grouped, hf]
    exact zero_add _
  ne_zero g hg := by
    -- a group that is there has an amount
    rw [amount_addAll, sumOf_grouped]
    have hmem : g ∈ ds.map Prod.fst := by
      rcases mem_addAll.mp hg with hempty | hmem
      · exact absurd hempty (AList.notMem_empty g)
      · rw [grouped, List.map_map] at hmem
        obtain ⟨x, hx, rfl⟩ := List.mem_map.mp hmem
        exact List.mem_dedup.mp hx
    obtain ⟨d, hd, rfl⟩ := List.mem_map.mp hmem
    have hle : d.2 ≤ sumOf ds d.1 := by
      have hone := List.single_le_sum (l := ds.map fun e => if e.1 = d.1 then e.2 else 0) (by
        intro x hx
        obtain ⟨e, he, rfl⟩ := List.mem_map.mp hx
        split
        · exact (hpos e he).le
        · exact le_rfl) _ (List.mem_map_of_mem hd)
      rwa [if_pos rfl] at hone
    have hzero : amount (∅ : Table γ ℤ) d.1 = 0 := rfl
    have := hpos d hd
    omega

end Counters

section Weights

variable {bound : BalanceKey → Option Bytes32} {key : AssetKey × Address} {market : Bytes32}
  {account : Address} {n : ℤ}

theorem marketWeight_nonneg (k : BalanceKey) (b : ℕ) : 0 ≤ marketWeight market k b := by
  rw [marketWeight]
  split <;> decide

theorem refWeight_nonneg (k : BalanceKey) (b : ℕ) : 0 ≤ refWeight bound key k b := by
  rw [refWeight]
  split <;> decide

variable (n market) in
/-- What some rows contribute to the rows of a market. -/
theorem sumOf_markets (rows : List (BalanceKey × ℕ)) :
    sumOf ((signed n rows).map fun c => (c.1.1.1, c.2)) market
      = n * sumRows (marketWeight market) rows := by
  induction rows with
  | nil => exact (mul_zero n).symm
  | cons r rows ih =>
    rw [signed, List.map_cons, List.map_cons, ← signed, sumOf, List.map_cons, List.sum_cons,
      ← sumOf, ih, sumRows_cons, mul_add, marketWeight]
    congr 1
    split
    · exact (mul_one n).symm
    · exact (mul_zero n).symm

/-- What one positive balance contributes to the references. -/
theorem sumOf_refsOf (assets : Table Bytes32 Bytes32) (r : BalanceKey × ℕ) (hpos : 0 < r.2) :
    sumOf (refsOf assets (r, n)) key = n * refWeight (fun k => assets.lookup k.1) key r.1 r.2 := by
  obtain ⟨asset, a⟩ := key
  rw [refsOf, sumOf, List.map_cons, List.sum_cons, refWeight]
  dsimp only
  by_cases ha : r.1.2 = a
  · cases asset with
    | none =>
      cases hlookup : assets.lookup r.1.1 with
      | none => simp [ha, hpos]
      | some u => simp [ha, hpos]
    | some v =>
      cases hlookup : assets.lookup r.1.1 with
      | none => simp
      | some u =>
        by_cases hu : u = v
        · simp [ha, hpos, hu]
        · simp [hu]
  · cases hlookup : assets.lookup r.1.1 with
    | none => simp [ha]
    | some u => simp [ha]

variable (n key) in
/-- What some rows contribute to the references. -/
theorem sumOf_refs (assets : Table Bytes32 Bytes32) (rows : List (BalanceKey × ℕ)) :
    sumOf (((signed n rows).filter fun c => decide (0 < c.1.2)).flatMap (refsOf assets)) key
      = n * sumRows (refWeight (fun k => assets.lookup k.1) key) rows := by
  induction rows with
  | nil => exact (mul_zero n).symm
  | cons r rows ih =>
    rw [signed, List.map_cons, ← signed, sumRows_cons, mul_add]
    by_cases hpos : 0 < r.2
    · rw [List.filter_cons_of_pos (by simpa using hpos), List.flatMap_cons, sumOf_append, ih,
        sumOf_refsOf assets r hpos]
    · have hzero : refWeight (fun k => assets.lookup k.1) key r.1 r.2 = 0 :=
        if_neg fun hc => hpos hc.1
      rw [List.filter_cons_of_neg (by simpa using hpos), ih, hzero, mul_zero, zero_add]

variable (n account) in
/-- What some rows contribute to the exclusions. -/
theorem sumOf_excludedBy (rows : List (Bytes32 × List Address)) :
    sumOf (excludedBy n rows) account = n * sumRows (exclusionWeight account) rows := by
  induction rows with
  | nil => exact (mul_zero n).symm
  | cons r rows ih =>
    rw [excludedBy, List.flatMap_cons, sumOf_append, ← excludedBy, ih, sumRows_cons, mul_add]
    congr 1
    rw [sumOf_map (List.nodup_dedup _) fun _ => n, exclusionWeight,
      if_congr (List.mem_dedup (a := account)) rfl rfl]
    split
    · exact (mul_one n).symm
    · exact (mul_zero n).symm

end Weights

/-! ### What a statement does -/

section Statements

variable {t t' : Tables}

theorem sound_backfill (balances : Table BalanceKey ℕ) (snapshots : Table Bytes32 (List Address))
    (marketAssets : Table Bytes32 Bytes32) : Sound (backfill balances snapshots marketAssets) := by
  have hrows : ∀ {β : Type} {κ : Type} (f : κ → β → ℤ) (m : Table κ β),
      total f m = sumRows f (m.entries.map fun e => (e.1, e.2)) := fun f m => by
    rw [total, sumRows, List.map_map]
    rfl
  refine ⟨exact_backfill ?_ fun market => ?_, exact_backfill ?_ fun key => ?_,
    exact_backfill ?_ fun account => ?_⟩
  · intro d hd
    obtain ⟨r, -, rfl⟩ := List.mem_map.mp hd
    exact Int.one_pos
  · have hsum := sumOf_markets market 1 (balances.entries.map fun e => (e.1, e.2))
    rw [one_mul, signed, List.map_map] at hsum
    exact (hrows _ balances).trans hsum.symm
  · intro d hd
    obtain ⟨c, hc, hd⟩ := List.mem_flatMap.mp hd
    obtain ⟨r, -, rfl⟩ := List.mem_map.mp hc
    rw [refsOf, List.mem_cons, Option.mem_toList, Option.map_eq_some_iff] at hd
    rcases hd with rfl | ⟨a, -, rfl⟩ <;> exact Int.one_pos
  · have hsum := sumOf_refs key 1 marketAssets
      (balances.entries.map fun e => (e.1, e.2))
    rw [one_mul, signed, List.filter_map] at hsum
    exact (hrows _ balances).trans hsum.symm
  · intro d hd
    obtain ⟨r, -, hd⟩ := List.mem_flatMap.mp hd
    obtain ⟨a, -, rfl⟩ := List.mem_map.mp hd
    exact Int.one_pos
  · have hsum := sumOf_excludedBy account 1
      (snapshots.entries.map fun e => (e.1, e.2))
    rw [one_mul] at hsum
    exact (hrows _ snapshots).trans hsum.symm

/-- What a statement adds to a sum. -/
theorem total_of_change {κ β : Type} [DecidableEq κ] {m : Table κ β} (c : Change m) (f : κ → β → ℤ) :
    total f c.apply = total f m + (-1 * sumRows f c.old + 1 * sumRows f c.new) := by
  have := c.total_apply f
  omega

theorem total_nonneg {κ β : Type} {f : κ → β → ℤ} (h : ∀ k b, 0 ≤ f k b) (m : Table κ β) :
    0 ≤ total f m := by
  refine List.sum_nonneg fun x hx => ?_
  obtain ⟨e, -, rfl⟩ := List.mem_map.mp hx
  exact h e.1 e.2

/-- **Balances are written.** -/
theorem Sound.balances (h : Sound t) (w : Write t.balances) :
    ∃ t', execute t (.balances w) = .ok t' ∧ Sound t' := by
  rw [execute, trackHolderBalanceBatch]
  dsimp only
  have hsplit : ∀ n rows, signed n rows = [] → rows = [] := fun n rows hrows =>
    List.map_eq_nil_iff.mp hrows
  split
  · -- nothing was written
    rename_i hnone
    obtain ⟨hold, hnew⟩ := List.append_eq_nil_iff.mp hnone
    have hkeep : ∀ f : BalanceKey → ℕ → ℤ, total f w.apply = total f t.balances := fun f => by
      rw [total_of_change, hsplit _ _ hold, hsplit _ _ hnew, sumRows_nil, mul_zero, mul_zero,
        add_zero, add_zero]
    exact ⟨_, rfl, h.markets.congr fun _ => hkeep _, h.refs.congr fun _ => hkeep _, h.exclusions⟩
  · obtain ⟨marketCounts, hmarkets, hexact⟩ := h.markets.writeCounts
      (fun market => total (marketWeight market) w.apply)
      ((signed (-1) w.old ++ signed 1 w.new).map fun c => (c.1.1.1, c.2))
      "negative holder market row count" (fun market => by
        rw [List.map_append, sumOf_append, sumOf_markets, sumOf_markets]
        exact total_of_change w.toChange _) fun market => total_nonneg marketWeight_nonneg _
    obtain ⟨accountRefs, hrefs, hexact'⟩ := h.refs.writeCounts
      (fun key => total (refWeight t.bound key) w.apply)
      (((signed (-1) w.old ++ signed 1 w.new).filter
        fun c : (BalanceKey × ℕ) × ℤ => decide (0 < c.1.2)).flatMap (refsOf t.marketAssets))
      "negative holder reference count" (fun key => by
        rw [List.filter_append, List.flatMap_append, sumOf_append, sumOf_refs, sumOf_refs]
        exact total_of_change w.toChange _) fun key => total_nonneg refWeight_nonneg _
    rw [hmarkets, ok_bind, hrefs, ok_bind]
    exact ⟨_, rfl, hexact, hexact', h.exclusions⟩

/-- **Snapshots are written.** -/
theorem Sound.snapshots (h : Sound t) (w : Write t.snapshots) :
    ∃ t', execute t (.snapshots w) = .ok t' ∧ Sound t' := by
  refine ⟨_, rfl, h.markets, h.refs, exact_dropZero fun account => ?_⟩
  rw [amount_addAll, sumOf_nonzero_grouped, h.exclusions.amount_eq]
  refine Eq.trans ?_ (total_of_change w.toChange (exclusionWeight account)).symm
  congr 1
  cases hop : w.op with
  | insert =>
    rw [w.inserts hop, sumRows_nil, mul_zero, zero_add]
    exact sumOf_excludedBy account 1 w.new
  | delete =>
    rw [w.deletes hop, sumRows_nil, mul_zero, add_zero]
    exact sumOf_excludedBy account (-1) w.old
  | update =>
    -- what is in both lists counts on neither side
    dsimp only
    rw [sumOf_append, sumOf_excludedBy, sumOf_excludedBy]
    have hpart : ∀ (xs ys : List (Bytes32 × List Address)), sumRows (exclusionWeight account) xs
        = sumRows (exclusionWeight account) (xs.filter fun r => decide (r ∉ ys))
          + sumRows (exclusionWeight account) (xs.filter fun r => decide (r ∈ ys)) := by
      intro xs ys
      induction xs with
      | nil => rfl
      | cons r xs ih =>
        by_cases hr : r ∈ ys
        · rw [List.filter_cons_of_neg (by simpa using hr), List.filter_cons_of_pos (by simpa using hr),
            sumRows_cons, sumRows_cons, ih]
          omega
        · rw [List.filter_cons_of_pos (by simpa using hr), List.filter_cons_of_neg (by simpa using hr),
            sumRows_cons, sumRows_cons, ih]
          omega
    have hnodup : ∀ xs : List (Bytes32 × List Address), (xs.map Prod.fst).Nodup → xs.Nodup :=
      fun xs => List.Nodup.of_map Prod.fst
    have hboth : (w.new.filter fun r => decide (r ∈ w.old)).Perm
        (w.old.filter fun r => decide (r ∈ w.new)) := by
      refine (List.perm_ext_iff_of_nodup ((hnodup _ w.new_nodup).filter _)
        ((hnodup _ w.old_nodup).filter _)).mpr fun r => ?_
      simp only [List.mem_filter, decide_eq_true_eq]
      exact and_comm
    have hsame : sumRows (exclusionWeight account) (w.new.filter fun r => decide (r ∈ w.old))
        = sumRows (exclusionWeight account) (w.old.filter fun r => decide (r ∈ w.new)) :=
      (hboth.map _).sum_eq
    have hnew := hpart w.new w.old
    have hold := hpart w.old w.new
    omega

end Statements

/-! ### A market is bound to an asset

The balances of a market are moved one by one, so that in between they are attributed to
different assets: `bound` says which. -/

section Binding

variable {t : Tables} {balances : Table BalanceKey ℕ} {bound : BalanceKey → Option Bytes32}
  {refs : Table (AssetKey × Address) ℤ} {market next : Bytes32} {account : Address} {b : ℕ}

/-- **One reference is adjusted.** -/
theorem exact_adjust {f : AssetKey × Address → ℤ} (f' : AssetKey × Address → ℤ)
    (key : AssetKey × Address) (n : ℤ) (h : Exact refs f) (hf : ∀ g, f' g = f g + if key = g then n else 0) (hnonneg : ∀ g, 0 ≤ f' g) :
    ∃ refs', adjustHolderRef refs key n = .ok refs' ∧ Exact refs' f' := by
  have hamount : ∀ g, amount (add refs (key, n)) g = f' g := fun g => by
    rw [amount_add, h.amount_eq, hf]
  have hkept : ∀ g, amount (if amount (add refs (key, n)) key = 0
      then (add refs (key, n)).erase key else add refs (key, n)) g = f' g := fun g => by
    split
    · rename_i hzero
      rw [← hamount]
      rcases eq_or_ne g key with rfl | hne
      · rw [amount_of_notMem fun hc => (AList.mem_erase.mp hc).1 rfl, hzero]
      · rw [amount, AList.lookup_erase_ne hne]
        rfl
    · exact hamount g
  refine ⟨_, ?_, hkept, fun g hg => ?_⟩
  · rw [adjustHolderRef, throwIf, revertIf_neg, ok_bind]
    · rfl
    · rw [hkept]
      exact not_lt.mpr (hnonneg key)
  · rw [hkept]
    split at hg
    · obtain ⟨hne, hg⟩ := AList.mem_erase.mp hg
      rcases (AList.mem_insert refs).mp hg with heq | hmem
      · exact absurd heq hne
      · rw [hf, if_neg (Ne.symm hne), add_zero, ← h.amount_eq]
        exact h.ne_zero g hmem
    · rename_i hzero
      rw [← hamount]
      rcases eq_or_ne g key with rfl | hne
      · exact hzero
      · rcases (AList.mem_insert refs).mp hg with heq | hmem
        · exact absurd heq hne
        · rw [amount_add, if_neg (Ne.symm hne), add_zero]
          exact h.ne_zero g hmem

theorem same_key {key : AssetKey × Address} {a : Bytes32} :
    (account = key.2 ∧ key.1 ≠ none ∧ some a = key.1) ↔ (some a, account) = key := by
  obtain ⟨asset, b⟩ := key
  constructor
  · rintro ⟨rfl, -, rfl⟩
    rfl
  · rintro ⟨⟩
    exact ⟨rfl, Option.some_ne_none a, rfl⟩

variable (bound) in
/-- A balance is attributed to another asset. -/
theorem total_update (hlookup : balances.lookup (market, account) = some b) (hpos : 0 < b)
    (asset : Option Bytes32) (key : AssetKey × Address) :
    total (refWeight (Function.update bound (market, account) asset) key) balances
      + (if account = key.2 ∧ key.1 ≠ none ∧ bound (market, account) = key.1 then 1 else 0)
      = total (refWeight bound key) balances
        + if account = key.2 ∧ key.1 ≠ none ∧ asset = key.1 then 1 else 0 := by
  have hoff := total_of_eq_off (f := refWeight (Function.update bound (market, account) asset) key)
    (g := refWeight bound key) hlookup fun j c hj => by
      rw [refWeight, refWeight, Function.update_of_ne hj]
  have hself : ∀ x : Option Bytes32, (if 0 < b ∧ account = key.2 ∧ (key.1 = none ∨ x = key.1)
      then (1 : ℤ) else 0) = (if account = key.2 ∧ key.1 = none then 1 else 0)
        + if account = key.2 ∧ key.1 ≠ none ∧ x = key.1 then 1 else 0 := fun x => by
    by_cases ha : account = key.2
    · by_cases hn : key.1 = none
      · simp [hpos, ha, hn]
      · simp [hpos, ha, hn]
    · simp [ha]
  rw [refWeight, refWeight, Function.update_self, hself, hself] at hoff
  omega

variable (next) in
/-- **One account is rebound**, and nothing fails. -/
theorem exact_rebindAccount (h : Exact refs fun key => total (refWeight bound key) balances)
    (hlookup : balances.lookup (market, account) = some b) (hpos : 0 < b) :
    ∃ refs', rebindAccount (bound (market, account)) next refs account = .ok refs' ∧
      Exact refs' fun key => total
        (refWeight (Function.update bound (market, account) (some next)) key) balances := by
  have hnonneg : ∀ bound key, 0 ≤ total (refWeight bound key) balances := fun bound key =>
    total_nonneg refWeight_nonneg _
  have hstep : ∀ {bound refs}, Exact refs (fun key => total (refWeight bound key) balances) →
      bound (market, account) = none →
      ∃ refs', adjustHolderRef refs (some next, account) 1 = .ok refs' ∧ Exact refs' fun key =>
        total (refWeight (Function.update bound (market, account) (some next)) key) balances := by
    intro bound refs h hnone
    refine exact_adjust _ _ _ h (fun key => ?_) fun key => hnonneg _ key
    have htotal := total_update bound hlookup hpos (some next) key
    rw [hnone, if_neg fun hc : account = key.2 ∧ key.1 ≠ none ∧ none = key.1 => hc.2.1 hc.2.2.symm,
      add_zero] at htotal
    rw [htotal]
    exact congrArg _ (if_congr same_key rfl rfl)
  simp only [rebindAccount]
  cases hbound : bound (market, account) with
  | none =>
    rw [ok_bind]
    exact hstep h hbound
  | some a =>
    -- first the reference of the old asset goes
    obtain ⟨refs₁, hold, h₁⟩ := exact_adjust
      (fun key => total (refWeight (Function.update bound (market, account) none) key) balances)
      (some a, account) (-1) h (fun key => by
        have htotal := total_update bound hlookup hpos none key
        rw [hbound, if_neg fun hc : account = key.2 ∧ key.1 ≠ none ∧ none = key.1 =>
          hc.2.1 hc.2.2.symm, add_zero] at htotal
        rw [← htotal, add_assoc, left_eq_add]
        rw [if_congr same_key rfl rfl]
        split <;> rfl) fun key => hnonneg _ key
    obtain ⟨refs₂, hnew, h₂⟩ := hstep h₁ (Function.update_self ..)
    dsimp only
    rw [hold, ok_bind]
    refine ⟨refs₂, hnew, ?_⟩
    rw [Function.update_idem] at h₂
    exact h₂

/-- The attribution after some accounts of a market were rebound. -/
def rebound (market next : Bytes32) (accounts : List Address) (bound : BalanceKey → Option Bytes32)
    (k : BalanceKey) : Option Bytes32 :=
  if k.1 = market ∧ k.2 ∈ accounts then some next else bound k

variable (next) in
/-- **Accounts are rebound one after the other.** -/
theorem exact_foldlM_rebindAccount {accounts : List Address} (hnd : accounts.Nodup)
    (old : Option Bytes32) (hold : ∀ a ∈ accounts, bound (market, a) = old)
    (hpos : ∀ a ∈ accounts, ∃ b, balances.lookup (market, a) = some b ∧ 0 < b)
    (h : Exact refs fun key => total (refWeight bound key) balances) :
    ∃ refs', accounts.foldlM (rebindAccount old next) refs = .ok refs' ∧
      Exact refs' fun key => total (refWeight (rebound market next accounts bound) key) balances := by
  induction accounts generalizing bound refs with
  | nil =>
    refine ⟨refs, rfl, h.congr fun key => congrArg (fun w => total w balances) ?_⟩
    have hsame : rebound market next [] bound = bound :=
      funext fun k => if_neg fun hc => List.not_mem_nil hc.2
    rw [hsame]
  | cons a accounts ih =>
    obtain ⟨ha, hnd⟩ := List.nodup_cons.mp hnd
    obtain ⟨b, hlookup, hb⟩ := hpos a List.mem_cons_self
    obtain ⟨refs₁, hfirst, h₁⟩ := exact_rebindAccount next h hlookup hb
    rw [hold a List.mem_cons_self] at hfirst
    obtain ⟨refs₂, hrest, h₂⟩ := ih hnd (fun a' ha' => by
      have hne : (market, a') ≠ (market, a) := fun hc => by
        have ha'' : a' = a := (Prod.ext_iff.mp hc).2
        exact ha (ha'' ▸ ha')
      rw [Function.update_of_ne hne]
      exact hold a' (List.mem_cons_of_mem a ha')) (fun a' ha' => hpos a' (List.mem_cons_of_mem a ha')) h₁
    refine ⟨refs₂, ?_, ?_⟩
    · rw [List.foldlM_cons, hfirst, ok_bind]
      exact hrest
    · have hsame : rebound market next (a :: accounts) bound
          = rebound market next accounts (Function.update bound (market, a) (some next)) := by
        funext k
        rw [rebound, rebound]
        rcases eq_or_ne k (market, a) with rfl | hne
        · rw [if_pos ⟨rfl, List.mem_cons_self⟩, Function.update_self, ite_self]
        · rw [Function.update_of_ne hne]
          refine if_congr (and_congr_right fun hk => ?_) rfl rfl
          rw [List.mem_cons, or_iff_right fun hc => hne (Prod.ext hk hc)]
      rw [hsame]
      exact h₂

theorem mem_positiveAccounts : account ∈ positiveAccounts t market ↔
    ∃ b, t.balances.lookup (market, account) = some b ∧ 0 < b := by
  rw [positiveAccounts, List.mem_map]
  constructor
  · rintro ⟨e, he, rfl⟩
    obtain ⟨hmem, hcond⟩ := List.mem_filter.mp he
    obtain ⟨rfl, hb⟩ := of_decide_eq_true hcond
    exact ⟨e.2, AList.mem_lookup_iff.mpr hmem, hb⟩
  · rintro ⟨b, hlookup, hb⟩
    refine ⟨⟨(market, account), b⟩, List.mem_filter.mpr ⟨AList.mem_lookup_iff.mp hlookup, ?_⟩, rfl⟩
    exact decide_eq_true ⟨rfl, hb⟩

/-- The rows of a table that share one part of their keys differ in the other. -/
theorem nodup_map_filter_snd {α β : Type} (m : Table (α × Address) β) {a : α}
    {p : (Σ _ : α × Address, β) → Bool} (hp : ∀ e, p e = true → e.1.1 = a) :
    ((m.entries.filter p).map fun e => e.1.2).Nodup := by
  have hkeys : (m.entries.map Sigma.fst).Nodup := m.nodupKeys
  refine List.Nodup.map_on ?_ (List.Nodup.filter _ (List.Nodup.of_map _ hkeys))
  intro e he e' he' heq
  obtain ⟨hmem, hcond⟩ := List.mem_filter.mp he
  obtain ⟨hmem', hcond'⟩ := List.mem_filter.mp he'
  have hkey : e.1 = e'.1 := Prod.ext ((hp e hcond).trans (hp e' hcond').symm) heq
  exact List.inj_on_of_nodup_map hkeys hmem hmem' hkey

variable (t market) in
theorem nodup_positiveAccounts : (positiveAccounts t market).Nodup :=
  nodup_map_filter_snd t.balances fun _ h => (of_decide_eq_true h).1

/-- **A record binds its market.** -/
theorem Sound.trackHolderAsset (h : Sound t) (r : MarketRecord) :
    ∃ t', HolderCounts.trackHolderAsset t r = .ok t' ∧ Sound t' := by
  rw [HolderCounts.trackHolderAsset]
  cases hasset : r.assetUid with
  | none => exact ⟨t, rfl, h⟩
  | some next =>
    dsimp only
    split
    · exact ⟨t, rfl, h⟩
    · obtain ⟨refs, hrefs, hexact⟩ := exact_foldlM_rebindAccount next
        (nodup_positiveAccounts t r.identity) (t.marketAssets.lookup r.identity)
        (fun _ _ => rfl) (fun a ha => mem_positiveAccounts.mp ha) h.refs
      rw [hrefs, ok_bind]
      refine ⟨_, rfl, h.markets, hexact.congr fun key => total_congr fun k b hk => ?_, h.exclusions⟩
      -- the attribution is that of the new binding, where it matters
      rw [refWeight, refWeight]
      refine if_congr (and_congr_right fun hb => ?_) rfl rfl
      have hbound : Tables.bound { t with
          marketAssets := t.marketAssets.insert r.identity next, accountRefs := refs } k
          = rebound r.identity next (positiveAccounts t r.identity) t.bound k := by
        show (t.marketAssets.insert r.identity next).lookup k.1 = _
        rw [rebound]
        by_cases hmarket : k.1 = r.identity
        · have haccount : k.2 ∈ positiveAccounts t r.identity :=
            mem_positiveAccounts.mpr ⟨b, hmarket ▸ hk, hb⟩
          rw [hmarket, AList.lookup_insert, if_pos ⟨rfl, haccount⟩]
        · rw [AList.lookup_insert_ne hmarket, if_neg fun hc => hmarket hc.1, Tables.bound]
      rw [hbound]

/-- **Records bind their markets.** -/
theorem Sound.records (h : Sound t) (rows : List MarketRecord) :
    ∃ t', execute t (.records rows) = .ok t' ∧ Sound t' := by
  rw [execute]
  induction rows generalizing t with
  | nil => exact ⟨t, rfl, h⟩
  | cons r rows ih =>
    obtain ⟨t₁, hfirst, h₁⟩ := h.trackHolderAsset r
    rw [List.foldlM_cons, hfirst, ok_bind]
    exact ih h₁

end Binding

/-- **A statement never fails**, and keeps the counters sound. -/
theorem Sound.execute {t : Tables} (h : Sound t) (s : Statement t) :
    ∃ t', HolderCounts.execute t s = .ok t' ∧ Sound t' := by
  cases s with
  | balances w => exact h.balances w
  | snapshots w => exact h.snapshots w
  | records rows => exact h.records rows

/-- **The counters of every reachable state are sound.** -/
theorem sound_of_reachable {t : Tables} (h : Reachable t) : Sound t := by
  refine Transition.Reachable.invariant ?_ ?_ h
  · rintro t ⟨balances, snapshots, marketAssets, rfl⟩
    exact sound_backfill balances snapshots marketAssets
  · rintro t - t' hsound ⟨s, hok⟩
    obtain ⟨t'', hok', hsound'⟩ := hsound.execute s
    rw [hok', Except.ok.injEq] at hok
    exact hok ▸ hsound'

/-! ### What the reader returns -/

/-- The counts of one group of markets. -/
structure HolderGroup where
  assetUid : AssetKey
  marketCount : ℕ
  positiveMarketAddressPairs : ℤ
  positiveAddressCount : ℕ
  includedAddressCount : ℕ
deriving DecidableEq

/-- What `readGlobalHolders` returns of the tables: the group of all markets, and that of
each asset. -/
structure GlobalHolders where
  total : HolderGroup
  excludedAccounts : List Address
  groups : List HolderGroup

/-- The markets that are published, with the asset of each: `projection_read_records`, at a
revision. -/
abbrev Published := Table Bytes32 (Option Bytes32)

/-- The markets that are published are those with a snapshot, the markets with balances are
among them, and they are bound to the assets that are published. -/
def Valid (t : Tables) (published : Published) (covered : List Bytes32) : Prop :=
  (∀ market ∈ published.keys, market ∈ covered) ∧ (∀ market ∈ covered, market ∈ published.keys) ∧
  (∀ market ∈ t.marketCounts.keys, market ∈ published.keys) ∧
  ∀ e ∈ published.entries, t.marketAssets.lookup e.1 = e.2

instance (t : Tables) (published : Published) (covered : List Bytes32) :
    Decidable (Valid t published covered) :=
  inferInstanceAs (Decidable (_ ∧ _ ∧ _ ∧ _))

/-- The references of an asset that are positive. -/
def positiveRefs (t : Tables) (asset : AssetKey) : List (Σ _ : AssetKey × Address, ℤ) :=
  t.accountRefs.entries.filter fun e => decide (e.1.1 = asset ∧ 0 < e.2)

/-- An account with a positive reference in the exclusions. -/
def excludedRef (t : Tables) (account : Address) : Bool :=
  (t.exclusionRefs.lookup account).any fun refs => decide (0 < refs)

/-- A row of the query: a group that has no references has zeros. -/
def groupRow (t : Tables) (published : Published) (asset : AssetKey) : HolderGroup where
  assetUid := asset
  marketCount := published.entries.countP fun e => decide (asset = none ∨ e.2 = asset)
  positiveMarketAddressPairs := ((positiveRefs t asset).map fun e => e.2).sum
  positiveAddressCount := (positiveRefs t asset).length
  includedAddressCount := (positiveRefs t asset).countP fun e => !excludedRef t e.1.2

/-- `readGlobalHolders`. The group of all markets is the row without an asset. If a market is
published without one there is a second such row, whose counts of holders are the same. -/
def readGlobalHolders (t : Tables) (published : Published) (covered : List Bytes32) :
    Except JsError GlobalHolders := do
  throwIf (¬Valid t published covered) "global holder snapshot is incomplete"
  return {
    total := groupRow t published none
    excludedAccounts := ((t.exclusionRefs.entries.filter fun e => decide (0 < e.2)).map
      Sigma.fst).mergeSort fun a b => decide (a ≤ b)
    groups := ((published.entries.filterMap Sigma.snd).dedup.mergeSort
      fun a b => decide (a ≤ b)).map fun asset => groupRow t published (some asset) }

/-! ### The counts, taken directly -/

/-- A count as a counter: none is kept that is zero. -/
def kept (n : ℕ) : Option ℤ := if n = 0 then none else some n

/-- The markets in which an account has something. -/
def positiveMarkets (t : Tables) (account : Address) : List Bytes32 :=
  (t.balances.entries.filter fun e => decide (e.1.2 = account ∧ 0 < e.2)).map fun e => e.1.1

/-- Those that are bound to an asset. -/
def boundMarkets (t : Tables) (asset : Bytes32) (account : Address) : List Bytes32 :=
  (positiveMarkets t account).filter fun market => decide (t.marketAssets.lookup market = some asset)

/-- The accounts of the positive balances in the markets of an asset, or in all markets. -/
def holders (t : Tables) (published : Published) (asset : AssetKey) : List Address :=
  (t.balances.entries.filter fun e =>
    decide (0 < e.2 ∧ (asset = none ∨ (published.lookup e.1.1).join = asset))).map fun e => e.1.2

/-- An account that some snapshot excludes. -/
def excluded (t : Tables) (account : Address) : Bool :=
  t.snapshots.entries.any fun e => decide (account ∈ e.2)

/-- A group as it is counted from the balances and the snapshots. -/
def directGroup (t : Tables) (published : Published) (asset : AssetKey) : HolderGroup where
  assetUid := asset
  marketCount := published.entries.countP fun e => decide (asset = none ∨ e.2 = asset)
  positiveMarketAddressPairs := (holders t published asset).length
  positiveAddressCount := (holders t published asset).dedup.length
  includedAddressCount := (holders t published asset).dedup.countP fun a => !excluded t a

/-- **What the reader returns is what is counted directly**: the group of all markets, one group
for each asset that is published, in order, and the accounts that some snapshot excludes. -/
structure GlobalHolders.Direct (t : Tables) (published : Published) (r : GlobalHolders) : Prop where
  total : r.total = directGroup t published none
  groups : ∀ g ∈ r.groups, g = directGroup t published g.assetUid
  nodup : (r.groups.map HolderGroup.assetUid).Nodup
  assets : ∀ uid, uid ∈ r.groups.map HolderGroup.assetUid ↔
    uid ≠ none ∧ ∃ market, published.lookup market = some uid
  excluded : ∀ account, account ∈ r.excludedAccounts ↔ excluded t account = true

/-- **The counters are those that are taken directly**, no statement raises, and the reader
returns the direct counts, unless what is published does not belong to the tables. -/
structure Counts (t : Tables) : Prop where
  markets : ∀ market, t.marketCounts.lookup market
    = kept (t.balances.entries.countP fun e => decide (e.1.1 = market))
  refs : ∀ account, t.accountRefs.lookup (none, account) = kept (positiveMarkets t account).length
  assetRefs : ∀ asset account, t.accountRefs.lookup (some asset, account)
    = kept (boundMarkets t asset account).length
  exclusions : ∀ account, t.exclusionRefs.lookup account
    = kept (t.snapshots.entries.countP fun e => decide (account ∈ e.2))
  succeeds : ∀ s : Statement t, ∃ t', execute t s = .ok t'
  reads : ∀ published covered, Valid t published covered →
    ∃ r, readGlobalHolders t published covered = .ok r
  reader : ∀ published covered r, readGlobalHolders t published covered = .ok r →
    Valid t published covered ∧ r.Direct t published

section Direct

variable {t : Tables} {published : Published} {asset : AssetKey} {account : Address}

/-- A counter that is exact is kept when it is not zero. -/
theorem Exact.lookup_eq {γ : Type} [DecidableEq γ] {counts : Table γ ℤ} {f : γ → ℤ}
    (h : Exact counts f) {g : γ} {n : ℕ} (hf : f g = n) : counts.lookup g = kept n := by
  have hamount := h.amount_eq g
  have hzero := h.ne_zero g
  rw [← AList.lookup_isSome] at hzero
  rw [hf] at hamount
  rw [kept]
  rw [amount] at hamount hzero
  cases hlookup : counts.lookup g with
  | none =>
    rw [hlookup, Option.getD_none] at hamount
    rw [if_pos (Int.natCast_eq_zero.mp hamount.symm)]
  | some x =>
    rw [hlookup, Option.getD_some] at hamount hzero
    have hne : n ≠ 0 := fun hc => hzero rfl (by rw [hamount, hc, Nat.cast_zero])
    rw [if_neg hne, hamount]

/-- The references of an account to all markets. -/
theorem total_refWeight_none :
    total (refWeight t.bound (none, account)) t.balances = (positiveMarkets t account).length := by
  rw [positiveMarkets, List.length_map, ← List.countP_eq_length_filter]
  refine (total_ite (fun k b => 0 < b ∧ k.2 = account ∧ (none = none ∨ t.bound k = none)) _).trans ?_
  refine congrArg _ (List.countP_congr fun e _ => ?_)
  rw [decide_eq_true_eq, decide_eq_true_eq]
  exact ⟨fun hc => ⟨hc.2.1, hc.1⟩, fun hc => ⟨hc.2, hc.1, Or.inl rfl⟩⟩

/-- The references of an account to the markets of an asset. -/
theorem total_refWeight_some {a : Bytes32} : total (refWeight t.bound (some a, account)) t.balances
    = (boundMarkets t a account).length := by
  rw [boundMarkets, ← List.countP_eq_length_filter, positiveMarkets, List.countP_map,
    List.countP_filter]
  refine (total_ite (fun k b => 0 < b ∧ k.2 = account ∧ (some a = none ∨ t.bound k = some a))
    _).trans ?_
  refine congrArg _ (List.countP_congr fun e _ => ?_)
  rw [Function.comp_apply, Bool.and_eq_true, decide_eq_true_eq, decide_eq_true_eq,
    decide_eq_true_eq]
  constructor
  · rintro ⟨hb, haccount, hc⟩
    exact ⟨hc.resolve_left (Option.some_ne_none a), haccount, hb⟩
  · rintro ⟨hbound, haccount, hb⟩
    exact ⟨hb, haccount, Or.inr hbound⟩

/-- Where the balances' markets are published as they are bound, a counter has the number of
times its account is a holder. -/
theorem total_refWeight (hbound : ∀ e ∈ t.balances.entries,
    (published.lookup e.1.1).join = t.bound e.1) :
    total (refWeight t.bound (asset, account)) t.balances
      = (holders t published asset).count account := by
  rw [holders, List.count_eq_countP, List.countP_map, List.countP_filter]
  refine (total_ite (fun k b => 0 < b ∧ k.2 = account ∧ (asset = none ∨ t.bound k = asset)) _).trans ?_
  refine congrArg _ (List.countP_congr fun e he => ?_)
  rw [Function.comp_apply, Bool.and_eq_true, decide_eq_true_eq, decide_eq_true_eq, beq_iff_eq,
    hbound e he]
  constructor
  · rintro ⟨hb, haccount, hc⟩
    exact ⟨haccount, hb, hc⟩
  · rintro ⟨haccount, hb, hc⟩
    exact ⟨hb, haccount, hc⟩

/-- **An account is excluded** by the counters exactly when some snapshot excludes it. -/
theorem excludedRef_eq (h : Sound t) : excludedRef t account = excluded t account := by
  have hcount : total (exclusionWeight account) t.snapshots
      = t.snapshots.entries.countP fun e => decide (account ∈ e.2) :=
    total_ite (fun _ excluded => account ∈ excluded) _
  rw [excludedRef, h.exclusions.lookup_eq hcount, excluded, Bool.eq_iff_iff, kept,
    List.any_eq_true]
  split
  · rename_i hzero
    refine iff_of_false (fun hc => nomatch hc) ?_
    rintro ⟨e, he, hmem⟩
    exact List.countP_eq_zero.mp hzero e he hmem
  · rename_i hne
    rw [Option.any_some, decide_eq_true_eq]
    refine iff_of_true (by omega) ?_
    exact List.countP_pos_iff.mp (Nat.pos_of_ne_zero hne)

/-- The reader's rows are of the markets as they are bound. -/
theorem Valid.bound_eq (h : Sound t) {covered : List Bytes32} (hvalid : Valid t published covered) :
    ∀ e ∈ t.balances.entries, (published.lookup e.1.1).join = t.bound e.1 := by
  obtain ⟨-, -, hmarkets, hassets⟩ := hvalid
  intro e he
  -- a market with a balance has a counter
  have hcount : total (marketWeight e.1.1) t.balances
      = t.balances.entries.countP fun e' => decide (e'.1.1 = e.1.1) :=
    total_ite (fun (k : BalanceKey) _ => k.1 = e.1.1) _
  have hpos : 0 < t.balances.entries.countP fun e' => decide (e'.1.1 = e.1.1) :=
    List.countP_pos_iff.mpr ⟨e, he, decide_eq_true rfl⟩
  have hlookup := h.markets.lookup_eq hcount
  rw [kept, if_neg hpos.ne'] at hlookup
  have hmem : e.1.1 ∈ t.marketCounts := by
    rw [← AList.lookup_isSome, hlookup]
    rfl
  obtain ⟨x, hx⟩ := Option.isSome_iff_exists.mp
    (AList.lookup_isSome.mpr (AList.mem_keys.mpr (hmarkets _ (AList.mem_keys.mp hmem))))
  have hasset := hassets _ (AList.mem_lookup_iff.mp (Option.mem_def.mpr hx))
  rw [hx]
  exact hasset.symm

/-- What a positive reference says: how often its account is a holder. -/
theorem mem_positiveRefs (h : Sound t) (hbound : ∀ e ∈ t.balances.entries,
    (published.lookup e.1.1).join = t.bound e.1) {e : Σ _ : AssetKey × Address, ℤ} :
    e ∈ positiveRefs t asset ↔ e.1.1 = asset ∧ e.1.2 ∈ holders t published asset ∧
      e.2 = (holders t published asset).count e.1.2 := by
  obtain ⟨⟨a, account⟩, n⟩ := e
  rw [positiveRefs, List.mem_filter, decide_eq_true_eq, ← AList.mem_lookup_iff, Option.mem_def]
  dsimp only
  constructor
  · rintro ⟨hlookup, rfl, hpos⟩
    rw [h.refs.lookup_eq (total_refWeight hbound), kept] at hlookup
    split at hlookup
    · cases hlookup
    · rename_i hne
      exact ⟨rfl, List.count_pos_iff.mp (Nat.pos_of_ne_zero hne), (Option.some.inj hlookup).symm⟩
  · rintro ⟨rfl, hmem, hn⟩
    have hpos := List.count_pos_iff.mpr hmem
    rw [h.refs.lookup_eq (total_refWeight hbound), kept, if_neg hpos.ne', hn]
    exact ⟨rfl, rfl, by omega⟩

variable (asset) in
/-- **The accounts of the positive references** are the holders. -/
theorem perm_holders (h : Sound t) (hbound : ∀ e ∈ t.balances.entries,
    (published.lookup e.1.1).join = t.bound e.1) :
    ((positiveRefs t asset).map fun e => e.1.2).Perm (holders t published asset).dedup := by
  refine (List.perm_ext_iff_of_nodup ?_ (List.nodup_dedup _)).mpr fun a => ?_
  · exact nodup_map_filter_snd t.accountRefs fun _ h => (of_decide_eq_true h).1
  · rw [List.mem_map, List.mem_dedup]
    constructor
    · rintro ⟨e, he, rfl⟩
      exact ((mem_positiveRefs h hbound).mp he).2.1
    · intro ha
      exact ⟨⟨(asset, a), (holders t published asset).count a⟩,
        (mem_positiveRefs h hbound).mpr ⟨rfl, ha, rfl⟩, rfl⟩

/-- **A row of the query has the direct counts.** -/
theorem groupRow_eq (h : Sound t) (hbound : ∀ e ∈ t.balances.entries,
    (published.lookup e.1.1).join = t.bound e.1) :
    groupRow t published asset = directGroup t published asset := by
  have hperm := perm_holders asset h hbound
  have hpairs : ((positiveRefs t asset).map fun e => e.2).sum
      = (holders t published asset).length :=
    calc ((positiveRefs t asset).map fun e => e.2).sum
        = (((positiveRefs t asset).map fun e => e.1.2).map
            fun a => ((holders t published asset).count a : ℤ)).sum := by
          rw [List.map_map]
          exact congrArg _ (List.map_congr_left fun e he => ((mem_positiveRefs h hbound).mp he).2.2)
      _ = ((holders t published asset).dedup.map
            fun a => ((holders t published asset).count a : ℤ)).sum := (hperm.map _).sum_eq
      _ = (holders t published asset).length := by
          rw [← List.sum_map_count_dedup_eq_length, Nat.cast_list_sum, List.map_map]
          rfl
  have hincluded : (positiveRefs t asset).countP (fun e => !excludedRef t e.1.2)
      = (holders t published asset).dedup.countP fun a => !excluded t a := by
    rw [← hperm.countP_eq, List.countP_map]
    refine List.countP_congr fun e _ => ?_
    rw [Function.comp_apply, excludedRef_eq h]
  rw [groupRow, directGroup, hpairs, hincluded, ← hperm.length_eq, List.length_map]

/-- The assets that are published. -/
theorem mem_publishedAssets {asset : Bytes32} :
    asset ∈ published.entries.filterMap Sigma.snd ↔
      ∃ market, published.lookup market = some (some asset) := by
  rw [List.mem_filterMap]
  constructor
  · rintro ⟨⟨market, uid⟩, he, rfl⟩
    exact ⟨market, AList.mem_lookup_iff.mpr he⟩
  · rintro ⟨market, hmarket⟩
    exact ⟨⟨market, some asset⟩, AList.mem_lookup_iff.mp (Option.mem_def.mpr hmarket), rfl⟩

/-- The accounts with a positive reference in the exclusions are those that are excluded. -/
theorem mem_excludedAccounts (h : Sound t) :
    account ∈ (t.exclusionRefs.entries.filter fun e => decide (0 < e.2)).map Sigma.fst ↔
      excluded t account = true := by
  rw [← excludedRef_eq h, excludedRef, List.mem_map]
  constructor
  · rintro ⟨⟨a, refs⟩, he, rfl⟩
    obtain ⟨hmem, hpos⟩ := List.mem_filter.mp he
    rw [Option.mem_def.mp (AList.mem_lookup_iff.mpr hmem), Option.any_some]
    exact hpos
  · intro hany
    obtain ⟨refs, hlookup, hpos⟩ := (Option.any_eq_true _ _).mp hany
    exact ⟨⟨account, refs⟩,
      List.mem_filter.mpr ⟨AList.mem_lookup_iff.mp (Option.mem_def.mpr hlookup), hpos⟩, rfl⟩

/-- **What the reader returns.** -/
theorem direct_of_read (h : Sound t) {covered : List Bytes32} {r : GlobalHolders}
    (hread : readGlobalHolders t published covered = .ok r) :
    Valid t published covered ∧ r.Direct t published := by
  rw [readGlobalHolders, throwIf] at hread
  obtain ⟨u, hvalid, hread⟩ := bind_eq_ok.mp hread
  have hvalid := not_not.mp (revertIf_eq_ok.mp hvalid)
  have hbound := hvalid.bound_eq h
  cases hread
  have huids : ∀ assets : List Bytes32,
      (assets.map fun asset => groupRow t published (some asset)).map HolderGroup.assetUid
        = assets.map some := fun assets => List.map_map
  refine ⟨hvalid, groupRow_eq h hbound, fun g hg => ?_, ?_, fun uid => ?_, fun account => ?_⟩
  · obtain ⟨asset, -, rfl⟩ := List.mem_map.mp hg
    exact groupRow_eq h hbound
  · rw [huids]
    exact (((List.mergeSort_perm _ _).nodup_iff).mpr (List.nodup_dedup _)).map
      (Option.some_injective _)
  · rw [huids, List.mem_map]
    constructor
    · rintro ⟨asset, hasset, rfl⟩
      exact ⟨Option.some_ne_none _,
        mem_publishedAssets.mp (List.mem_dedup.mp (List.mem_mergeSort.mp hasset))⟩
    · rintro ⟨hne, hmarket⟩
      obtain ⟨asset, rfl⟩ := Option.ne_none_iff_exists'.mp hne
      exact ⟨asset, List.mem_mergeSort.mpr (List.mem_dedup.mpr (mem_publishedAssets.mpr hmarket)),
        rfl⟩
  · rw [List.mem_mergeSort]
    exact mem_excludedAccounts h

end Direct

/-- **The counts of holders are exact**, after every run of statements. -/
theorem holder_counts {t : Tables} (h : Reachable t) : Counts t := by
  have hsound := sound_of_reachable h
  constructor
  · intro market
    exact hsound.markets.lookup_eq (total_ite (fun (k : BalanceKey) _ => k.1 = market) _)
  · intro account
    exact hsound.refs.lookup_eq total_refWeight_none
  · intro asset account
    exact hsound.refs.lookup_eq total_refWeight_some
  · intro account
    exact hsound.exclusions.lookup_eq (total_ite (fun _ excluded => account ∈ excluded) _)
  · intro s
    obtain ⟨t', hok, -⟩ := hsound.execute s
    exact ⟨t', hok⟩
  · intro published covered hvalid
    exact ⟨_, bind_eq_ok.mpr ⟨(), revertIf_eq_ok.mpr (not_not_intro hvalid), rfl⟩⟩
  · exact fun published covered r hread => direct_of_read hsound hread

/-- Two markets, the first of which is bound to an asset, with the balances of two accounts. -/
def sampleTables : Tables :=
  backfill (((∅ : Table BalanceKey ℕ).insert (1, 10) 5).insert (2, 10) 3 |>.insert (2, 11) 0)
    ((∅ : Table Bytes32 (List Address)).insert 1 [11, 11]) ((∅ : Table Bytes32 Bytes32).insert 1 7)

/-- The second market is bound, and the first one is bound to another asset. -/
def sampleRecords : Except JsError Tables :=
  execute sampleTables (.records [⟨2, some 7⟩, ⟨2, none⟩, ⟨1, some 8⟩])

theorem sampleRecords_isOk : sampleRecords.isOk = true := by decide +kernel

/-- The counters after the records: the reference to the first asset has moved to the second. -/
def sampleState : Tables := value sampleRecords sampleRecords_isOk

theorem reachable_sampleState : Reachable sampleState :=
  (Transition.Reachable.of_init ⟨_, _, _, rfl⟩ : Reachable sampleTables).next
    (Step.statement _ (eq_ok_value sampleRecords_isOk))

/-- Both markets are published, with the assets they are bound to. -/
def samplePublished : Published :=
  let uid (n : Bytes32) : Option Bytes32 := some n
  ((∅ : Table Bytes32 (Option Bytes32)).insert 1 (uid 8)).insert 2 (uid 7)

theorem valid_sampleState : Valid sampleState samplePublished [2, 1] := by
  have hkeys : samplePublished.keys = [2, 1] ∧ sampleState.marketCounts.keys = [1, 2] := by
    decide +kernel
  have hassets : (samplePublished.entries.all fun e =>
      decide (sampleState.marketAssets.lookup e.1 = e.2)) = true := by
    decide +kernel
  refine ⟨fun market h => hkeys.1 ▸ h, fun market h => hkeys.1 ▸ h, fun market h => ?_,
    fun e he => of_decide_eq_true (List.all_eq_true.mp hassets e he)⟩
  rw [hkeys.2] at h
  rw [hkeys.1]
  exact List.mem_reverse.mp h

/-- The account 10 holds something in each market; the account 11 is excluded, and has nothing. -/
theorem holder_counts_sample :
    sampleState.accountRefs.lookup (some 8, 10) = some 1 ∧
      ∃ r, readGlobalHolders sampleState samplePublished [2, 1] = .ok r ∧
        r.total = ⟨none, 2, 2, 1, 1⟩ ∧ r.Direct sampleState samplePublished := by
  have hcounts := holder_counts reachable_sampleState
  obtain ⟨r, hread⟩ := hcounts.reads samplePublished [2, 1] valid_sampleState
  obtain ⟨-, hdirect⟩ := hcounts.reader samplePublished [2, 1] r hread
  have htotal : directGroup sampleState samplePublished none = ⟨none, 2, 2, 1, 1⟩ := by
    decide +kernel
  exact ⟨by decide +kernel, r, hread, hdirect.total.trans htotal, hdirect⟩

end HolderCounts

end Backend

end TickerGarden
