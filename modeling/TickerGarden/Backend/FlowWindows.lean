import Mathlib.Data.List.Sort
import TickerGarden.Backend.TradeReads

/-!
# Windows of the flows

`rollupFlow` of the statistics: what was traded in a window, by the groups of the markets and
by intervals. The whole buckets of the window are read as they are, and the two fragments at
its ends are read from the flows of the blocks. The rows of both are put together, so that
what is returned could have been computed from the trades of the window themselves,
`TickerGarden.Backend.TradeFlows.directFlow`.

The checkpoint, the coverage of the window and the records of the markets are read from other
tables: they are parameters here. Their numbers are in the range of the time stamps of the
database, where the quotients of the program are rounded as those of integers.
-/

namespace TickerGarden

open Checked

namespace Backend

namespace TradeFlows

open Analytics (TradeActivity)
open Rollup
open Tally (Counted RowsCounted Tallies sums)

/-! ### The query -/

/-- The intervals of a series, or the whole window. -/
inductive Interval
  | whole
  | minute
  | fiveMinutes
  | quarter
  | hour
  | fourHours
  | day
deriving DecidableEq

/-- The length of an interval; the whole of a window has none. -/
def Interval.seconds : Interval → ℕ
  | .whole => 0
  | .minute => 60
  | .fiveMinutes => 300
  | .quarter => 900
  | .hour => 3600
  | .fourHours => 14400
  | .day => 86400

/-- What markets are grouped by: `asset_uid`, `quote_asset` and `quote_config`. -/
structure FlowMarket where
  assetUid : Bytes32
  quoteAsset : Address
  quoteConfig : Bytes32
deriving DecidableEq

/-- `to_timestamp`. -/
def toTimestamp (seconds : ℤ) : ℤ := seconds * 1000000

/-- The width of the buckets that are read. -/
def Interval.width (interval : Interval) : ℕ :=
  if interval.seconds ≥ 86400 then 86400
  else if interval.seconds = 0 ∨ interval.seconds ≥ 3600 then 3600
  else 60

/-- `fullFrom`: where the first whole bucket starts. -/
def fullFrom (width : ℕ) (start : ℤ) : ℤ := (start + (width - 1)) / width * width

/-- `fullTo`: where the last whole bucket stops. -/
def fullTo (width : ℕ) (start stop : ℤ) : ℤ := max (fullFrom width start) (stop / width * width)

/-- A row of `source`. -/
structure SourceRow where
  marketId : Bytes32
  occurredAt : ℤ
  feeAsset : Option Address
  sums : Sums

/-- `source`: the whole buckets, and the flows of the two fragments. -/
def sourceRows (t : Tables) (start stop : ℤ) (width : ℕ) : List SourceRow :=
  let low := toTimestamp (fullFrom width start)
  let high := toTimestamp (fullTo width start stop)
  ((rowsOf t.buckets).filter fun r => decide (r.1.bucketSeconds = width ∧
    low ≤ r.1.occurredAt ∧ r.1.occurredAt < high)).map
      (fun r => ⟨r.1.marketId, r.1.occurredAt, r.1.feeAsset, r.2⟩) ++
  ((rowsOf t.rollups).filter fun r => decide (eligible t.blocks r.1.blockHash ∧
    (toTimestamp start ≤ r.1.occurredAt ∧ r.1.occurredAt < toTimestamp stop) ∧
    (r.1.occurredAt < low ∨ high ≤ r.1.occurredAt))).map
      (fun r => ⟨r.1.marketId, r.1.occurredAt, r.1.feeAsset, r.2⟩)

/-- What rows are added up by: the group of the market and the start of the interval. -/
structure FlowGroup where
  market : FlowMarket
  bucket : ℤ
deriving DecidableEq

/-- `bucket`. -/
def bucketOf (interval : Interval) (occurredAt : ℤ) : ℤ :=
  if interval.seconds = 0 then 0
  else occurredAt / (interval.seconds * 1000000) * interval.seconds

/-- A row of `r`. -/
structure JoinedRow where
  group : FlowGroup
  marketId : Bytes32
  feeAsset : Option Address
  sums : Sums

/-- `source r JOIN m USING(market_id)`. -/
def joined (markets : Table Bytes32 FlowMarket) (interval : Interval) (rows : List SourceRow) :
    List JoinedRow :=
  rows.filterMap fun r => (markets.lookup r.marketId).map fun market =>
    ⟨⟨market, bucketOf interval r.occurredAt⟩, r.marketId, r.feeAsset, r.sums⟩

/-- A row that is returned. -/
structure FlowRow where
  group : FlowGroup
  tradingCount : ℕ
  tradeCount : ℤ
  internalCount : ℤ
  unclassifiedCount : ℤ
  quoteRaw : ℤ
  internalQuoteRaw : ℤ
  unknownFeeCount : ℤ
  fees : List (Address × ℤ × ℤ)
deriving DecidableEq

/-- The sum of a column. -/
def column (rows : List JoinedRow) (c : Column) : ℤ := (rows.map fun r => r.sums c).sum

/-- `fees`: by the asset, in its order. -/
def flowFees (rows : List JoinedRow) : List (Address × ℤ × ℤ) :=
  ((rows.filterMap fun r => r.feeAsset).dedup.insertionSort fun x y => x.toNat ≤ y.toNat).map
    fun asset =>
      let paid := rows.filter fun r => decide (r.feeAsset = some asset)
      (asset, column paid .feeRaw, column paid .taxRaw)

/-- `totals`, with the fees. -/
def flowRow (rows : List JoinedRow) (group : FlowGroup) : FlowRow :=
  let rows := rows.filter fun r => decide (r.group = group)
  { group
    tradingCount := (rows.map fun r => r.marketId).dedup.length
    tradeCount := column rows .tradeCount
    internalCount := column rows .internalCount
    unclassifiedCount := column rows .unclassifiedCount
    quoteRaw := column rows .quoteRaw
    internalQuoteRaw := column rows .internalQuoteRaw
    unknownFeeCount := column rows .unknownFeeCount
    fees := flowFees rows }

/-- `ORDER BY asset_uid, quote_asset, bucket`. -/
def FlowGroup.before (g h : FlowGroup) : Bool :=
  decide (g.market.assetUid.toNat < h.market.assetUid.toNat ∨
    g.market.assetUid = h.market.assetUid ∧
      (g.market.quoteAsset.toNat < h.market.quoteAsset.toNat ∨
        g.market.quoteAsset = h.market.quoteAsset ∧ g.bucket ≤ h.bucket))

/-- The rows of all groups. -/
def flowRows (rows : List JoinedRow) : List FlowRow :=
  ((rows.map fun r => r.group).dedup.insertionSort fun g h => g.before h).map (flowRow rows)

/-- What `rollupFlow` returns. -/
structure Flow (C : Type) where
  coverage : C
  markets : List (FlowMarket × ℕ)
  rows : List FlowRow

/-- `markets`: the groups there are, with their numbers of markets. -/
def flowMarkets (markets : Table Bytes32 FlowMarket) : List (FlowMarket × ℕ) :=
  let groups := (rowsOf markets).map fun r => r.2
  (groups.dedup.insertionSort fun g h => FlowGroup.before ⟨g, 0⟩ ⟨h, 0⟩).map
    fun g => (g, groups.count g)

/-- **`rollupFlow`.** -/
def rollupFlow {P C : Type} (checkpoint : Option P) (coverageFor : P → ℤ → ℤ → Except JsError C)
    (records : P → Table Bytes32 FlowMarket) (t : Tables) (start stop : ℤ) (interval : Interval) :
    Except JsError (Flow C) := do
  throwIf (start < 0 ∨ stop ≤ start ∨ (maxSafeInteger : ℤ) < stop) "invalid statistics window"
  match checkpoint with
  | none => throwJs "statistics projection is unavailable"
  | some point =>
    let coverage ← coverageFor point start stop
    let markets := records point
    return {
      coverage
      markets := flowMarkets markets
      rows := flowRows (joined markets interval (sourceRows t start stop interval.width)) }

/-- The trades of a window, in the blocks that are canonical and final. -/
def directRows (t : Tables) (start stop : ℤ) : List SourceRow :=
  ((rowsOf t.trades).filter fun r => decide (eligible t.blocks r.1.blockHash ∧
    toTimestamp start ≤ r.2.occurredAt ∧ r.2.occurredAt < toTimestamp stop)).map
      fun r => ⟨r.2.marketId, r.2.occurredAt, r.2.payload.feeAsset, contribution r.2⟩

/-- **What a window should return**, added up over its trades. -/
def directFlow (markets : Table Bytes32 FlowMarket) (t : Tables) (start stop : ℤ)
    (interval : Interval) : List FlowRow :=
  flowRows (joined markets interval (directRows t start stop))

/-! ### The window -/

/-- What some rows add up to. -/
def addedUp {α : Type} (p : α → Bool) (f : α → Sums) (rows : List α) : Sums :=
  (rows.map fun r => if p r then f r else 0).sum

section Sums

variable {α β : Type} {p : α → Bool} {f : α → Sums}

theorem addedUp_append (rows rows' : List α) :
    addedUp p f (rows ++ rows') = addedUp p f rows + addedUp p f rows' := by
  rw [addedUp, List.map_append, List.sum_append]
  rfl

/-- Rows that are selected first. -/
theorem addedUp_filter_map {κ : Type} (m : Table κ β) (q : κ × β → Prop) [DecidablePred q]
    (g : κ × β → α) :
    addedUp p f (((rowsOf m).filter fun r => decide (q r)).map g)
      = total (fun k b => if q (k, b) ∧ p (g (k, b)) then f (g (k, b)) else 0) m := by
  rw [addedUp, rowsOf, total, List.map_map]
  induction m.entries with
  | nil => rfl
  | cons e l ih =>
    rw [List.map_cons, List.map_cons, List.sum_cons, ← ih, List.filter_cons]
    by_cases hq : q (e.1, e.2)
    · rw [if_pos (by simpa using hq), List.map_cons, List.sum_cons]
      exact congrArg (· + _) (if_congr (and_iff_right hq).symm rfl rfl)
    · rw [if_neg (by simpa using hq), if_neg fun hc => hq hc.1, zero_add]

end Sums

section Starts

variable {width : ℕ} {start stop at_ : ℤ}

/-- A time is after a whole bucket exactly if the start of its own is. -/
theorem le_startOf_iff (hwidth : 0 < width) (n : ℤ) :
    toTimestamp (n * width) ≤ startOf width at_ ↔ toTimestamp (n * width) ≤ at_ := by
  have hpos : (0 : ℤ) < (width : ℤ) * 1000000 := by positivity
  have heq : toTimestamp (n * width) = n * ((width : ℤ) * 1000000) := mul_assoc _ _ _
  rw [heq, startOf, mul_le_mul_iff_left₀ hpos, Int.le_ediv_iff_mul_le hpos]

theorem startOf_lt_iff (hwidth : 0 < width) (n : ℤ) :
    startOf width at_ < toTimestamp (n * width) ↔ at_ < toTimestamp (n * width) := by
  rw [← not_le, le_startOf_iff hwidth, not_le]

/-- **The interval of a bucket is that of its times.** -/
theorem bucketOf_startOf (interval : Interval) :
    bucketOf interval (startOf interval.width at_) = bucketOf interval at_ := by
  have hdiv : ∀ k w : ℕ, 0 < k → 0 < w →
      at_ / ((w : ℤ) * 1000000) * ((w : ℤ) * 1000000) / (((k * w : ℕ) : ℤ) * 1000000)
        = at_ / (((k * w : ℕ) : ℤ) * 1000000) := fun k w _ hw => by
    have hpos : (0 : ℤ) < (w : ℤ) * 1000000 := by positivity
    have heq : ((k * w : ℕ) : ℤ) * 1000000 = (w : ℤ) * 1000000 * k := by
      push_cast
      ring
    rw [heq, ← Int.ediv_ediv_of_nonneg hpos.le, Int.mul_ediv_cancel _ hpos.ne',
      Int.ediv_ediv_of_nonneg hpos.le]
  cases interval with
  | whole => rfl
  | minute => exact congrArg (· * (60 : ℤ)) (hdiv 1 60 Nat.one_pos (by norm_num))
  | fiveMinutes => exact congrArg (· * (300 : ℤ)) (hdiv 5 60 (by norm_num) (by norm_num))
  | quarter => exact congrArg (· * (900 : ℤ)) (hdiv 15 60 (by norm_num) (by norm_num))
  | hour => exact congrArg (· * (3600 : ℤ)) (hdiv 1 3600 Nat.one_pos (by norm_num))
  | fourHours => exact congrArg (· * (14400 : ℤ)) (hdiv 4 3600 (by norm_num) (by norm_num))
  | day => exact congrArg (· * (86400 : ℤ)) (hdiv 1 86400 Nat.one_pos (by norm_num))

theorem Interval.width_mem (interval : Interval) : interval.width ∈ widths := by
  cases interval <;> decide

/-- The whole buckets of a window are in it. -/
theorem fullFrom_le (hwidth : 0 < width) (start : ℤ) : start ≤ fullFrom width start := by
  have hpos : (0 : ℤ) < width := by exact_mod_cast hwidth
  have hmod := Int.emod_lt_of_pos (start + (width - 1)) hpos
  have hdiv := Int.mul_ediv_add_emod (start + (width - 1)) width
  rw [fullFrom, mul_comm]
  omega

theorem fullTo_eq (hwidth : 0 < width) (start stop : ℤ) :
    fullTo width start stop = fullFrom width start ∨ fullTo width start stop ≤ stop := by
  have hpos : (0 : ℤ) < width := by exact_mod_cast hwidth
  rcases max_choice (fullFrom width start) (stop / width * width) with h | h
  · exact Or.inl h
  · exact Or.inr (h.trans_le (Int.ediv_mul_le stop hpos.ne'))

end Starts

section Window

variable {t : Tables}

/-- **Flows are read instead of trades.** -/
theorem Sound.total_rollups (h : Sound t) (Q : FlowKey → Prop) [DecidablePred Q] :
    total (fun k x => if Q k then x else 0) t.rollups
      = total (fun key r => if Q (flowKey key r) then contribution r else 0) t.trades :=
  total_groups Q fun k => (h.flows.rollups.amount_eq k).trans (flowSums_rowsOf t.trades k)

/-- **Buckets of one width are read instead of flows.** -/
theorem Sound.total_buckets (h : Sound t) {width : ℕ} (hwidth : width ∈ widths)
    (Q : BucketKey → Prop) [DecidablePred Q] :
    total (fun g x => if g.bucketSeconds = width ∧ Q g then x else 0) t.buckets
      = total (fun k x => if eligible t.blocks k.blockHash ∧ Q (bucketKey k width) then x else 0)
        t.rollups := by
  rw [h.flows.buckets.total_select (fun g => g.bucketSeconds = width ∧ Q g)
    (fun k => eligible t.blocks k.blockHash = true) (fun k => bucketKey k width)]
  · refine total_congr fun k x _ => if_congr (and_congr_right fun _ => ?_) rfl rfl
    exact and_iff_right rfl
  · rintro g k ⟨hg, -⟩
    rw [intoBuckets]
    constructor
    · intro hmem
      split at hmem
      · rename_i hok
        obtain ⟨w, -, rfl⟩ := List.mem_map.mp hmem
        exact ⟨hok, congrArg (bucketKey k) hg.symm⟩
      · cases hmem
    · rintro ⟨hok, rfl⟩
      rw [if_pos hok]
      exact List.mem_map_of_mem hwidth

/-- **A window is read as the sum of its trades**, whatever is selected by the market, the
interval and the fee asset. -/
theorem Sound.window (h : Sound t) (start stop : ℤ) (interval : Interval)
    (p : Bytes32 → ℤ → Option Address → Bool) :
    addedUp (fun r => p r.marketId (bucketOf interval r.occurredAt) r.feeAsset) SourceRow.sums
        (sourceRows t start stop interval.width)
      = addedUp (fun r => p r.marketId (bucketOf interval r.occurredAt) r.feeAsset) SourceRow.sums
        (directRows t start stop) := by
  have hwidth : 0 < interval.width := by cases interval <;> decide
  let low := toTimestamp (fullFrom interval.width start)
  let high := toTimestamp (fullTo interval.width start stop)
  have hbuckets := h.total_buckets interval.width_mem fun g =>
    (low ≤ g.occurredAt ∧ g.occurredAt < high) ∧
      p g.marketId (bucketOf interval g.occurredAt) g.feeAsset
  have hwhole := h.total_rollups fun k => eligible t.blocks k.blockHash ∧
    (low ≤ (bucketKey k interval.width).occurredAt ∧
      (bucketKey k interval.width).occurredAt < high) ∧
      p k.marketId (bucketOf interval (bucketKey k interval.width).occurredAt) k.feeAsset
  have hfragments := h.total_rollups fun k => (eligible t.blocks k.blockHash ∧
    (toTimestamp start ≤ k.occurredAt ∧ k.occurredAt < toTimestamp stop) ∧
    (k.occurredAt < low ∨ high ≤ k.occurredAt)) ∧
      p k.marketId (bucketOf interval k.occurredAt) k.feeAsset
  have hleft : total (fun (g : BucketKey) (x : Sums) => if (g.bucketSeconds = interval.width ∧
      low ≤ g.occurredAt ∧ g.occurredAt < high) ∧
      p g.marketId (bucketOf interval g.occurredAt) g.feeAsset then x else 0) t.buckets
      = total (fun g x => if g.bucketSeconds = interval.width ∧
        (low ≤ g.occurredAt ∧ g.occurredAt < high) ∧
        p g.marketId (bucketOf interval g.occurredAt) g.feeAsset then x else 0) t.buckets :=
    total_congr fun g x _ => if_congr and_assoc rfl rfl
  rw [sourceRows, addedUp_append, addedUp_filter_map t.buckets fun r =>
    r.1.bucketSeconds = interval.width ∧ low ≤ r.1.occurredAt ∧ r.1.occurredAt < high]
  rw [addedUp_filter_map t.rollups fun r => eligible t.blocks r.1.blockHash ∧
    (toTimestamp start ≤ r.1.occurredAt ∧ r.1.occurredAt < toTimestamp stop) ∧
    (r.1.occurredAt < low ∨ high ≤ r.1.occurredAt)]
  rw [directRows, addedUp_filter_map t.trades fun r => eligible t.blocks r.1.blockHash ∧
    toTimestamp start ≤ r.2.occurredAt ∧ r.2.occurredAt < toTimestamp stop]
  refine (congrArg₂ (· + ·) (hleft.trans (hbuckets.trans hwhole)) hfragments).trans ?_
  rw [← total_add]
  refine total_congr fun key r _ => ?_
  -- a trade of the window is in a whole bucket, or in a fragment, and not in both
  obtain ⟨n, hn⟩ : ∃ n : ℤ, fullTo interval.width start stop = n * interval.width := by
    rcases max_choice (fullFrom interval.width start) (stop / interval.width * interval.width)
      with hmax | hmax
    · exact ⟨_, hmax⟩
    · exact ⟨_, hmax⟩
  have hlow : low ≤ startOf interval.width r.occurredAt ↔ low ≤ r.occurredAt :=
    le_startOf_iff hwidth _
  have hhigh : startOf interval.width r.occurredAt < high ↔ r.occurredAt < high := by
    dsimp only [high]
    rw [hn]
    exact startOf_lt_iff hwidth n
  have hfrom := fullFrom_le hwidth start
  have hto := fullTo_eq hwidth start stop
  have hinside : low ≤ r.occurredAt → r.occurredAt < high →
      toTimestamp start ≤ r.occurredAt ∧ r.occurredAt < toTimestamp stop := by
    dsimp only [low, high, toTimestamp]
    omega
  have hwholes : (eligible t.blocks key.blockHash = true ∧
      (low ≤ startOf interval.width r.occurredAt ∧ startOf interval.width r.occurredAt < high) ∧
        p r.marketId (bucketOf interval (startOf interval.width r.occurredAt)) r.payload.feeAsset
          = true) ↔ eligible t.blocks key.blockHash = true ∧
      (low ≤ r.occurredAt ∧ r.occurredAt < high) ∧
        p r.marketId (bucketOf interval r.occurredAt) r.payload.feeAsset = true := by
    rw [bucketOf_startOf, hlow, hhigh]
  refine (congrArg (· + _) (if_congr hwholes rfl rfl)).trans ?_
  dsimp only [flowKey]
  by_cases hok : eligible t.blocks key.blockHash = true
  · by_cases hp : p r.marketId (bucketOf interval r.occurredAt) r.payload.feeAsset = true
    · simp only [hok, hp, true_and, and_true]
      by_cases hin : low ≤ r.occurredAt ∧ r.occurredAt < high
      · have hout : ¬(r.occurredAt < low ∨ high ≤ r.occurredAt) := by omega
        rw [if_pos hin, if_neg fun hc => hout hc.2, add_zero, if_pos (hinside hin.1 hin.2)]
      · have hout : r.occurredAt < low ∨ high ≤ r.occurredAt := by omega
        rw [if_neg hin, zero_add]
        exact if_congr (and_iff_left hout) rfl rfl
    · simp only [hp, Bool.false_eq_true, and_false, if_false, add_zero]
  · simp only [hok, Bool.false_eq_true, false_and, if_false, add_zero]

end Window

/-! ### The rows that are returned -/

/-- **Two lists of rows that add up to the same**, whatever is selected by the group, the
market and the fee asset. Each row counts a trade. -/
structure SameSums (rows rows' : List JoinedRow) : Prop where
  addedUp : ∀ q : FlowGroup → Bytes32 → Option Address → Bool,
    addedUp (fun r => q r.group r.marketId r.feeAsset) JoinedRow.sums rows
      = addedUp (fun r => q r.group r.marketId r.feeAsset) JoinedRow.sums rows'
  left : ∀ r ∈ rows, 0 < tradeCount r.sums
  right : ∀ r ∈ rows', 0 < tradeCount r.sums

section Rows

variable {rows rows' : List JoinedRow} {markets : Table Bytes32 FlowMarket} {interval : Interval}

theorem addedUp_joined (q : FlowGroup → Bytes32 → Option Address → Bool) (l : List SourceRow) :
    addedUp (fun r => q r.group r.marketId r.feeAsset) JoinedRow.sums (joined markets interval l)
      = addedUp (fun r => (markets.lookup r.marketId).elim false fun market =>
        q ⟨market, bucketOf interval r.occurredAt⟩ r.marketId r.feeAsset) SourceRow.sums l := by
  induction l with
  | nil => rfl
  | cons r l ih =>
    rw [joined, List.filterMap_cons, addedUp, addedUp, List.map_cons, List.sum_cons]
    rw [joined, addedUp, addedUp] at ih
    cases markets.lookup r.marketId with
    | none =>
      rw [Option.map_none, Option.elim_none, if_neg Bool.false_ne_true, zero_add]
      exact ih
    | some market =>
      rw [Option.map_some, Option.elim_some, List.map_cons, List.sum_cons, ih]

/-- A row of a selection, as a count of trades. -/
theorem exists_iff_addedUp (hpos : ∀ r ∈ rows, 0 < tradeCount r.sums) (p : JoinedRow → Bool) :
    (∃ r ∈ rows, p r) ↔ tradeCount (addedUp p JoinedRow.sums rows) ≠ 0 := by
  have hds : ∀ d ∈ rows.map fun r => (p r, r.sums), 0 < tradeCount d.2 := by
    intro d hd
    obtain ⟨r, hr, rfl⟩ := List.mem_map.mp hd
    exact hpos r hr
  have hsum : sumOf (rows.map fun r => (p r, r.sums)) true = addedUp p JoinedRow.sums rows := by
    rw [sumOf, List.map_map]
    rfl
  rw [← hsum, Tally.count_sumOf_ne_zero hds, List.map_map, List.mem_map]
  exact Iff.rfl

/-- What there is in one of them, there is in the other. -/
theorem SameSums.exists_iff (h : SameSums rows rows')
    (q : FlowGroup → Bytes32 → Option Address → Bool) :
    (∃ r ∈ rows, q r.group r.marketId r.feeAsset) ↔
      ∃ r ∈ rows', q r.group r.marketId r.feeAsset := by
  rw [exists_iff_addedUp h.left, exists_iff_addedUp h.right, h.addedUp]

/-- A column of a selection. -/
theorem column_filter (p : JoinedRow → Bool) (rows : List JoinedRow) (c : Column) :
    column (rows.filter p) c = addedUp p JoinedRow.sums rows c := by
  induction rows with
  | nil => rfl
  | cons r rows ih =>
    have hsum : addedUp p JoinedRow.sums (r :: rows) c
        = (if p r then r.sums else 0) c + addedUp p JoinedRow.sums rows c := rfl
    rw [hsum, ← ih, List.filter_cons]
    split
    · rfl
    · exact (zero_add _).symm

/-- Lists with the same members have the same members each once. -/
theorem dedup_perm {α : Type} [DecidableEq α] {l l' : List α} (h : ∀ a, a ∈ l ↔ a ∈ l') :
    l.dedup.Perm l'.dedup :=
  (List.perm_ext_iff_of_nodup (List.nodup_dedup l) (List.nodup_dedup l')).mpr fun a => by
    rw [List.mem_dedup, List.mem_dedup, h]

/-- Assets are listed in their order, wherever they come from. -/
theorem assets_eq {l l' : List Address} (h : ∀ a, a ∈ l ↔ a ∈ l') :
    (l.dedup.insertionSort fun x y => x.toNat ≤ y.toNat)
      = l'.dedup.insertionSort fun x y => x.toNat ≤ y.toNat := by
  have : Std.Total fun x y : Address => x.toNat ≤ y.toNat := ⟨fun x y => le_total _ _⟩
  have : IsTrans Address fun x y => x.toNat ≤ y.toNat := ⟨fun x y z => le_trans⟩
  refine List.Perm.eq_of_pairwise ?_ (List.pairwise_insertionSort _ _)
    (List.pairwise_insertionSort _ _) ?_
  · intro x y _ _ hxy hyx
    exact BitVec.eq_of_toNat_eq (le_antisymm hxy hyx)
  · exact (List.perm_insertionSort _ _).trans
      ((dedup_perm h).trans (List.perm_insertionSort _ _).symm)

/-- **The fees of a group are the same.** -/
theorem SameSums.flowFees (h : SameSums rows rows') (g : FlowGroup) :
    flowFees (rows.filter fun r => decide (r.group = g))
      = flowFees (rows'.filter fun r => decide (r.group = g)) := by
  have hmem : ∀ (l : List JoinedRow) (a : Address),
      a ∈ (l.filter fun r => decide (r.group = g)).filterMap (fun r => r.feeAsset)
        ↔ ∃ r ∈ l, decide (r.group = g ∧ r.feeAsset = some a) = true := by
    intro l a
    rw [List.mem_filterMap]
    refine exists_congr fun r => ?_
    rw [List.mem_filter, decide_eq_true_iff, decide_eq_true_iff, and_assoc]
  have hassets := assets_eq fun a => (hmem rows a).trans ((h.exists_iff fun group _ fee =>
    decide (group = g ∧ fee = some a)).trans (hmem rows' a).symm)
  rw [TradeFlows.flowFees, TradeFlows.flowFees, hassets]
  refine List.map_congr_left fun a _ => ?_
  have hpaid : ∀ (l : List JoinedRow) (c : Column),
      column ((l.filter fun r => decide (r.group = g)).filter fun r => decide (r.feeAsset = some a)) c
        = TradeFlows.addedUp (fun r => decide (r.feeAsset = some a) && decide (r.group = g))
          JoinedRow.sums l c := by
    intro l c
    rw [List.filter_filter, column_filter]
  have hsums := h.addedUp fun group _ fee => decide (fee = some a) && decide (group = g)
  dsimp only
  rw [hpaid, hpaid, hpaid, hpaid, hsums]

/-- **The row of a group is the same.** -/
theorem SameSums.flowRow (h : SameSums rows rows') (g : FlowGroup) :
    flowRow rows g = flowRow rows' g := by
  have hcolumn : ∀ c, column (rows.filter fun r => decide (r.group = g)) c
      = column (rows'.filter fun r => decide (r.group = g)) c := fun c => by
    rw [column_filter, column_filter, h.addedUp fun group _ _ => decide (group = g)]
  have hmem : ∀ (l : List JoinedRow) (m : Bytes32),
      m ∈ (l.filter fun r => decide (r.group = g)).map (fun r => r.marketId)
        ↔ ∃ r ∈ l, decide (r.group = g ∧ r.marketId = m) = true := by
    intro l m
    rw [List.mem_map]
    refine exists_congr fun r => ?_
    rw [List.mem_filter, decide_eq_true_iff, decide_eq_true_iff, and_assoc]
  have hmarkets := dedup_perm fun m => (hmem rows m).trans ((h.exists_iff fun group market _ =>
    decide (group = g ∧ market = m)).trans (hmem rows' m).symm)
  rw [TradeFlows.flowRow, TradeFlows.flowRow]
  rw [hcolumn, hcolumn, hcolumn, hcolumn, hcolumn, hcolumn, h.flowFees, hmarkets.length_eq]

/-- **The rows are the same**, up to the order of those that the query leaves open. -/
theorem SameSums.flowRows (h : SameSums rows rows') : (flowRows rows).Perm (flowRows rows') := by
  have hmem : ∀ (l : List JoinedRow) (g : FlowGroup), g ∈ l.map (fun r => r.group)
      ↔ ∃ r ∈ l, decide (r.group = g) = true := by
    intro l g
    rw [List.mem_map]
    refine exists_congr fun r => ?_
    rw [decide_eq_true_iff]
  have hgroups := dedup_perm fun g => (hmem rows g).trans ((h.exists_iff fun group _ _ =>
    decide (group = g)).trans (hmem rows' g).symm)
  rw [TradeFlows.flowRows, TradeFlows.flowRows, funext h.flowRow]
  exact ((List.perm_insertionSort _ _).trans
    (hgroups.trans (List.perm_insertionSort _ _).symm)).map _

end Rows

section Reads

variable {t : Tables} {start stop : ℤ} {interval : Interval}

/-- A row of the flows, or of the buckets, counts a trade. -/
theorem tradeCount_pos {γ : Type} [DecidableEq γ] {a : Table γ Sums} {S : γ → Sums}
    (h : Tallies tradeCount a S) (hcounted : ∀ g, Counted tradeCount (S g)) {r : γ × Sums}
    (hr : r ∈ rowsOf a) : 0 < tradeCount r.2 := by
  have hlookup := mem_rowsOf.mp hr
  have hcount := (h.mem_iff r.1).mp (AList.lookup_isSome.mp (hlookup ▸ rfl))
  have hamount := h.amount_eq r.1
  rw [amount, hlookup, Option.getD_some] at hamount
  rw [← hamount] at hcount
  refine lt_of_le_of_ne ?_ hcount.symm
  rw [hamount]
  exact (hcounted r.1).nonneg

/-- Every row of the query counts a trade. -/
theorem Sound.sourceRows_pos (h : Sound t) {r : SourceRow}
    (hr : r ∈ sourceRows t start stop interval.width) : 0 < tradeCount r.sums := by
  rcases List.mem_append.mp hr with hr | hr
  · obtain ⟨x, hx, rfl⟩ := List.mem_map.mp hr
    exact tradeCount_pos h.flows.buckets
      ((rowsCounted_of_tallies h.flows.rollups).sums _) (List.mem_of_mem_filter hx)
  · obtain ⟨x, hx, rfl⟩ := List.mem_map.mp hr
    exact tradeCount_pos h.flows.rollups (counted_flowSums _) (List.mem_of_mem_filter hx)

theorem directRows_pos {r : SourceRow} (hr : r ∈ directRows t start stop) :
    0 < tradeCount r.sums := by
  obtain ⟨x, -, rfl⟩ := List.mem_map.mp hr
  exact tradeCount_contribution x.2

theorem joined_pos {markets : Table Bytes32 FlowMarket} {l : List SourceRow}
    (h : ∀ r ∈ l, 0 < tradeCount r.sums) :
    ∀ r ∈ joined markets interval l, 0 < tradeCount r.sums := by
  intro r hr
  obtain ⟨x, hx, hmap⟩ := List.mem_filterMap.mp hr
  obtain ⟨market, -, rfl⟩ := Option.map_eq_some_iff.mp hmap
  exact h x hx

/-- **The query returns what the trades of the window add up to.** -/
theorem Sound.flowRows (h : Sound t) (markets : Table Bytes32 FlowMarket) :
    (TradeFlows.flowRows (joined markets interval (sourceRows t start stop interval.width))).Perm
      (directFlow markets t start stop interval) := by
  refine SameSums.flowRows ⟨fun q => ?_, joined_pos fun r hr => h.sourceRows_pos hr,
    joined_pos fun r hr => directRows_pos hr⟩
  rw [addedUp_joined, addedUp_joined]
  exact h.window start stop interval fun market bucket fee =>
    (markets.lookup market).elim false fun group => q ⟨group, bucket⟩ market fee

end Reads

/-! ### The read models are exact -/

/-- **The read models are exact**: the flows, the buckets, the latest buy of each market whose
trades are placed, and what is read of every window. -/
structure Exact (t : Tables) : Prop where
  rollups : ∀ k, amount t.rollups k
    = total (fun key r => if flowKey key r = k then contribution r else 0) t.trades
  rollup_iff : ∀ k, k ∈ t.rollups ↔ ∃ r ∈ rowsOf t.trades, flowKey r.1 r.2 = k
  buckets : ∀ width ∈ widths, ∀ k, amount t.buckets (bucketKey k width)
    = total (fun j x => if eligible t.blocks j.blockHash ∧ bucketKey j width = bucketKey k width
      then x else 0) t.rollups
  bucket_iff : ∀ g, g ∈ t.buckets ↔ ∃ width ∈ widths, ∃ k ∈ t.rollups,
    eligible t.blocks k.blockHash ∧ bucketKey k width = g
  latestBuys : ∀ market, PlacedMarket t.blocks (rowsOf t.trades) market →
    IsLatest (buysOf t.blocks (rowsOf t.trades) market) (t.latestBuys.lookup market)
  windows : ∀ {P C : Type} (checkpoint : Option P) (coverageFor : P → ℤ → ℤ → Except JsError C)
    (records : P → Table Bytes32 FlowMarket) (start stop : ℤ) (interval : Interval) (flow : Flow C),
    rollupFlow checkpoint coverageFor records t start stop interval = .ok flow →
      ∃ point, checkpoint = some point ∧
        flow.rows.Perm (directFlow (records point) t start stop interval)

/-- A bucket has a row exactly if it has a flow of an eligible block. -/
theorem Sound.bucket_iff {t : Tables} (h : Sound t) (g : BucketKey) :
    g ∈ t.buckets ↔ ∃ width ∈ widths, ∃ k ∈ t.rollups,
      eligible t.blocks k.blockHash ∧ bucketKey k width = g := by
  have hflat := Tally.sumOf_flatMap (nodup_intoBuckets (eligible t.blocks)) t.rollups g
  have hpos : ∀ d ∈ t.rollups.entries.flatMap fun e =>
      (intoBuckets (eligible t.blocks) e.1).map fun g => (g, e.2), 0 < tradeCount d.2 := by
    intro d hd
    obtain ⟨e, he, hd⟩ := List.mem_flatMap.mp hd
    obtain ⟨g, -, rfl⟩ := List.mem_map.mp hd
    have hlookup : t.rollups.lookup e.1 = some e.2 :=
      Option.mem_def.mp (AList.mem_lookup_iff.mpr he)
    exact tradeCount_pos (r := (e.1, e.2)) h.flows.rollups (counted_flowSums _)
      (mem_rowsOf.mpr hlookup)
  rw [h.flows.buckets.mem_iff, ← hflat, Tally.count_sumOf_ne_zero hpos, List.mem_map]
  constructor
  · rintro ⟨d, hd, rfl⟩
    obtain ⟨e, he, hd⟩ := List.mem_flatMap.mp hd
    obtain ⟨g, hg, rfl⟩ := List.mem_map.mp hd
    rw [intoBuckets] at hg
    split at hg
    · rename_i hok
      obtain ⟨width, hwidth, rfl⟩ := List.mem_map.mp hg
      exact ⟨width, hwidth, e.1, AList.mem_keys.mpr (List.mem_map_of_mem he), hok, rfl⟩
    · cases hg
  · rintro ⟨width, hwidth, k, hk, hok, rfl⟩
    obtain ⟨x, hx⟩ := Option.isSome_iff_exists.mp (AList.lookup_isSome.mpr hk)
    refine ⟨(bucketKey k width, x), List.mem_flatMap.mpr ⟨⟨k, x⟩,
      AList.mem_lookup_iff.mp (Option.mem_def.mpr hx), ?_⟩, rfl⟩
    refine List.mem_map_of_mem (f := fun g => (g, x)) ?_
    rw [intoBuckets, if_pos hok]
    exact List.mem_map_of_mem hwidth

/-- **The read models of the trades are exact**, after every run of statements on the trades
and the blocks. -/
theorem trade_read_models {t : Tables} (h : Reachable t) : Exact t := by
  have hsound := sound_of_reachable h
  refine ⟨fun k => ?_, fun k => hsound.flows.mem_rollups, fun width hwidth k => ?_,
    hsound.bucket_iff, hsound.buys, ?_⟩
  · rw [hsound.flows.rollups.amount_eq, flowSums_rowsOf]
  · rw [hsound.flows.buckets.amount_eq, sums]
    refine total_congr fun j x _ => if_congr ?_ rfl rfl
    rw [intoBuckets]
    constructor
    · intro hmem
      split at hmem
      · rename_i hok
        obtain ⟨w, -, heq⟩ := List.mem_map.mp hmem
        obtain rfl : w = width := congrArg BucketKey.bucketSeconds heq
        exact ⟨hok, heq⟩
      · cases hmem
    · rintro ⟨hok, heq⟩
      rw [if_pos hok, ← heq]
      exact List.mem_map_of_mem hwidth
  · intro P C checkpoint coverageFor records start stop interval flow hok
    cases checkpoint with
    | none =>
      rw [rollupFlow] at hok
      obtain ⟨u, -, hok⟩ := bind_eq_ok.mp hok
      cases hok
    | some point =>
      rw [rollupFlow] at hok
      obtain ⟨u, -, hok⟩ := bind_eq_ok.mp hok
      obtain ⟨coverage, -, hok⟩ := bind_eq_ok.mp hok
      cases hok
      exact ⟨point, rfl, hsound.flowRows (records point)⟩

/-! ### A block with two trades -/

/-- What is recorded of a buy of the sample. -/
def sampleActivity (blockNumber transactionIndex : ℕ) : TradeActivity where
  source := { chainId := 1, blockNumber, blockHash := 21, transactionHash := 1, transactionIndex,
              logIndex := 0, emitter := 9, eventKey := (1, 1, 0) }
  venue := .curve
  marketId := 1
  timestamp := 100
  side := .buy
  classification := .unclassified
  actor := none
  actorConfidence := .unavailable
  recipient := none
  memeAsset := 5
  quoteAsset := 6
  quoteDecimals := 18
  memeRaw := 5
  quoteRaw := 7
  amountBasis := .curveExcludingFeeTax
  price := ⟨7, 5⟩
  feeRaw := some 1
  feeAsset := some 6
  taxRaw := none
  feeStatus := .eventReported

/-- A buy of the sample. -/
def sampleTrade (blockNumber transactionIndex : ℕ) : TradeRow where
  marketId := 1
  occurredAt := toTimestamp 100
  classification := .unclassified
  baseRaw := 5
  quoteRaw := 7
  payload := sampleActivity blockNumber transactionIndex

/-- Two blocks that are canonical and final. -/
def sampleBlocks : Table Bytes32 ChainBlock :=
  ((∅ : Table Bytes32 ChainBlock).insert 21 ⟨11, true, true⟩).insert 22 ⟨12, true, true⟩

/-- Rows that are inserted. -/
def insertion (m : Table TradeKey TradeRow) (rows : List (TradeKey × TradeRow)) : TradeWrite m where
  toWrite := Write.doNothing m rows
  paired h := by cases h

/-- Rows that are deleted. -/
def deletion (m : Table TradeKey TradeRow) (p : TradeKey → TradeRow → Bool) : TradeWrite m where
  toWrite := Write.delete m p
  paired h := by cases h

/-- A first buy, in a log beyond 32 bits. -/
def packedStart : Tables :=
  backfill ((∅ : Table TradeKey TradeRow).insert ⟨21, 1, 4294967296⟩ (sampleTrade 11 0)) sampleBlocks

/-- A buy in the next transaction. -/
def packedInsertion : Except JsError Tables :=
  writeTrades packedStart (insertion _ [(⟨21, 2, 0⟩, sampleTrade 11 1)])

/-- The tables after the second buy, which does not count as the latest. -/
def packedTables : Tables := value packedInsertion (by decide +kernel)

theorem reachable_packedTables : Reachable packedTables :=
  (Transition.Reachable.of_init ⟨_, _, by decide +kernel, rfl⟩ : Reachable packedStart).next
    (Step.trades _ (eq_ok_value _ : packedInsertion = .ok packedTables))

/-- Two buys, the first of which records another block than its own, and a third one. -/
def recordedStart : Tables :=
  backfill ((((∅ : Table TradeKey TradeRow).insert ⟨21, 1, 0⟩ (sampleTrade 15 0)).insert
    ⟨22, 2, 0⟩ (sampleTrade 12 0)).insert ⟨22, 3, 1⟩ (sampleTrade 12 1)) sampleBlocks

/-- The third one is deleted. -/
def recordedDeletion : Except JsError Tables :=
  writeTrades recordedStart (deletion _ fun k _ => decide (k.transactionHash = 3))

/-- The tables after the deletion. -/
def recordedTables : Tables := value recordedDeletion (by decide +kernel)

theorem reachable_recordedTables : Reachable recordedTables :=
  (Transition.Reachable.of_init ⟨_, _, by decide +kernel, rfl⟩ : Reachable recordedStart).next
    (Step.trades _ (eq_ok_value _ : recordedDeletion = .ok recordedTables))

/-- A buy that records the block it is in, at a time. -/
def placedTrade (blockNumber timestamp : ℕ) : TradeRow :=
  { sampleTrade blockNumber 0 with
    occurredAt := toTimestamp timestamp
    payload := { sampleActivity blockNumber 0 with timestamp } }

/-- A buy of the first hour and one of the second. -/
def placedStart : Tables :=
  backfill (((∅ : Table TradeKey TradeRow).insert ⟨21, 1, 0⟩ (placedTrade 11 100)).insert
    ⟨22, 2, 0⟩ (placedTrade 12 4000)) sampleBlocks

/-- A buy of the third hour, in the second block. -/
def placedInsertion : Except JsError Tables :=
  writeTrades placedStart (insertion _ [(⟨22, 3, 1⟩, placedTrade 12 7250)])

/-- The tables after the third buy. -/
def placedTables : Tables := value placedInsertion (by decide +kernel)

theorem reachable_placedTables : Reachable placedTables :=
  (Transition.Reachable.of_init ⟨_, _, by decide +kernel, rfl⟩ : Reachable placedStart).next
    (Step.trades _ (eq_ok_value _ : placedInsertion = .ok placedTables))

theorem placedMarket_placedTables :
    PlacedMarket placedTables.blocks (rowsOf placedTables.trades) 1 := by
  have hplaced : ∀ r ∈ rowsOf placedTables.trades,
      (∀ b ∈ placedTables.blocks.lookup r.1.blockHash,
        r.2.payload.source.blockNumber = b.number) ∧
      r.2.payload.source.transactionIndex < 4294967296 ∧ r.1.logIndex < 4294967296 := by
    decide +kernel
  exact fun r hr _ => ⟨(hplaced r hr).1, (hplaced r hr).2.1, (hplaced r hr).2.2⟩

/-- The three hours: the second is read from its bucket, and the fragments of the first and of
the third from the trades. The last buy is the latest. -/
theorem trade_read_models_sample :
    (rollupFlow (C := Unit) (some ()) (fun _ _ _ => .ok ())
      (fun _ => (∅ : Table Bytes32 FlowMarket).insert 1 ⟨8, 6, 7⟩) placedTables 50 7300 .hour).map
        (fun flow => flow.rows)
      = .ok [⟨⟨⟨8, 6, 7⟩, 0⟩, 1, 1, 0, 1, 7, 0, 0, [(6, 1, 0)]⟩,
        ⟨⟨⟨8, 6, 7⟩, 3600⟩, 1, 1, 0, 1, 7, 0, 0, [(6, 1, 0)]⟩,
        ⟨⟨⟨8, 6, 7⟩, 7200⟩, 1, 1, 0, 1, 7, 0, 0, [(6, 1, 0)]⟩] ∧
    (∃ buy, placedTables.latestBuys.lookup 1 = some buy ∧ buy.timestamp = 7250 ∧
      IsLatest (buysOf placedTables.blocks (rowsOf placedTables.trades) 1) (some buy)) ∧
    Exact placedTables := by
  have hexact : Exact placedTables := trade_read_models reachable_placedTables
  have hlatest := hexact.latestBuys 1 placedMarket_placedTables
  obtain ⟨buy, hbuy, htime⟩ : ∃ buy, placedTables.latestBuys.lookup 1 = some buy ∧
      buy.timestamp = 7250 :=
    ⟨_, rfl, by decide +kernel⟩
  rw [hbuy] at hlatest
  exact ⟨by decide +kernel, ⟨buy, hbuy, htime, hlatest⟩, hexact⟩

/-- A row that another buy is after is not the latest. -/
theorem not_isLatest {buys : List LatestBuy} {row other : LatestBuy} (hother : other ∈ buys)
    (h : row.place < other.place) : ¬IsLatest buys (some row) := by
  rintro ⟨-, hmax⟩
  exact absurd (hmax other hother) (not_le.mpr h)

/-- **The latest buy is not the latest** for a log beyond 32 bits, nor for a trade that records
another block than its own. -/
theorem latest_buy_misplaced :
    (∃ t : Tables, Reachable t ∧
      ¬IsLatest (buysOf t.blocks (rowsOf t.trades) 1) (t.latestBuys.lookup 1) ∧
      ∀ r ∈ rowsOf t.trades, ∀ b ∈ t.blocks.lookup r.1.blockHash,
        r.2.payload.source.blockNumber = b.number) ∧
    ∃ t : Tables, Reachable t ∧
      ¬IsLatest (buysOf t.blocks (rowsOf t.trades) 1) (t.latestBuys.lookup 1) ∧
      ∀ r ∈ rowsOf t.trades, r.2.payload.source.transactionIndex < 4294967296 ∧
        r.1.logIndex < 4294967296 := by
  refine ⟨⟨packedTables, reachable_packedTables, ?_, by decide +kernel⟩,
    ⟨recordedTables, reachable_recordedTables, ?_, by decide +kernel⟩⟩
  · have hrow : packedTables.latestBuys.lookup 1
        = some ⟨11 * 18446744073709551616 + 4294967296, 21, 11, 0, 4294967296, 100⟩ := by
      decide +kernel
    have hother : ⟨11 * 18446744073709551616 + 4294967296, 21, 11, 1, 0, 100⟩ ∈
        buysOf packedTables.blocks (rowsOf packedTables.trades) 1 := by
      decide +kernel
    rw [hrow]
    exact not_isLatest hother (by decide +kernel)
  · have hrow : recordedTables.latestBuys.lookup 1
        = some ⟨11 * 18446744073709551616, 21, 11, 0, 0, 100⟩ := by decide +kernel
    have hother : ⟨12 * 18446744073709551616, 22, 12, 0, 0, 100⟩ ∈
        buysOf recordedTables.blocks (rowsOf recordedTables.trades) 1 := by
      decide +kernel
    rw [hrow]
    exact not_isLatest hother (by decide +kernel)

end TradeFlows

end Backend

end TickerGarden
