import TickerGarden.Backend.TradeFlows

/-!
# The flows and the buckets follow the trades

Between the triggers of two rows of a statement the flows are those of neither of the two
tables, but of the trades that are still as they were and those that are already as they
will be. The invariant is about such a **bag** of trades,
`TickerGarden.Backend.TradeFlows.FlowSound`: the flows are a tally of the bag, and the
buckets are a tally of the flows. A trade is taken out of the bag or put into it with each
trigger, and a block that changes moves its flows one by one.
-/

namespace TickerGarden

open Checked

namespace Backend

namespace TradeFlows

open Rollup
open Tally (Counted RowsCounted Tallies sums spread)

/-! ### The groups of a trade and of a flow -/

/-- The buckets of a flow, if its block is eligible. -/
def intoBuckets (ok : Bytes32 → Bool) (k : FlowKey) : List BucketKey :=
  if ok k.blockHash then widths.map (bucketKey k) else []

theorem intoBuckets_congr {ok ok' : Bytes32 → Bool} {k : FlowKey}
    (h : ok k.blockHash = ok' k.blockHash) : intoBuckets ok k = intoBuckets ok' k := by
  rw [intoBuckets, intoBuckets, h]

/-- What a trade adds, with its flow. -/
def share (r : TradeKey × TradeRow) : FlowKey × Sums := (flowKey r.1 r.2, contribution r.2)

theorem nodup_bucketKeys (k : FlowKey) : (widths.map (bucketKey k)).Nodup := by
  refine List.Nodup.map ?_ (by decide)
  intro w w' h
  exact congrArg BucketKey.bucketSeconds h

theorem nodup_intoBuckets (ok : Bytes32 → Bool) (k : FlowKey) : (intoBuckets ok k).Nodup := by
  rw [intoBuckets]
  split
  · exact nodup_bucketKeys k
  · exact List.nodup_nil

theorem tradeCount_contribution (r : TradeRow) : 0 < tradeCount (contribution r) :=
  Int.one_pos

theorem counted_share (bag : List (TradeKey × TradeRow)) :
    ∀ d ∈ bag.map share, 0 < tradeCount d.2 := by
  intro d hd
  obtain ⟨r, -, rfl⟩ := List.mem_map.mp hd
  exact tradeCount_contribution r.2

/-- What the trades of a bag add to a flow. -/
def flowSums (bag : List (TradeKey × TradeRow)) (k : FlowKey) : Sums := sumOf (bag.map share) k

theorem flowSums_cons (r : TradeKey × TradeRow) (bag : List (TradeKey × TradeRow)) (k : FlowKey) :
    flowSums (r :: bag) k = flowSums bag k + if (share r).1 = k then (share r).2 else 0 := by
  rw [add_comm]
  rfl

theorem flowSums_perm {bag bag' : List (TradeKey × TradeRow)} (h : bag.Perm bag') (k : FlowKey) :
    flowSums bag k = flowSums bag' k :=
  ((h.map share).map _).sum_eq

theorem counted_flowSums (bag : List (TradeKey × TradeRow)) (k : FlowKey) :
    Counted tradeCount (flowSums bag k) :=
  Counted.sumOf (fun d hd => Counted.of_pos (counted_share bag d hd)) k

/-- A flow has a count exactly if it has a trade. -/
theorem tradeCount_flowSums {bag : List (TradeKey × TradeRow)} {k : FlowKey} :
    tradeCount (flowSums bag k) ≠ 0 ↔ ∃ r ∈ bag, flowKey r.1 r.2 = k := by
  rw [flowSums, Tally.count_sumOf_ne_zero (counted_share bag), List.map_map, List.mem_map]
  exact Iff.rfl

/-! ### One flow is written -/

/-- **The flows and the buckets are sound** for a bag of trades. -/
structure FlowSound (t : Tables) (bag : List (TradeKey × TradeRow)) : Prop where
  rollups : Tallies tradeCount t.rollups (flowSums bag)
  buckets : Tallies tradeCount t.buckets (sums (intoBuckets (eligible t.blocks)) t.rollups)

section Flows

variable {t : Tables} {bag bag' : List (TradeKey × TradeRow)} {k : FlowKey} {x : Sums}

theorem FlowSound.congr (h : FlowSound t bag) (hsums : ∀ k, flowSums bag k = flowSums bag' k) :
    FlowSound t bag' where
  rollups := h.rollups.congr hsums
  buckets := h.buckets

theorem FlowSound.perm (h : FlowSound t bag) (hperm : bag.Perm bag') : FlowSound t bag' :=
  h.congr (flowSums_perm hperm)

/-- A row of a tally has the sums of its group. -/
theorem rowsCounted_of_tallies {m : Table FlowKey Sums} (h : Tallies tradeCount m (flowSums bag)) :
    RowsCounted tradeCount m := by
  intro e he
  have hlookup : m.lookup e.1 = some e.2 := Option.mem_def.mp (AList.mem_lookup_iff.mpr he)
  have hamount := h.amount_eq e.1
  rw [amount, hlookup, Option.getD_some] at hamount
  rw [hamount]
  exact counted_flowSums bag e.1

theorem adjust_eq_spread (blocks : Table Bytes32 ChainBlock) (buckets : Table BucketKey Sums)
    (k : FlowKey) (x : Sums) :
    (if eligible blocks k.blockHash then adjustTradeBucket buckets k x else buckets)
      = spread tradeCount buckets (intoBuckets (eligible blocks) k) x := by
  rw [intoBuckets]
  split
  · rfl
  · rfl

/-- **A flow is inserted or updated**: its buckets follow. -/
theorem buckets_upsertFlow
    (h : Tallies tradeCount t.buckets (sums (intoBuckets (eligible t.blocks)) t.rollups))
    (hm : RowsCounted tradeCount t.rollups) (hx : Counted tradeCount (amount t.rollups k + x)) :
    Tallies tradeCount (upsertFlow t k x).buckets
      (sums (intoBuckets (eligible t.blocks)) (upsertFlow t k x).rollups) := by
  have heq : (upsertFlow t k x).buckets = spread tradeCount
      ((t.rollups.lookup k).elim t.buckets fun old =>
        spread tradeCount t.buckets (intoBuckets (eligible t.blocks) k) (-old))
      (intoBuckets (eligible t.blocks) k) (amount t.rollups k + x) := by
    rw [upsertFlow]
    dsimp only
    cases t.rollups.lookup k with
    | none => exact adjust_eq_spread _ _ _ _
    | some old =>
      rw [Option.elim_some, ← adjust_eq_spread, ← adjust_eq_spread]
      rfl
  rw [heq]
  exact h.replace (nodup_intoBuckets _) hm hx

/-- **A trade is put into the bag.** -/
theorem FlowSound.put (h : FlowSound t bag) (r : TradeKey × TradeRow) :
    FlowSound (addTrade t r) (r :: bag) := by
  have hcounted : Counted tradeCount (amount t.rollups (flowKey r.1 r.2) + contribution r.2) := by
    have hsum := flowSums_cons r bag (flowKey r.1 r.2)
    rw [share, if_pos rfl] at hsum
    rw [h.rollups.amount_eq, ← hsum]
    exact counted_flowSums _ _
  refine ⟨?_, buckets_upsertFlow h.buckets (rowsCounted_of_tallies h.rollups) hcounted⟩
  refine h.rollups.add (d := share r) (flowSums_cons r bag) ?_
  exact tradeCount_flowSums.mpr ⟨r, List.mem_cons_self, rfl⟩

/-- **A trade is taken out of the bag**: its flow is deleted with its last trade. -/
theorem FlowSound.remove {r : TradeKey × TradeRow} (h : FlowSound t (r :: bag)) :
    FlowSound (subtractTrade t r) bag := by
  let k := flowKey r.1 r.2
  have hsums : ∀ j, flowSums bag j
      = flowSums (r :: bag) j + if k = j then -contribution r.2 else 0 := fun j => by
    rw [flowSums_cons, share]
    dsimp only
    split
    · rw [add_neg_cancel_right]
    · rw [add_zero, add_zero]
  have hamount : amount t.rollups k + -contribution r.2 = flowSums bag k := by
    rw [h.rollups.amount_eq, hsums, if_pos rfl]
  have hcounted : Counted tradeCount (amount t.rollups k + -contribution r.2) := by
    rw [hamount]
    exact counted_flowSums bag k
  have hrows := rowsCounted_of_tallies h.rollups
  have hbuckets := buckets_upsertFlow (k := k) h.buckets hrows hcounted
  have hadjusted : Tallies tradeCount
      (Tally.adjust tradeCount t.rollups (k, -contribution r.2)) (flowSums bag) :=
    h.rollups.adjust hsums (counted_flowSums bag k)
  rw [Tally.adjust, Tally.drop] at hadjusted
  have hlookup : (upsertFlow t k (-contribution r.2)).rollups.lookup k
      = some (amount t.rollups k + -contribution r.2) := AList.lookup_insert _
  have hupserted : amount (upsertFlow t k (-contribution r.2)).rollups k
      = amount t.rollups k + -contribution r.2 := by
    rw [amount, hlookup, Option.getD_some]
  change FlowSound (deleteEmptyFlow (upsertFlow t k (-contribution r.2)) k) bag
  rw [deleteEmptyFlow, hlookup]
  change Tallies tradeCount (if tradeCount
    (amount (upsertFlow t k (-contribution r.2)).rollups k) = 0 then
    (upsertFlow t k (-contribution r.2)).rollups.erase k
    else (upsertFlow t k (-contribution r.2)).rollups) (flowSums bag) at hadjusted
  rw [hupserted] at hadjusted
  dsimp only
  split
  · rename_i hzero
    rw [if_pos hzero] at hadjusted
    refine ⟨hadjusted, ?_⟩
    have htaken := hbuckets.retract (nodup_intoBuckets _) (hrows.insert hcounted) hlookup
    rw [← adjust_eq_spread] at htaken
    exact htaken
  · rename_i hzero
    rw [if_neg hzero] at hadjusted
    exact ⟨hadjusted, hbuckets⟩

end Flows

/-! ### A statement on the trades -/

section Trades

variable {t t' : Tables} {bag : List (TradeKey × TradeRow)}

/-- What a statement on the flows leaves alone: the trades, the blocks and the latest buys. -/
structure Beside (t t' : Tables) : Prop where
  trades : t'.trades = t.trades
  blocks : t'.blocks = t.blocks
  latestBuys : t'.latestBuys = t.latestBuys

theorem Beside.refl (t : Tables) : Beside t t := ⟨rfl, rfl, rfl⟩

theorem Beside.trans {t'' : Tables} (h : Beside t t') (h' : Beside t' t'') : Beside t t'' :=
  ⟨h'.trades.trans h.trades, h'.blocks.trans h.blocks, h'.latestBuys.trans h.latestBuys⟩

theorem beside_deleteEmptyFlow (t : Tables) (k : FlowKey) : Beside t (deleteEmptyFlow t k) := by
  rw [deleteEmptyFlow]
  split
  · exact Beside.refl t
  · split
    · exact ⟨rfl, rfl, rfl⟩
    · exact Beside.refl t

theorem beside_accumulateTradeFlow (t : Tables) (e : RowChange) :
    Beside t (accumulateTradeFlow t e) := by
  obtain ⟨old, new⟩ := e
  have hold : Beside t (old.elim t (subtractTrade t)) := by
    cases old with
    | none => exact Beside.refl t
    | some old =>
      have hupsert : Beside t (upsertFlow t (flowKey old.1 old.2) (-contribution old.2)) :=
        ⟨rfl, rfl, rfl⟩
      exact hupsert.trans (beside_deleteEmptyFlow _ _)
  cases new with
  | none => exact hold
  | some new => exact hold.trans ⟨rfl, rfl, rfl⟩

theorem beside_foldl_accumulate (t : Tables) (es : List RowChange) :
    Beside t (es.foldl accumulateTradeFlow t) := by
  induction es generalizing t with
  | nil => exact Beside.refl t
  | cons e es ih => exact (beside_accumulateTradeFlow t e).trans (ih _)

/-- **The triggers of a row.** -/
theorem FlowSound.accumulate {e : RowChange} (h : FlowSound t (e.1.toList ++ bag)) :
    FlowSound (accumulateTradeFlow t e) (e.2.toList ++ bag) := by
  obtain ⟨old, new⟩ := e
  have hold : FlowSound (old.elim t (subtractTrade t)) bag := by
    cases old with
    | none => exact h
    | some old => exact h.remove
  cases new with
  | none => exact hold
  | some new => exact hold.put new

/-- **The triggers of all rows**, one after the other: the rows that are still to come are as
they were, and those that are done are as they will be. -/
theorem FlowSound.foldl_accumulate {es : List RowChange}
    (h : FlowSound t ((es.flatMap fun e => e.1.toList) ++ bag)) :
    FlowSound (es.foldl accumulateTradeFlow t) ((es.flatMap fun e => e.2.toList) ++ bag) := by
  induction es generalizing t bag with
  | nil => exact h
  | cons e es ih =>
    rw [List.flatMap_cons, List.append_assoc] at h
    have hnext := h.accumulate.perm
      ((List.perm_append_comm_assoc e.2.toList (es.flatMap fun e => e.1.toList) bag))
    refine (ih hnext).perm ?_
    rw [List.flatMap_cons, List.append_assoc]
    exact List.perm_append_comm_assoc _ _ _

/-- The rows that the triggers are given are those of the statement. -/
theorem changes_rows {m : Table TradeKey TradeRow} (w : TradeWrite m) :
    (w.changes.flatMap fun e => e.1.toList) = w.old ∧
      (w.changes.flatMap fun e => e.2.toList) = w.new := by
  have hsome : ∀ l : List (TradeKey × TradeRow), (l.flatMap fun r => [r]) = l :=
    fun l => (List.flatMap_singleton' l)
  have hnone : ∀ l : List (TradeKey × TradeRow),
      (l.flatMap fun _ => ([] : List (TradeKey × TradeRow))) = [] :=
    fun l => List.flatMap_eq_nil_iff.mpr fun _ _ => rfl
  cases hop : w.op with
  | insert =>
    rw [TradeWrite.changes, hop, w.inserts hop]
    dsimp only
    rw [List.flatMap_map, List.flatMap_map]
    exact ⟨hnone _, hsome _⟩
  | delete =>
    rw [TradeWrite.changes, hop, w.deletes hop]
    dsimp only
    rw [List.flatMap_map, List.flatMap_map]
    exact ⟨hsome _, hnone _⟩
  | update =>
    have hlength := w.paired hop
    have hfst : (w.old.zip w.new).map Prod.fst = w.old := List.map_fst_zip hlength.le
    have hsnd : (w.old.zip w.new).map Prod.snd = w.new := List.map_snd_zip hlength.ge
    rw [TradeWrite.changes, hop]
    dsimp only
    rw [List.flatMap_map, List.flatMap_map]
    constructor
    · refine Eq.trans ?_ ((hsome _).trans hfst)
      rw [List.flatMap_map]
      rfl
    · refine Eq.trans ?_ ((hsome _).trans hsnd)
      rw [List.flatMap_map]
      rfl

/-- What the trades of a table add to a flow, as a total. -/
theorem flowSums_rowsOf (m : Table TradeKey TradeRow) (k : FlowKey) :
    flowSums (rowsOf m) k
      = total (fun key r => if flowKey key r = k then contribution r else 0) m := by
  rw [flowSums, sumOf, rowsOf, List.map_map, List.map_map]
  rfl

theorem flowSums_append (rows bag : List (TradeKey × TradeRow)) (k : FlowKey) :
    flowSums (rows ++ bag) k
      = sumRows (fun key r => if flowKey key r = k then contribution r else 0) rows
        + flowSums bag k := by
  rw [flowSums, List.map_append, sumOf_append, sumOf, List.map_map]
  rfl

/-- **The flows and the buckets follow a statement on the trades.** -/
theorem FlowSound.writeTrades (h : FlowSound t (rowsOf t.trades)) (w : TradeWrite t.trades) :
    FlowSound (w.changes.foldl accumulateTradeFlow { t with trades := w.apply })
      (rowsOf w.apply) := by
  let rest := w.old.foldl (fun m r => m.erase r.1) t.trades
  obtain ⟨hold, hnew⟩ := changes_rows w
  have hstart : FlowSound { t with trades := w.apply }
      ((w.changes.flatMap fun e => e.1.toList) ++ rowsOf rest) := by
    rw [hold]
    have hstart : FlowSound t (w.old ++ rowsOf rest) := by
      refine h.congr fun k => ?_
      rw [flowSums_append, flowSums_rowsOf, flowSums_rowsOf, add_comm]
      exact (Change.total_foldl_erase w.old_nodup w.lookup_old).symm
    exact ⟨hstart.rollups, hstart.buckets⟩
  refine (hstart.foldl_accumulate).congr fun k => ?_
  rw [hnew, flowSums_append, flowSums_rowsOf, flowSums_rowsOf, add_comm]
  exact (Change.total_foldl_insert w.new_nodup w.fresh).symm

end Trades

/-! ### A statement on the blocks -/

theorem mem_rowsOf {κ β : Type} [DecidableEq κ] {m : Table κ β} {r : κ × β} :
    r ∈ rowsOf m ↔ m.lookup r.1 = some r.2 := by
  rw [rowsOf, List.mem_map, ← Option.mem_def, AList.mem_lookup_iff]
  constructor
  · rintro ⟨e, he, rfl⟩
    exact he
  · exact fun h => ⟨_, h, rfl⟩

theorem nodup_rowsOf {κ β : Type} (m : Table κ β) : ((rowsOf m).map Prod.fst).Nodup := by
  rw [rowsOf, List.map_map]
  exact m.keys_nodup

section Blocks

variable {t t' : Tables} {ok : Bytes32 → Bool} {hash : Bytes32} {old new : ChainBlock}

/-- The buckets of the flows of a block. -/
theorem intoBuckets_update (ok : Bytes32 → Bool) (hash : Bytes32) (now : Bool) (j : FlowKey) :
    intoBuckets (Function.update ok hash now) j
      = if j.blockHash = hash then (if now then widths.map (bucketKey j) else [])
        else intoBuckets ok j := by
  rw [intoBuckets, Function.update_apply]
  split
  · rfl
  · rfl

/-- **A block becomes eligible, or is so no longer**: its flows move in or out. -/
theorem tallies_trackBlock (hm : RowsCounted tradeCount t.rollups)
    (h : Tallies tradeCount t.buckets (sums (intoBuckets ok) t.rollups))
    (hold : ok hash = old.eligible) :
    Tallies tradeCount (trackBlockTradeBuckets t hash old new).buckets
      (sums (intoBuckets (Function.update ok hash new.eligible)) t.rollups) := by
  have hnd : ((flowsOf t hash).map Prod.fst).Nodup :=
    (nodup_rowsOf t.rollups).sublist (List.Sublist.map _ List.filter_sublist)
  have hflow : ∀ r ∈ flowsOf t hash, t.rollups.lookup r.1 = some r.2 ∧ r.1.blockHash = hash := by
    intro r hr
    obtain ⟨hmem, hhash⟩ := List.mem_filter.mp hr
    exact ⟨mem_rowsOf.mp hmem, of_decide_eq_true hhash⟩
  rw [trackBlockTradeBuckets]
  split
  · rename_i hsame
    rw [← hsame, ← hold, Function.update_eq_self]
    exact h
  · rename_i hdiff
    dsimp only
    -- a flow of the block that has no row adds nothing to its buckets
    have hrest : ∀ gs : FlowKey → List BucketKey,
        sums (fun j => if j ∈ (flowsOf t hash).map Prod.fst then gs j else intoBuckets ok j) t.rollups
          = sums (fun j => if j.blockHash = hash then gs j else intoBuckets ok j) t.rollups := by
      refine fun gs => funext fun g => total_congr fun j x hj => ?_
      have hmem : j ∈ (flowsOf t hash).map Prod.fst ↔ j.blockHash = hash := by
        rw [List.mem_map]
        constructor
        · rintro ⟨r, hr, rfl⟩
          exact (hflow r hr).2
        · exact fun hhash =>
            ⟨(j, x), List.mem_filter.mpr ⟨mem_rowsOf.mpr hj, decide_eq_true hhash⟩, rfl⟩
      beta_reduce
      rw [if_congr hmem rfl rfl]
    have hinto : intoBuckets (Function.update ok hash new.eligible)
        = fun j => if j.blockHash = hash then (if new.eligible then widths.map (bucketKey j) else [])
          else intoBuckets ok j :=
      funext fun j => intoBuckets_update ok hash new.eligible j
    rw [hinto, ← hrest]
    cases hnew : new.eligible with
    | true =>
      rw [if_pos rfl]
      simp only [one_zsmul, if_true]
      refine h.admitAll nodup_bucketKeys hm hnd (fun r hr => (hflow r hr).1) ?_ fun _ => rfl
      intro r hr
      rw [intoBuckets, (hflow r hr).2, hold]
      exact if_neg fun hc => hdiff (hc.trans hnew.symm)
    | false =>
      rw [if_neg Bool.false_ne_true]
      simp only [neg_one_zsmul, Bool.false_eq_true, if_false]
      refine h.dismissAll nodup_bucketKeys hm hnd (fun r hr => (hflow r hr).1) ?_ fun _ => rfl
      intro r hr
      rw [intoBuckets, (hflow r hr).2, hold]
      exact if_pos ((Bool.not_eq_false _).mp fun hc => hdiff (hc.trans hnew.symm))

end Blocks

end TradeFlows

end Backend

end TickerGarden
