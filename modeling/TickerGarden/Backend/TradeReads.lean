import TickerGarden.Backend.LatestBuys

/-!
# The read models of the trades are exact

In every reachable state the flows are the sums of the trades, the buckets are the sums of
the flows of the blocks that are canonical and final, and the latest buys are the latest.

The invariant is `Sound`. A statement on the trades fires two triggers, the one on the flows and
the buckets before the one on the latest buys, and the proof takes them in this order
(`Sound.writeTrades`). A statement on the blocks leaves the flows as they are: new blocks have no
trades yet (`Sound.insertBlocks`), and an update moves the flows of a block into the buckets or
out of them, and repairs the latest buys of the markets that traded in it (`Sound.updateBlocks`).
The migration computes everything at once from the trades that are there (`sound_backfill`).
-/

namespace TickerGarden

open Checked Function

namespace Backend

namespace TradeFlows

open Rollup
open Tally (Counted RowsCounted Tallies sums spread)

/-- **The tables are sound**: each trade has its block, and the read models have followed. -/
structure Sound (t : Tables) : Prop where
  stored : ∀ k ∈ t.trades, k.blockHash ∈ t.blocks
  flows : FlowSound t (rowsOf t.trades)
  buys : ∀ market, BuySound t market

section Steps

variable {t t' : Tables} {bag : List (TradeKey × TradeRow)}

theorem FlowSound.refreshes (h : FlowSound t bag) (hr : Refreshes t t') : FlowSound t' bag := by
  refine ⟨?_, ?_⟩
  · rw [hr.rollups]
    exact h.rollups
  · rw [hr.rollups, hr.buckets, hr.blocks]
    exact h.buckets

/-- A flow that has a row has a trade. -/
theorem FlowSound.mem_rollups (h : FlowSound t bag) {k : FlowKey} :
    k ∈ t.rollups ↔ ∃ r ∈ bag, flowKey r.1 r.2 = k := by
  rw [h.rollups.mem_iff, tradeCount_flowSums]

/-- **A statement on the trades.** -/
theorem Sound.writeTrades (h : Sound t) {w : TradeWrite t.trades}
    (hok : TradeFlows.writeTrades t w = .ok t') : Sound t' := by
  rw [TradeFlows.writeTrades, throwIf] at hok
  obtain ⟨u, hstored, hok⟩ := bind_eq_ok.mp hok
  have hblocks : ∀ r ∈ w.new, r.1.blockHash ∈ t.blocks := fun r hr => by
    by_contra hnot
    exact revertIf_eq_ok.mp hstored ⟨r, hr, hnot⟩
  let t₁ := w.changes.foldl accumulateTradeFlow { t with trades := w.apply }
  have hbeside : Beside { t with trades := w.apply } t₁ := beside_foldl_accumulate _ _
  have hflows : FlowSound t₁ (rowsOf w.apply) := h.flows.writeTrades w
  have hkeys : ∀ k ∈ w.apply, k.blockHash ∈ t.blocks := fun k hk => by
    obtain ⟨b, hb⟩ := Option.isSome_iff_exists.mp (AList.lookup_isSome.mpr hk)
    rcases w.toChange.lookup_apply.mp hb with hmem | ⟨hlookup, -⟩
    · exact hblocks _ hmem
    · exact h.stored k (AList.lookup_isSome.mp (hlookup ▸ rfl))
  -- what is left to show of each kind of statement is how it finds the latest buys
  have hsound : ∀ t₂, Refreshes t₁ t₂ → (∀ market, market ∈ marketsOf w.old ∨
      market ∈ marketsOf w.new → BuySound t₂ market) → (∀ market, market ∉ marketsOf w.old →
      market ∉ marketsOf w.new → t₂.latestBuys.lookup market = t₁.latestBuys.lookup market) →
      Sound t₂ := by
    intro t₂ hr htouched hkept
    have htrades : t₂.trades = w.apply := hr.trades.trans hbeside.trades
    have hsame : t₂.blocks = t.blocks := hr.blocks.trans hbeside.blocks
    refine ⟨?_, ?_, fun market => ?_⟩
    · rw [htrades, hsame]
      exact hkeys
    · rw [htrades]
      exact hflows.refreshes hr
    · by_cases hold : market ∈ marketsOf w.old
      · exact htouched market (Or.inl hold)
      · by_cases hnew : market ∈ marketsOf w.new
        · exact htouched market (Or.inr hnew)
        · exact (h.buys market).untouched w hold hnew htrades hsame
            ((hkept market hold hnew).trans (congrArg (AList.lookup market) hbeside.latestBuys))
  cases hop : w.op with
  | insert =>
    rw [hop] at hok
    cases hok
    have hnone : w.old = [] := w.inserts hop
    have hlookup : ∀ market, (insertLatestBuys t₁ w.new).latestBuys.lookup market
        = if market ∈ marketsOf w.new then raised t₁.blocks w.new market
          (t₁.latestBuys.lookup market) else t₁.latestBuys.lookup market :=
      fun market => lookup_foldl_raise (List.nodup_dedup _)
    refine hsound _ ⟨rfl, rfl, rfl, rfl⟩ ?_ ?_
    · intro market hmarket
      have hmem : market ∈ marketsOf w.new := hmarket.resolve_left fun hc => by
        rw [hnone] at hc
        exact List.not_mem_nil hc
      intro hplaced
      change PlacedMarket t₁.blocks (rowsOf t₁.trades) market at hplaced
      change IsLatest (buysOf t₁.blocks (rowsOf t₁.trades) market) _
      rw [hbeside.trades, hbeside.blocks] at hplaced ⊢
      rw [hlookup, if_pos hmem, hbeside.blocks, hbeside.latestBuys]
      have hall : ∀ r, r ∈ rowsOf w.apply ↔ r ∈ w.new ∨ r ∈ rowsOf t.trades := fun r => by
        rw [mem_rowsOf_apply, hnone]
        exact or_congr_right (and_iff_left List.not_mem_nil)
      refine isLatest_raised hall hplaced (h.buys market fun r hr hm => ?_)
      exact hplaced r ((hall r).mpr (Or.inr hr)) hm
    · intro market _ hnew
      rw [hlookup, if_neg hnew]
  | delete =>
    rw [hop] at hok
    cases hok
    have hr : Refreshes t₁ (repairLatestBuys t₁ w.old) := refreshes_foldl _ _
    refine hsound (repairLatestBuys t₁ w.old) hr ?_ ?_
    · intro market hmarket
      have hmem : market ∈ marketsOf w.old := hmarket.resolve_right fun hc => by
        rw [w.deletes hop] at hc
        exact List.not_mem_nil hc
      refine buySound_of_refreshed ?_
      rw [lookup_repairLatestBuys, if_pos hmem, hr.blocks, hr.trades]
    · intro market hold _
      rw [lookup_repairLatestBuys, if_neg hold]
  | update =>
    rw [hop] at hok
    cases hok
    have hr : Refreshes t₁ (repairLatestBuys t₁ w.old) := refreshes_foldl _ _
    have hr' : Refreshes _ (repairLatestBuys (repairLatestBuys t₁ w.old) w.new) :=
      refreshes_foldl _ _
    refine hsound (repairLatestBuys (repairLatestBuys t₁ w.old) w.new) (hr.trans hr') ?_ ?_
    · intro market hmarket
      refine buySound_of_refreshed ?_
      rw [lookup_repairLatestBuys, lookup_repairLatestBuys, hr'.blocks, hr'.trades, hr.blocks,
        hr.trades]
      split
      · rfl
      · rename_i hnew
        rw [if_pos (hmarket.resolve_right hnew)]
    · intro market hold hnew
      rw [lookup_repairLatestBuys, if_neg hnew, lookup_repairLatestBuys, if_neg hold]

/-- **The blocks change, but not those of the trades.** -/
theorem Sound.withBlocks (h : Sound t) {blocks : Table Bytes32 ChainBlock}
    (hsame : ∀ hash ∈ t.blocks, blocks.lookup hash = t.blocks.lookup hash) :
    Sound { t with blocks } := by
  have hstored : ∀ r ∈ rowsOf t.trades,
      blocks.lookup r.1.blockHash = t.blocks.lookup r.1.blockHash := fun r hr =>
    hsame _ (h.stored r.1 (AList.lookup_isSome.mp (mem_rowsOf.mp hr ▸ rfl)))
  have hlatest : ∀ r ∈ rowsOf t.trades, latestBuy blocks r.1 r.2 = latestBuy t.blocks r.1 r.2 :=
    fun r hr => by rw [latestBuy, latestBuy, hstored r hr]
  refine ⟨fun k hk => ?_, ⟨h.flows.rollups, ?_⟩, fun market => ?_⟩
  · have hmem := h.stored k hk
    rw [← AList.lookup_isSome] at hmem ⊢
    rwa [hsame _ (h.stored k hk)]
  · refine h.flows.buckets.congr fun g => total_congr fun k x hk => ?_
    -- a flow that has a row has a trade, and that has its block
    have hmem : k ∈ t.rollups := AList.lookup_isSome.mp (by rw [hk]; rfl)
    obtain ⟨r, hr, rfl⟩ := h.flows.mem_rollups.mp hmem
    have hinto : intoBuckets (eligible blocks) (flowKey r.1 r.2)
        = intoBuckets (eligible t.blocks) (flowKey r.1 r.2) := by
      refine intoBuckets_congr ?_
      rw [eligible, eligible]
      exact congrArg (Option.elim · false ChainBlock.eligible) (hstored r hr)
    simp only [hinto]
  · refine (h.buys market).keep rfl ?_ ?_
    · intro hplaced r hr hm
      have hat := hplaced r hr hm
      refine ⟨fun b hb => hat.number b ?_, hat.transactionIndex, hat.logIndex⟩
      exact (hstored r hr).trans hb
    · intro buy
      rw [mem_buysOf, mem_buysOf]
      refine exists_congr fun r => and_congr_right fun hr => and_congr_right fun _ => ?_
      change _ ↔ latestBuy blocks r.1 r.2 = some buy
      rw [hlatest r hr]

/-- **New blocks.** -/
theorem Sound.insertBlocks (h : Sound t) {w : Write t.blocks} (hop : w.op = .insert)
    (hok : TradeFlows.insertBlocks t w = .ok t') : Sound t' := by
  rw [TradeFlows.insertBlocks] at hok
  obtain ⟨u, -, hok⟩ := bind_eq_ok.mp hok
  cases hok
  refine h.withBlocks fun hash hmem => ?_
  obtain ⟨b, hb⟩ := Option.isSome_iff_exists.mp (AList.lookup_isSome.mpr hmem)
  rw [hb]
  refine w.toChange.lookup_apply.mpr (Or.inr ⟨hb, ?_⟩)
  rw [w.inserts hop]
  exact List.not_mem_nil

/-- The markets that are repaired after some blocks have changed. -/
def repairedBy (u : BlockUpdate) (t : Tables) (rs : List (Bytes32 × ChainBlock)) : List Bytes32 :=
  rs.flatMap fun r =>
    if r.2.canonical = (u.set r.1 r.2).canonical ∧ r.2.finalized = (u.set r.1 r.2).finalized then []
    else marketsBought t r.1

/-- **The triggers of the blocks**, one after the other: the flows move in or out, and the
markets are refreshed. -/
structure BlocksChanged (u : BlockUpdate) (rs : List (Bytes32 × ChainBlock))
    (ok : Bytes32 → Bool) (t t' : Tables) : Prop where
  trades : t'.trades = t.trades
  blocks : t'.blocks = t.blocks
  rollups : t'.rollups = t.rollups
  buckets : Tallies tradeCount t'.buckets (sums (intoBuckets ok) t.rollups)
  latestBuys : ∀ market, t'.latestBuys.lookup market
    = if market ∈ repairedBy u t rs then refreshed t.blocks (rowsOf t.trades) market
      else t.latestBuys.lookup market

/-- What the triggers of one block do. -/
theorem blockChanged_spec (u : BlockUpdate) {ok : Bytes32 → Bool} {r : Bytes32 × ChainBlock}
    (hm : RowsCounted tradeCount t.rollups)
    (h : Tallies tradeCount t.buckets (sums (intoBuckets ok) t.rollups))
    (hr : ok r.1 = r.2.eligible) :
    BlocksChanged u [r] (update ok r.1 (u.set r.1 r.2).eligible) t (blockChanged u t r) := by
  let t₁ := trackBlockTradeBuckets t r.1 r.2 (u.set r.1 r.2)
  have hbuckets : Tallies tradeCount t₁.buckets
      (sums (intoBuckets (update ok r.1 (u.set r.1 r.2).eligible)) t.rollups) :=
    tallies_trackBlock hm h hr
  have htrack : t₁.trades = t.trades ∧ t₁.blocks = t.blocks ∧ t₁.rollups = t.rollups ∧
      t₁.latestBuys = t.latestBuys := by
    dsimp only [t₁]
    rw [trackBlockTradeBuckets]
    split
    · exact ⟨rfl, rfl, rfl, rfl⟩
    · exact ⟨rfl, rfl, rfl, rfl⟩
  obtain ⟨htrades, hblocks, hrollups, hlatest⟩ := htrack
  have hmarkets : marketsBought t₁ r.1 = marketsBought t r.1 := by
    rw [marketsBought, marketsBought, htrades]
  have hmem : ∀ market, market ∈ repairedBy u t [r] ↔ ¬(r.2.canonical = (u.set r.1 r.2).canonical ∧
      r.2.finalized = (u.set r.1 r.2).finalized) ∧ market ∈ marketsBought t r.1 := fun market => by
    rw [repairedBy, List.flatMap_singleton]
    split
    · rename_i hsame
      exact iff_of_false List.not_mem_nil fun hc => hc.1 hsame
    · rename_i hdiff
      exact (and_iff_right hdiff).symm
  rw [blockChanged]
  change BlocksChanged u [r] _ t (repairBuysAfterChainChange t₁ r.1 r.2 (u.set r.1 r.2))
  rw [repairBuysAfterChainChange]
  split
  · rename_i hsame
    refine ⟨htrades, hblocks, hrollups, hbuckets, fun market => ?_⟩
    rw [hlatest, if_neg fun hc => ((hmem market).mp hc).1 hsame]
  · rename_i hdiff
    have hrefresh := refreshes_foldl t₁ (marketsBought t₁ r.1)
    refine ⟨hrefresh.trades.trans htrades, hrefresh.blocks.trans hblocks,
      hrefresh.rollups.trans hrollups, hrefresh.buckets ▸ hbuckets, fun market => ?_⟩
    rw [lookup_foldl_refresh, hblocks, htrades, hlatest, hmarkets]
    exact if_congr ((and_iff_right hdiff).symm.trans (hmem market).symm) rfl rfl

/-- The triggers of several blocks. -/
theorem foldl_blockChanged (u : BlockUpdate) {rs : List (Bytes32 × ChainBlock)}
    {ok ok' : Bytes32 → Bool} (hnd : (rs.map Prod.fst).Nodup)
    (hm : RowsCounted tradeCount t.rollups)
    (h : Tallies tradeCount t.buckets (sums (intoBuckets ok) t.rollups))
    (hok : ∀ r ∈ rs, ok r.1 = r.2.eligible)
    (hnew : ∀ r ∈ rs, ok' r.1 = (u.set r.1 r.2).eligible)
    (hother : ∀ hash, hash ∉ rs.map Prod.fst → ok' hash = ok hash) :
    BlocksChanged u rs ok' t (rs.foldl (blockChanged u) t) := by
  induction rs generalizing t ok with
  | nil =>
    obtain rfl : ok' = ok := funext fun hash => hother hash List.not_mem_nil
    exact ⟨rfl, rfl, rfl, h, fun market => (if_neg List.not_mem_nil).symm⟩
  | cons r rs ih =>
    obtain ⟨hr, hnd⟩ := List.nodup_cons.mp hnd
    have hfirst := blockChanged_spec u hm h (hok r List.mem_cons_self)
    have hne : ∀ x ∈ rs, x.1 ≠ r.1 := fun x hx hc => hr (hc ▸ List.mem_map_of_mem hx)
    have hrest := ih (t := blockChanged u t r) hnd (hfirst.rollups ▸ hm)
      (hfirst.rollups ▸ hfirst.buckets) (fun x hx => by
        rw [update_of_ne (hne x hx)]
        exact hok x (List.mem_cons_of_mem r hx))
      (fun x hx => hnew x (List.mem_cons_of_mem r hx)) fun hash hnot => by
        rcases eq_or_ne hash r.1 with rfl | hdiff
        · rw [update_self]
          exact hnew r List.mem_cons_self
        · rw [update_of_ne hdiff]
          exact hother hash fun hc => (List.mem_cons.mp hc).elim hdiff hnot
    refine ⟨hrest.trades.trans hfirst.trades, hrest.blocks.trans hfirst.blocks,
      hrest.rollups.trans hfirst.rollups, hfirst.rollups ▸ hrest.buckets, fun market => ?_⟩
    have hrepaired : repairedBy u (blockChanged u t r) rs = repairedBy u t rs := by
      refine List.flatMap_congr fun x _ => ?_
      rw [marketsBought, marketsBought, hfirst.trades]
    have happend : repairedBy u t (r :: rs) = repairedBy u t [r] ++ repairedBy u t rs := by
      show repairedBy u t ([r] ++ rs) = _
      exact List.flatMap_append
    rw [List.foldl_cons, hrest.latestBuys, hrepaired, hfirst.blocks, hfirst.trades,
      hfirst.latestBuys, happend]
    by_cases hlater : market ∈ repairedBy u t rs
    · rw [if_pos hlater, if_pos (List.mem_append_right _ hlater)]
    · rw [if_neg hlater]
      exact if_congr (List.mem_append.trans (or_iff_left hlater)).symm rfl rfl

/-- What an update leaves of a block. -/
theorem number_set (u : BlockUpdate) (hash : Bytes32) (b : ChainBlock) :
    (u.set hash b).number = b.number := by
  rw [BlockUpdate.set]
  split
  · rfl
  · rfl

theorem set_of_none {u : BlockUpdate} {hash : Bytes32} {b : ChainBlock} (h : u hash b = none) :
    u.set hash b = b := by
  rw [BlockUpdate.set, h]

/-- **Blocks become canonical or final**, or are so no longer. -/
theorem Sound.updateBlocks (h : Sound t) {u : BlockUpdate}
    (hok : TradeFlows.updateBlocks t u = .ok t') : Sound t' := by
  rw [TradeFlows.updateBlocks] at hok
  obtain ⟨_, -, hok⟩ := bind_eq_ok.mp hok
  cases hok
  let blocks := Table.map u.set t.blocks
  let rs := u.rows t.blocks
  have hnd : (rs.map Prod.fst).Nodup :=
    (nodup_rowsOf t.blocks).sublist (List.Sublist.map _ List.filter_sublist)
  have hrs : ∀ r ∈ rs, t.blocks.lookup r.1 = some r.2 := fun r hr =>
    mem_rowsOf.mp (List.mem_of_mem_filter hr)
  have hlookup : ∀ hash, blocks.lookup hash = (t.blocks.lookup hash).map (u.set hash) :=
    fun hash => Table.lookup_map u.set t.blocks hash
  -- a block that the update does not select is as it was
  have hunselected : ∀ hash b, t.blocks.lookup hash = some b → (hash, b) ∉ rs → u.set hash b = b :=
    fun hash b hb hnot => by
      refine set_of_none ?_
      by_contra hsome
      exact hnot (List.mem_filter.mpr ⟨mem_rowsOf.mpr hb, Option.isSome_iff_ne_none.mpr hsome⟩)
  have hchanged : BlocksChanged u rs (eligible blocks) { t with blocks }
      (rs.foldl (blockChanged u) { t with blocks }) := by
    refine foldl_blockChanged u hnd (rowsCounted_of_tallies h.flows.rollups) h.flows.buckets
      (fun r hr => ?_) (fun r hr => ?_) fun hash hnot => ?_
    · rw [eligible, hrs r hr, Option.elim_some]
    · rw [eligible, hlookup, hrs r hr, Option.map_some, Option.elim_some]
    · rw [eligible, eligible, hlookup]
      cases hb : t.blocks.lookup hash with
      | none => rfl
      | some b =>
        rw [Option.map_some, Option.elim_some, Option.elim_some, hunselected hash b hb
          fun hc => hnot (List.mem_map_of_mem (f := Prod.fst) hc)]
  let t₁ := rs.foldl (blockChanged u) { t with blocks }
  change Sound t₁
  have htrades : t₁.trades = t.trades := hchanged.trades
  have hblocks : t₁.blocks = blocks := hchanged.blocks
  have hrollups : t₁.rollups = t.rollups := hchanged.rollups
  refine ⟨?_, ⟨?_, ?_⟩, fun market => ?_⟩
  · rw [htrades, hblocks]
    intro k hk
    have hmem := h.stored k hk
    rw [← AList.lookup_isSome] at hmem ⊢
    rwa [hlookup, Option.isSome_map]
  · rw [hrollups, htrades]
    exact h.flows.rollups
  · rw [hrollups, hblocks]
    exact hchanged.buckets
  · have hlatest := hchanged.latestBuys market
    change t₁.latestBuys.lookup market = if market ∈ repairedBy u { t with blocks } rs then
      refreshed blocks (rowsOf t.trades) market else t.latestBuys.lookup market at hlatest
    by_cases hmem : market ∈ repairedBy u { t with blocks } rs
    · refine buySound_of_refreshed ?_
      rw [hlatest, if_pos hmem, hblocks, htrades]
    · rw [if_neg hmem] at hlatest
      refine (h.buys market).keep hlatest ?_ ?_
      · rw [hblocks, htrades]
        intro hplaced r hr hm
        have hat := hplaced r hr hm
        refine ⟨fun b hb => ?_, hat.transactionIndex, hat.logIndex⟩
        rw [hat.number (u.set r.1.blockHash b) (by rw [hlookup, hb]; rfl), number_set]
      · -- the blocks of its buys are as they were
        rw [hblocks, htrades]
        intro buy
        rw [mem_buysOf, mem_buysOf]
        refine exists_congr fun r => and_congr_right fun hr => and_congr_right fun hm => ?_
        rw [latestBuy_eq_some, latestBuy_eq_some, hlookup]
        cases hb : t.blocks.lookup r.1.blockHash with
        | none =>
          refine iff_of_false ?_ ?_
          · rintro ⟨b, hc, -⟩
            cases hc
          · rintro ⟨b, hc, -⟩
            cases hc
        | some b =>
          by_cases hside : r.2.payload.side = .buy
          · have hsame : b.canonical = (u.set r.1.blockHash b).canonical ∧
                b.finalized = (u.set r.1.blockHash b).finalized := by
              by_cases hsel : (r.1.blockHash, b) ∈ rs
              · by_contra hdiff
                refine hmem (List.mem_flatMap.mpr ⟨_, hsel, ?_⟩)
                rw [if_neg hdiff]
                exact mem_marketsOf.mpr ⟨r, List.mem_filter.mpr
                  ⟨hr, decide_eq_true ⟨rfl, hside⟩⟩, hm⟩
              · rw [hunselected _ b hb hsel]
                exact ⟨rfl, rfl⟩
            have heq : u.set r.1.blockHash b = b := by
              have hnumber := number_set u r.1.blockHash b
              cases hset : u.set r.1.blockHash b with
              | mk number canonical finalized =>
                rw [hset] at hsame hnumber
                obtain ⟨hc, hf⟩ := hsame
                cases b
                cases hnumber
                cases hc
                cases hf
                rfl
            rw [Option.map_some, heq]
          · refine iff_of_false ?_ ?_
            · rintro ⟨b', -, hq, -⟩
              exact hside hq.2.1
            · rintro ⟨b', -, hq, -⟩
              exact hside hq.2.1

end Steps

/-- **What the migrations fill is sound.** -/
theorem sound_backfill {trades : Table TradeKey TradeRow} {blocks : Table Bytes32 ChainBlock}
    (h : ∀ k ∈ trades, k.blockHash ∈ blocks) : Sound (backfill trades blocks) := by
  have hflows : Tallies tradeCount (backfillFlows trades) (flowSums (rowsOf trades)) :=
    Tallies.backfill (counted_share (rowsOf trades))
  refine ⟨h, ⟨hflows, ?_⟩, fun market _ => ?_⟩
  · let rollups := backfillFlows trades
    have hrows : ((rowsOf rollups).filter fun r => eligible blocks r.1.blockHash).flatMap
        (fun r => widths.map fun width => (bucketKey r.1 width, r.2))
        = rollups.entries.flatMap fun e =>
          (intoBuckets (eligible blocks) e.1).map fun g => (g, e.2) := by
      rw [rowsOf]
      induction rollups.entries with
      | nil => rfl
      | cons e l ih =>
        rw [List.map_cons, List.flatMap_cons, ← ih, intoBuckets, List.filter_cons]
        split
        · rw [List.flatMap_cons, List.map_map]
          rfl
        · rfl
    have hcounted : ∀ d ∈ rollups.entries.flatMap fun e =>
        (intoBuckets (eligible blocks) e.1).map fun g => (g, e.2), 0 < tradeCount d.2 := by
      intro d hd
      obtain ⟨e, he, hd⟩ := List.mem_flatMap.mp hd
      obtain ⟨g, -, rfl⟩ := List.mem_map.mp hd
      have hlookup : rollups.lookup e.1 = some e.2 :=
        Option.mem_def.mp (AList.mem_lookup_iff.mpr he)
      have hamount := hflows.amount_eq e.1
      have hcount := (hflows.mem_iff e.1).mp (AList.lookup_isSome.mp (hlookup ▸ rfl))
      rw [← hamount, amount, hlookup, Option.getD_some] at hcount
      exact lt_of_le_of_ne (rowsCounted_of_tallies hflows e he).nonneg hcount.symm
    have hbuckets := Tallies.backfill hcounted
    rw [← hrows] at hbuckets
    refine hbuckets.congr fun g => ?_
    rw [hrows]
    exact Tally.sumOf_flatMap (nodup_intoBuckets _) rollups g
  · have hlookup : (backfillBuys blocks trades).lookup market
        = if market ∈ marketsOf (rowsOf trades) then latestOf blocks (rowsOf trades) market
          else (∅ : Table Bytes32 LatestBuy).lookup market :=
      lookup_foldl_insert (List.nodup_dedup _) fun _ _ => rfl
    change IsLatest _ ((backfillBuys blocks trades).lookup market)
    have hlatest := isLatest_latestOf blocks (rowsOf trades) market
    rw [hlookup]
    split
    · exact hlatest
    · rename_i hnot
      refine List.eq_nil_iff_forall_not_mem.mpr fun buy hbuy => ?_
      obtain ⟨r, hr, hm, -⟩ := mem_buysOf.mp hbuy
      exact hnot (mem_marketsOf.mpr ⟨r, hr, hm⟩)

/-- **The read models of every reachable state are sound.** -/
theorem sound_of_reachable {t : Tables} (h : Reachable t) : Sound t := by
  refine Transition.Reachable.invariant ?_ ?_ h
  · rintro t ⟨trades, blocks, hstored, rfl⟩
    exact sound_backfill hstored
  · rintro t ⟨⟩ t' hsound hstep
    cases hstep with
    | trades w hok => exact hsound.writeTrades hok
    | blocks w hop hok => exact hsound.insertBlocks hop hok
    | canonical u hok => exact hsound.updateBlocks hok

end TradeFlows

end Backend

end TickerGarden
