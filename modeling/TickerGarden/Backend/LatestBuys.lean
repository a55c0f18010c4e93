import TickerGarden.Backend.TradeRollups

/-!
# The latest buys follow the trades

A statement on the trades, or on the blocks, finds the latest buy of a market in one of two
ways: it looks through all trades of the market, or compares the new trades with the row that
is there. The first goes by what the records of the trades say about their block, and the
second compares positions, each of which packs a transaction and a log in 32 bits. Both are
right for a market whose trades are **placed**, `TickerGarden.Backend.TradeFlows.PlacedMarket`.
-/

namespace TickerGarden

open Checked

namespace Backend

namespace TradeFlows

open Rollup

/-! ### The latest of some buys -/

/-- Where a buy is. -/
def LatestBuy.place (buy : LatestBuy) : Place :=
  TradeFlows.place buy.blockNumber buy.transactionIndex buy.logIndex

/-- The buys of a market that qualify. -/
def buysOf (blocks : Table Bytes32 ChainBlock) (rows : List (TradeKey × TradeRow))
    (market : Bytes32) : List LatestBuy :=
  (qualifying blocks rows market).map Prod.snd

/-- **The latest of some buys**: none if there is none, and otherwise one that no other is
after. -/
def IsLatest (buys : List LatestBuy) : Option LatestBuy → Prop
  | none => buys = []
  | some buy => buy ∈ buys ∧ ∀ other ∈ buys, other.place ≤ buy.place

/-- **A trade is placed**: its record has the number of its block, and its transaction and its
log have 32 bits. -/
structure Placed (blocks : Table Bytes32 ChainBlock) (k : TradeKey) (r : TradeRow) : Prop where
  number : ∀ b, blocks.lookup k.blockHash = some b → r.payload.source.blockNumber = b.number
  transactionIndex : r.payload.source.transactionIndex < 4294967296
  logIndex : k.logIndex < 4294967296

/-- The trades of a market are placed. -/
def PlacedMarket (blocks : Table Bytes32 ChainBlock) (rows : List (TradeKey × TradeRow))
    (market : Bytes32) : Prop :=
  ∀ r ∈ rows, r.2.marketId = market → Placed blocks r.1 r.2

section Latest

variable {blocks : Table Bytes32 ChainBlock} {rows rows' : List (TradeKey × TradeRow)}
  {market : Bytes32} {buy buy' : LatestBuy}

theorem mem_qualifying {c : (TradeKey × TradeRow) × LatestBuy} :
    c ∈ qualifying blocks rows market
      ↔ c.1 ∈ rows ∧ c.1.2.marketId = market ∧ latestBuy blocks c.1.1 c.1.2 = some c.2 := by
  rw [qualifying, List.mem_filterMap]
  constructor
  · rintro ⟨r, hr, hc⟩
    obtain ⟨hmem, hmarket⟩ := List.mem_filter.mp hr
    obtain ⟨buy, hbuy, rfl⟩ := Option.map_eq_some_iff.mp hc
    exact ⟨hmem, of_decide_eq_true hmarket, hbuy⟩
  · rintro ⟨hmem, hmarket, hbuy⟩
    exact ⟨c.1, List.mem_filter.mpr ⟨hmem, decide_eq_true hmarket⟩,
      Option.map_eq_some_iff.mpr ⟨c.2, hbuy, rfl⟩⟩

theorem mem_buysOf : buy ∈ buysOf blocks rows market
    ↔ ∃ r ∈ rows, r.2.marketId = market ∧ latestBuy blocks r.1 r.2 = some buy := by
  rw [buysOf, List.mem_map]
  constructor
  · rintro ⟨c, hc, rfl⟩
    exact ⟨c.1, mem_qualifying.mp hc⟩
  · rintro ⟨r, hr⟩
    exact ⟨(r, buy), mem_qualifying.mpr hr, rfl⟩

/-- What qualifies, and what is recorded of it. -/
theorem latestBuy_eq_some {k : TradeKey} {r : TradeRow} :
    latestBuy blocks k r = some buy ↔ ∃ b, blocks.lookup k.blockHash = some b ∧
      (b.eligible ∧ r.payload.side = .buy ∧ r.classification = .unclassified ∧ 0 < r.baseRaw ∧
        0 < r.quoteRaw) ∧
      buy = { position := b.number * 18446744073709551616 +
                r.payload.source.transactionIndex * 4294967296 + k.logIndex
              blockHash := k.blockHash
              blockNumber := b.number
              transactionIndex := r.payload.source.transactionIndex
              logIndex := k.logIndex
              timestamp := r.payload.timestamp } := by
  rw [latestBuy]
  cases blocks.lookup k.blockHash with
  | none =>
    refine iff_of_false (Option.some_ne_none buy).symm ?_
    rintro ⟨b, hb, -⟩
    cases hb
  | some b =>
    dsimp only
    constructor
    · intro h
      split at h
      · rename_i hq
        exact ⟨b, rfl, hq, (Option.some.inj h).symm⟩
      · cases h
    · rintro ⟨b', hb', hq, rfl⟩
      obtain rfl := Option.some.inj hb'
      rw [if_pos hq]

/-- **The position of a placed trade is its place.** -/
theorem position_lt_iff (hplaced : PlacedMarket blocks rows market)
    (hbuy : buy ∈ buysOf blocks rows market) (hbuy' : buy' ∈ buysOf blocks rows market) :
    buy.position < buy'.position ↔ buy.place < buy'.place := by
  have hbounds : ∀ b ∈ buysOf blocks rows market, b.position =
      b.blockNumber * 18446744073709551616 + b.transactionIndex * 4294967296 + b.logIndex ∧
      b.transactionIndex < 4294967296 ∧ b.logIndex < 4294967296 := by
    intro b hb
    obtain ⟨r, hr, hmarket, hsome⟩ := mem_buysOf.mp hb
    obtain ⟨block, -, -, rfl⟩ := latestBuy_eq_some.mp hsome
    have hat := hplaced r hr hmarket
    exact ⟨rfl, hat.transactionIndex, hat.logIndex⟩
  obtain ⟨hp, ht, hl⟩ := hbounds buy hbuy
  obtain ⟨hp', ht', hl'⟩ := hbounds buy' hbuy'
  rw [hp, hp', LatestBuy.place, LatestBuy.place, place, place, Prod.Lex.toLex_lt_toLex,
    Prod.Lex.toLex_lt_toLex]
  omega

/-- **Looking through all trades** finds the latest buy. -/
theorem isLatest_argmax (hplaced : PlacedMarket blocks rows market) :
    IsLatest (buysOf blocks rows market)
      (((qualifying blocks rows market).argmax fun c => place c.1.2.payload.source.blockNumber
        c.1.2.payload.source.transactionIndex c.1.1.logIndex).map Prod.snd) := by
  have hkey : ∀ c ∈ qualifying blocks rows market, place c.1.2.payload.source.blockNumber
      c.1.2.payload.source.transactionIndex c.1.1.logIndex = c.2.place := by
    intro c hc
    obtain ⟨hmem, hmarket, hsome⟩ := mem_qualifying.mp hc
    obtain ⟨b, hb, -, heq⟩ := latestBuy_eq_some.mp hsome
    rw [heq, (hplaced c.1 hmem hmarket).number b hb]
    rfl
  cases hmax : (qualifying blocks rows market).argmax fun c =>
      place c.1.2.payload.source.blockNumber c.1.2.payload.source.transactionIndex
        c.1.1.logIndex with
  | none =>
    rw [List.argmax_eq_none] at hmax
    rw [buysOf, hmax]
    rfl
  | some c =>
    have hmem := List.argmax_mem hmax
    refine ⟨List.mem_map_of_mem hmem, fun other hother => ?_⟩
    obtain ⟨c', hc', rfl⟩ := List.mem_map.mp hother
    rw [← hkey c hmem, ← hkey c' hc']
    exact List.le_of_mem_argmax hc' hmax

/-- The latest of some new trades. -/
theorem isLatest_latestOf (blocks : Table Bytes32 ChainBlock) (rows : List (TradeKey × TradeRow))
    (market : Bytes32) : IsLatest (buysOf blocks rows market) (latestOf blocks rows market) := by
  rw [latestOf]
  cases hmax : ((qualifying blocks rows market).map Prod.snd).argmax fun buy =>
      place buy.blockNumber buy.transactionIndex buy.logIndex with
  | none =>
    exact List.argmax_eq_none.mp hmax
  | some buy => exact ⟨List.argmax_mem hmax, fun other hother => List.le_of_mem_argmax hother hmax⟩

/-- The latest of the same buys. -/
theorem IsLatest.congr {buys buys' : List LatestBuy} {o : Option LatestBuy} (h : IsLatest buys o)
    (hmem : ∀ buy, buy ∈ buys ↔ buy ∈ buys') : IsLatest buys' o := by
  cases o with
  | none =>
    rw [IsLatest] at h
    subst h
    exact List.eq_nil_iff_forall_not_mem.mpr fun buy hbuy => List.not_mem_nil ((hmem buy).mpr hbuy)
  | some buy => exact ⟨(hmem buy).mp h.1, fun other hother => h.2 other ((hmem other).mpr hother)⟩

end Latest

/-! ### Markets one after the other -/

section Markets

variable {t : Tables} {market : Bytes32} {ms : List Bytes32}

/-- What a market's row is after it is refreshed. -/
def refreshed (blocks : Table Bytes32 ChainBlock) (rows : List (TradeKey × TradeRow))
    (market : Bytes32) : Option LatestBuy :=
  ((qualifying blocks rows market).argmax fun c => place c.1.2.payload.source.blockNumber
    c.1.2.payload.source.transactionIndex c.1.1.logIndex).map Prod.snd

theorem lookup_refreshLatestBuy (t : Tables) (m market : Bytes32) :
    (refreshLatestBuy t m).latestBuys.lookup market
      = if market = m then refreshed t.blocks (rowsOf t.trades) m
        else t.latestBuys.lookup market := by
  rw [refreshLatestBuy, refreshed]
  dsimp only
  cases (qualifying t.blocks (rowsOf t.trades) m).argmax fun c =>
      place c.1.2.payload.source.blockNumber c.1.2.payload.source.transactionIndex
        c.1.1.logIndex with
  | none =>
    dsimp only
    rcases eq_or_ne market m with rfl | hne
    · rw [AList.lookup_erase, if_pos rfl]
      rfl
    · rw [AList.lookup_erase_ne hne, if_neg hne]
  | some c =>
    dsimp only
    rcases eq_or_ne market m with rfl | hne
    · rw [AList.lookup_insert, if_pos rfl]
      rfl
    · rw [AList.lookup_insert_ne hne, if_neg hne]

/-- Tables that differ in their latest buys only. -/
structure Refreshes (t t' : Tables) : Prop where
  trades : t'.trades = t.trades
  blocks : t'.blocks = t.blocks
  rollups : t'.rollups = t.rollups
  buckets : t'.buckets = t.buckets

theorem Refreshes.refl (t : Tables) : Refreshes t t := ⟨rfl, rfl, rfl, rfl⟩

theorem Refreshes.trans {t' t'' : Tables} (h : Refreshes t t') (h' : Refreshes t' t'') :
    Refreshes t t'' :=
  ⟨h'.trades.trans h.trades, h'.blocks.trans h.blocks, h'.rollups.trans h.rollups,
    h'.buckets.trans h.buckets⟩

theorem refreshes_foldl (t : Tables) (ms : List Bytes32) :
    Refreshes t (ms.foldl refreshLatestBuy t) := by
  induction ms generalizing t with
  | nil => exact Refreshes.refl t
  | cons m ms ih =>
    have hfirst : Refreshes t (refreshLatestBuy t m) := ⟨rfl, rfl, rfl, rfl⟩
    exact hfirst.trans (ih (refreshLatestBuy t m))

/-- **Markets are refreshed**, each of them from the trades and the blocks. -/
theorem lookup_foldl_refresh (t : Tables) (ms : List Bytes32) (market : Bytes32) :
    (ms.foldl refreshLatestBuy t).latestBuys.lookup market
      = if market ∈ ms then refreshed t.blocks (rowsOf t.trades) market
        else t.latestBuys.lookup market := by
  induction ms generalizing t with
  | nil => exact (if_neg List.not_mem_nil).symm
  | cons m ms ih =>
    rw [List.foldl_cons, ih]
    change (if market ∈ ms then refreshed t.blocks (rowsOf t.trades) market
      else (refreshLatestBuy t m).latestBuys.lookup market) = _
    rw [lookup_refreshLatestBuy]
    rcases eq_or_ne market m with rfl | hne
    · rw [if_pos rfl, ite_self, if_pos List.mem_cons_self]
    · rw [if_neg hne]
      exact if_congr (List.mem_cons.trans (or_iff_right hne)).symm rfl rfl

/-- The markets of some trades are refreshed. -/
theorem lookup_repairLatestBuys (t : Tables) (rows : List (TradeKey × TradeRow))
    (market : Bytes32) : (repairLatestBuys t rows).latestBuys.lookup market
      = if market ∈ marketsOf rows then refreshed t.blocks (rowsOf t.trades) market
        else t.latestBuys.lookup market :=
  lookup_foldl_refresh t (marketsOf rows) market

/-- What a market's row is after it is compared with the new trades. -/
def raised (blocks : Table Bytes32 ChainBlock) (new : List (TradeKey × TradeRow))
    (market : Bytes32) (current : Option LatestBuy) : Option LatestBuy :=
  match latestOf blocks new market with
  | none => current
  | some buy =>
    match current with
    | none => some buy
    | some row => if row.position < buy.position then some buy else some row

theorem lookup_raiseLatestBuy (blocks : Table Bytes32 ChainBlock)
    (new : List (TradeKey × TradeRow)) (buys : Table Bytes32 LatestBuy) (m market : Bytes32) :
    (raiseLatestBuy blocks new buys m).lookup market
      = if market = m then raised blocks new m (buys.lookup m) else buys.lookup market := by
  have hset : ∀ buy : LatestBuy, (buys.insert m buy).lookup market
      = if market = m then some buy else buys.lookup market := fun buy => by
    rcases eq_or_ne market m with rfl | hne
    · rw [AList.lookup_insert, if_pos rfl]
    · rw [AList.lookup_insert_ne hne, if_neg hne]
  have hkeep : buys.lookup market
      = if market = m then buys.lookup m else buys.lookup market := by
    split
    · rename_i heq
      rw [heq]
    · rfl
  rw [raiseLatestBuy, raised]
  cases latestOf blocks new m with
  | none => exact hkeep
  | some buy =>
    cases hlookup : buys.lookup m with
    | none => exact hset buy
    | some current =>
      dsimp only
      split
      · exact hset buy
      · rw [← hlookup]
        exact hkeep

/-- **New trades are compared with the rows of their markets**, each market once. -/
theorem lookup_foldl_raise {blocks : Table Bytes32 ChainBlock} {new : List (TradeKey × TradeRow)}
    {buys : Table Bytes32 LatestBuy} (hnd : ms.Nodup) :
    (ms.foldl (raiseLatestBuy blocks new) buys).lookup market
      = if market ∈ ms then raised blocks new market (buys.lookup market)
        else buys.lookup market := by
  induction ms generalizing buys with
  | nil => exact (if_neg List.not_mem_nil).symm
  | cons m ms ih =>
    obtain ⟨hm, hnd⟩ := List.nodup_cons.mp hnd
    rw [List.foldl_cons, ih hnd, lookup_raiseLatestBuy]
    rcases eq_or_ne market m with rfl | hne
    · rw [if_neg hm, if_pos rfl, if_pos List.mem_cons_self]
    · rw [if_neg hne]
      exact if_congr (List.mem_cons.trans (or_iff_right hne)).symm rfl rfl

/-- The rows of a table that is filled at once, each market once. -/
theorem lookup_foldl_insert {f : Bytes32 → Option LatestBuy} {buys : Table Bytes32 LatestBuy}
    (hnd : ms.Nodup) (hnone : ∀ m ∈ ms, buys.lookup m = none) :
    (ms.foldl (fun buys m => match f m with
      | none => buys
      | some buy => buys.insert m buy) buys).lookup market
      = if market ∈ ms then f market else buys.lookup market := by
  induction ms generalizing buys with
  | nil => exact (if_neg List.not_mem_nil).symm
  | cons m ms ih =>
    obtain ⟨hm, hnd⟩ := List.nodup_cons.mp hnd
    have hne : ∀ j ∈ ms, j ≠ m := fun j hj hc => hm (hc ▸ hj)
    rw [List.foldl_cons]
    cases hf : f m with
    | none =>
      rw [ih hnd fun j hj => hnone j (List.mem_cons_of_mem m hj)]
      rcases eq_or_ne market m with rfl | hdiff
      · rw [if_neg hm, if_pos List.mem_cons_self, hf, hnone market List.mem_cons_self]
      · exact if_congr (List.mem_cons.trans (or_iff_right hdiff)).symm rfl rfl
    | some buy =>
      dsimp only
      rw [ih hnd fun j hj => by
        rw [AList.lookup_insert_ne (hne j hj)]
        exact hnone j (List.mem_cons_of_mem m hj)]
      rcases eq_or_ne market m with rfl | hdiff
      · rw [if_neg hm, if_pos List.mem_cons_self, hf, AList.lookup_insert]
      · rw [AList.lookup_insert_ne hdiff]
        exact if_congr (List.mem_cons.trans (or_iff_right hdiff)).symm rfl rfl

theorem mem_marketsOf {rows : List (TradeKey × TradeRow)} :
    market ∈ marketsOf rows ↔ ∃ r ∈ rows, r.2.marketId = market := by
  rw [marketsOf, List.mem_dedup, List.mem_map]

end Markets

/-! ### Statements -/

/-- **The latest buy of a market is right**, if its trades are placed. -/
def BuySound (t : Tables) (market : Bytes32) : Prop :=
  PlacedMarket t.blocks (rowsOf t.trades) market →
    IsLatest (buysOf t.blocks (rowsOf t.trades) market) (t.latestBuys.lookup market)

section Statements

variable {t t' : Tables} {market : Bytes32}

/-- A market that is refreshed is right. -/
theorem buySound_of_refreshed (h : t.latestBuys.lookup market
    = refreshed t.blocks (rowsOf t.trades) market) : BuySound t market := fun hplaced => by
  rw [h]
  exact isLatest_argmax hplaced

/-- **A market is left alone**: its trades, and what qualifies of them, are as they were. -/
theorem BuySound.keep (h : BuySound t market)
    (hlookup : t'.latestBuys.lookup market = t.latestBuys.lookup market)
    (hplaced : PlacedMarket t'.blocks (rowsOf t'.trades) market →
      PlacedMarket t.blocks (rowsOf t.trades) market)
    (hbuys : ∀ buy, buy ∈ buysOf t.blocks (rowsOf t.trades) market
      ↔ buy ∈ buysOf t'.blocks (rowsOf t'.trades) market) : BuySound t' market := fun hp => by
  rw [hlookup]
  exact (h (hplaced hp)).congr hbuys

/-- What a statement on the trades leaves of a market. -/
theorem mem_rowsOf_apply {m : Table TradeKey TradeRow} (c : Change m) {r : TradeKey × TradeRow} :
    r ∈ rowsOf c.apply ↔ r ∈ c.new ∨ r ∈ rowsOf m ∧ r.1 ∉ c.old.map Prod.fst := by
  rw [mem_rowsOf, c.lookup_apply, mem_rowsOf]

/-- The rows of a market that a statement does not touch. -/
theorem market_rows_apply {m : Table TradeKey TradeRow} (c : Change m)
    (hold : market ∉ marketsOf c.old) (hnew : market ∉ marketsOf c.new)
    {r : TradeKey × TradeRow} (hr : r.2.marketId = market) :
    r ∈ rowsOf c.apply ↔ r ∈ rowsOf m := by
  rw [mem_rowsOf_apply]
  constructor
  · rintro (hmem | hmem)
    · exact absurd (mem_marketsOf.mpr ⟨r, hmem, hr⟩) hnew
    · exact hmem.1
  · refine fun hmem => Or.inr ⟨hmem, fun hc => ?_⟩
    obtain ⟨r', hr', hkey⟩ := List.mem_map.mp hc
    have hsame : r' = r := by
      have hlookup := c.lookup_old r' hr'
      rw [hkey, mem_rowsOf.mp hmem, Option.some.injEq] at hlookup
      exact Prod.ext hkey hlookup.symm
    exact hold (mem_marketsOf.mpr ⟨r', hr', hsame ▸ hr⟩)

/-- A market that a statement does not touch is as it was. -/
theorem BuySound.untouched (h : BuySound t market) (w : TradeWrite t.trades)
    (hold : market ∉ marketsOf w.old) (hnew : market ∉ marketsOf w.new)
    (htrades : t'.trades = w.apply) (hblocks : t'.blocks = t.blocks)
    (hlookup : t'.latestBuys.lookup market = t.latestBuys.lookup market) : BuySound t' market := by
  refine h.keep hlookup ?_ ?_
  · rw [htrades, hblocks]
    exact fun hplaced r hr hm => hplaced r ((market_rows_apply w.toChange hold hnew hm).mpr hr) hm
  · rw [htrades, hblocks]
    intro buy
    rw [mem_buysOf, mem_buysOf]
    constructor
    · rintro ⟨r, hr, hm, hsome⟩
      exact ⟨r, (market_rows_apply w.toChange hold hnew hm).mpr hr, hm, hsome⟩
    · rintro ⟨r, hr, hm, hsome⟩
      exact ⟨r, (market_rows_apply w.toChange hold hnew hm).mp hr, hm, hsome⟩

/-- **New trades are compared with the row that is there.** -/
theorem isLatest_raised {blocks : Table Bytes32 ChainBlock}
    {rows new all : List (TradeKey × TradeRow)} {current : Option LatestBuy}
    (hall : ∀ r, r ∈ all ↔ r ∈ new ∨ r ∈ rows) (hplaced : PlacedMarket blocks all market)
    (h : IsLatest (buysOf blocks rows market) current) :
    IsLatest (buysOf blocks all market) (raised blocks new market current) := by
  have hmem : ∀ buy, buy ∈ buysOf blocks all market
      ↔ buy ∈ buysOf blocks new market ∨ buy ∈ buysOf blocks rows market := fun buy => by
    rw [mem_buysOf, mem_buysOf, mem_buysOf, ← exists_or]
    refine exists_congr fun r => ?_
    rw [hall, or_and_right]
  have hnew := isLatest_latestOf blocks new market
  rw [raised]
  cases hlatest : latestOf blocks new market with
  | none =>
    rw [hlatest, IsLatest] at hnew
    refine h.congr fun buy => ?_
    rw [hmem, hnew]
    exact (or_iff_right List.not_mem_nil).symm
  | some buy =>
    rw [hlatest] at hnew
    obtain ⟨hbuy, hmax⟩ := hnew
    cases current with
    | none =>
      rw [IsLatest] at h
      refine ⟨(hmem buy).mpr (Or.inl hbuy), fun other hother => ?_⟩
      rcases (hmem other).mp hother with hother | hother
      · exact hmax other hother
      · rw [h] at hother
        cases hother
    | some current =>
      have hlt := position_lt_iff hplaced ((hmem current).mpr (Or.inr h.1))
        ((hmem buy).mpr (Or.inl hbuy))
      dsimp only
      split
      · rename_i hpos
        refine ⟨(hmem buy).mpr (Or.inl hbuy), fun other hother => ?_⟩
        rcases (hmem other).mp hother with hother | hother
        · exact hmax other hother
        · exact (h.2 other hother).trans (hlt.mp hpos).le
      · rename_i hpos
        refine ⟨(hmem current).mpr (Or.inr h.1), fun other hother => ?_⟩
        rcases (hmem other).mp hother with hother | hother
        · exact (hmax other hother).trans (not_lt.mp fun hc => hpos (hlt.mpr hc))
        · exact h.2 other hother

end Statements

end TradeFlows

end Backend

end TickerGarden
