import Mathlib.Algebra.Group.Pi.Lemmas
import Mathlib.Data.List.MinMax
import Mathlib.Data.Prod.Lex
import TickerGarden.Backend.Analytics
import TickerGarden.Lib.Tally
import TickerGarden.Lib.Transition

/-!
# Read models of the trades

The database derives three tables from the trades and the blocks they are in, with triggers
that feed each other: the **flows** of each market in each block, the **buckets** of a
minute, an hour and a day, which add up the flows of the blocks that are canonical and
final, and the **latest buy** of each market. A trade that is written changes the flow it
belongs to, a flow that changes is taken out of its buckets and put back, and a block that
becomes final, or is no longer canonical, moves all its flows in or out.

All rows belong to a deployment; the tables here are those of one. A statement sees what the
ones before it have left, and its triggers run when it has written its rows.
-/

namespace TickerGarden

open Checked

namespace Backend

namespace TradeFlows

open Analytics (TradeActivity TradeClassification)
open Rollup (Operation Write amount grouped addAll)

/-! ### The tables -/

/-- The columns that are added up. -/
inductive Column
  | tradeCount
  | internalCount
  | unclassifiedCount
  | quoteRaw
  | internalQuoteRaw
  | unknownFeeCount
  | feeRaw
  | taxRaw
deriving DecidableEq

/-- What a row of `trade_flow_rollups` or `trade_time_buckets` adds up. -/
abbrev Sums := Column → ℤ

/-- The column that counts the trades. -/
def tradeCount : Sums →+ ℤ := Pi.evalAddMonoidHom (fun _ => ℤ) Column.tradeCount

/-- The primary key of `market_trades`. -/
structure TradeKey where
  blockHash : Bytes32
  transactionHash : Bytes32
  logIndex : ℕ
deriving DecidableEq

/-- The other columns of `market_trades`; times are in microseconds. -/
structure TradeRow where
  marketId : Bytes32
  occurredAt : ℤ
  classification : TradeClassification
  baseRaw : ℕ
  quoteRaw : ℕ
  payload : TradeActivity

/-- What is read of a row of `chain_blocks`. -/
structure ChainBlock where
  number : ℕ
  canonical : Bool
  finalized : Bool

/-- The primary key of `trade_flow_rollups`. No fee asset stands for the empty text. -/
structure FlowKey where
  marketId : Bytes32
  blockHash : Bytes32
  occurredAt : ℤ
  feeAsset : Option Address
deriving DecidableEq

/-- The primary key of `trade_time_buckets`. -/
structure BucketKey where
  bucketSeconds : ℕ
  occurredAt : ℤ
  marketId : Bytes32
  feeAsset : Option Address
deriving DecidableEq

/-- A row of `market_latest_buys`, its payload included. -/
structure LatestBuy where
  position : ℕ
  blockHash : Bytes32
  blockNumber : ℕ
  transactionIndex : ℕ
  logIndex : ℕ
  timestamp : ℕ
deriving DecidableEq

/-- The tables of the trades, and the read models that the triggers keep of them. -/
structure Tables where
  /-- `market_trades`. -/
  trades : Table TradeKey TradeRow
  /-- `chain_blocks`, by hash. -/
  blocks : Table Bytes32 ChainBlock
  /-- `trade_flow_rollups`. -/
  rollups : Table FlowKey Sums
  /-- `trade_time_buckets`. -/
  buckets : Table BucketKey Sums
  /-- `market_latest_buys`. -/
  latestBuys : Table Bytes32 LatestBuy

/-- `canonical AND finalized`. -/
def ChainBlock.eligible (b : ChainBlock) : Bool := b.canonical && b.finalized

/-- Whether the block with a hash is canonical and final. -/
def eligible (blocks : Table Bytes32 ChainBlock) (hash : Bytes32) : Bool :=
  (blocks.lookup hash).elim false ChainBlock.eligible

/-! ### Flows -/

/-- The flow a trade belongs to. -/
def flowKey (k : TradeKey) (r : TradeRow) : FlowKey where
  marketId := r.marketId
  blockHash := k.blockHash
  occurredAt := r.occurredAt
  feeAsset := r.payload.feeAsset

/-- What a trade adds to its flow. -/
def contribution (r : TradeRow) : Sums
  | .tradeCount => 1
  | .internalCount => if r.classification ≠ .unclassified then 1 else 0
  | .unclassifiedCount => if r.classification = .unclassified then 1 else 0
  | .quoteRaw => r.quoteRaw
  | .internalQuoteRaw => if r.classification ≠ .unclassified then r.quoteRaw else 0
  | .unknownFeeCount => if r.payload.feeStatus = .notProvided then 1 else 0
  | .feeRaw => r.payload.feeRaw.getD 0
  | .taxRaw => r.payload.taxRaw.getD 0

/-- The widths of the buckets, in seconds. -/
def widths : List ℕ := [60, 3600, 86400]

/-- The start of the bucket of a time. -/
def startOf (width : ℕ) (occurredAt : ℤ) : ℤ :=
  occurredAt / (width * 1000000) * (width * 1000000)

/-- The bucket of a flow. -/
def bucketKey (k : FlowKey) (width : ℕ) : BucketKey where
  bucketSeconds := width
  occurredAt := startOf width k.occurredAt
  marketId := k.marketId
  feeAsset := k.feeAsset

/-- `adjust_trade_bucket`: in each of its buckets, which is deleted when it has no trade. -/
def adjustTradeBucket (buckets : Table BucketKey Sums) (k : FlowKey) (x : Sums) :
    Table BucketKey Sums :=
  Tally.spread tradeCount buckets (widths.map (bucketKey k)) x

/-- `track_trade_bucket`, of a flow. -/
def trackTradeBucket (blocks : Table Bytes32 ChainBlock) (buckets : Table BucketKey Sums)
    (k : FlowKey) (old new : Option Sums) : Table BucketKey Sums :=
  let buckets := match old with
    | none => buckets
    | some x => if eligible blocks k.blockHash then adjustTradeBucket buckets k (-x) else buckets
  match new with
  | none => buckets
  | some x => if eligible blocks k.blockHash then adjustTradeBucket buckets k x else buckets

/-- `INSERT … ON CONFLICT DO UPDATE` of a flow, with its trigger. -/
def upsertFlow (t : Tables) (k : FlowKey) (x : Sums) : Tables :=
  let next := amount t.rollups k + x
  { t with
    rollups := t.rollups.insert k next
    buckets := trackTradeBucket t.blocks t.buckets k (t.rollups.lookup k) (some next) }

/-- `DELETE` of a flow that has no trade, with its trigger. -/
def deleteEmptyFlow (t : Tables) (k : FlowKey) : Tables :=
  match t.rollups.lookup k with
  | none => t
  | some x =>
    if tradeCount x = 0 then
      { t with
        rollups := t.rollups.erase k
        buckets := trackTradeBucket t.blocks t.buckets k (some x) none }
    else t

/-- A row of a statement, before and after. -/
abbrev RowChange := Option (TradeKey × TradeRow) × Option (TradeKey × TradeRow)

/-- The loop of `accumulate_trade_flow` for `delta = -1`. -/
def subtractTrade (t : Tables) (r : TradeKey × TradeRow) : Tables :=
  deleteEmptyFlow (upsertFlow t (flowKey r.1 r.2) (-contribution r.2)) (flowKey r.1 r.2)

/-- The loop of `accumulate_trade_flow` for `delta = 1`. -/
def addTrade (t : Tables) (r : TradeKey × TradeRow) : Tables :=
  upsertFlow t (flowKey r.1 r.2) (contribution r.2)

/-- `accumulate_trade_flow`, of a row: what it was is taken off its flow, and what it is is
added to its own. -/
def accumulateTradeFlow (t : Tables) (e : RowChange) : Tables :=
  let t := e.1.elim t (subtractTrade t)
  e.2.elim t (addTrade t)

/-! ### Latest buys -/

/-- Where a trade is: its block, its transaction and its log. -/
abbrev Place := ℕ ×ₗ ℕ ×ₗ ℕ

/-- A place in the chain, in the order of the chain. -/
def place (number transactionIndex logIndex : ℕ) : Place :=
  toLex (number, toLex (transactionIndex, logIndex))

/-- A trade that qualifies, with its row in `market_latest_buys`: a buy that is not a
conversion of rewards, of something and for something, in a block that is canonical and
final. -/
def latestBuy (blocks : Table Bytes32 ChainBlock) (k : TradeKey) (r : TradeRow) :
    Option LatestBuy :=
  match blocks.lookup k.blockHash with
  | none => none
  | some b =>
    if b.eligible ∧ r.payload.side = .buy ∧ r.classification = .unclassified ∧ 0 < r.baseRaw ∧
        0 < r.quoteRaw then
      some
        { position := b.number * 18446744073709551616 +
            r.payload.source.transactionIndex * 4294967296 + k.logIndex
          blockHash := k.blockHash
          blockNumber := b.number
          transactionIndex := r.payload.source.transactionIndex
          logIndex := k.logIndex
          timestamp := r.payload.timestamp }
    else none

/-- The trades of a market that qualify, each with its row. -/
def qualifying (blocks : Table Bytes32 ChainBlock) (rows : List (TradeKey × TradeRow))
    (market : Bytes32) : List ((TradeKey × TradeRow) × LatestBuy) :=
  (rows.filter fun r => decide (r.2.marketId = market)).filterMap fun r =>
    (latestBuy blocks r.1 r.2).map fun buy => (r, buy)

/-- The rows of a table. -/
def rowsOf {κ β : Type} (m : Table κ β) : List (κ × β) := m.entries.map fun e => (e.1, e.2)

/-- `refresh_latest_buy`: the latest of all trades of the market, by what their records say.
Of trades in one place it is the first. -/
def refreshLatestBuy (t : Tables) (market : Bytes32) : Tables :=
  let best := (qualifying t.blocks (rowsOf t.trades) market).argmax fun c =>
    place c.1.2.payload.source.blockNumber c.1.2.payload.source.transactionIndex c.1.1.logIndex
  { t with latestBuys := match best with
      | none => t.latestBuys.erase market
      | some c => t.latestBuys.insert market c.2 }

/-- `DISTINCT ON … ORDER BY`: the latest of some trades of a market, by its block. -/
def latestOf (blocks : Table Bytes32 ChainBlock) (rows : List (TradeKey × TradeRow))
    (market : Bytes32) : Option LatestBuy :=
  ((qualifying blocks rows market).map Prod.snd).argmax fun buy =>
    place buy.blockNumber buy.transactionIndex buy.logIndex

/-- The markets of some trades, each once. -/
def marketsOf (rows : List (TradeKey × TradeRow)) : List Bytes32 :=
  (rows.map fun r => r.2.marketId).dedup

/-- One market in `insert_latest_buys`: its row is written if it has none, or an earlier one. -/
def raiseLatestBuy (blocks : Table Bytes32 ChainBlock) (new : List (TradeKey × TradeRow))
    (buys : Table Bytes32 LatestBuy) (market : Bytes32) : Table Bytes32 LatestBuy :=
  match latestOf blocks new market with
  | none => buys
  | some buy =>
    match buys.lookup market with
    | none => buys.insert market buy
    | some current => if current.position < buy.position then buys.insert market buy else buys

/-- `insert_latest_buys`. -/
def insertLatestBuys (t : Tables) (new : List (TradeKey × TradeRow)) : Tables :=
  { t with latestBuys := (marketsOf new).foldl (raiseLatestBuy t.blocks new) t.latestBuys }

/-- `repair_latest_buys`, of one of the two tables of a statement. -/
def repairLatestBuys (t : Tables) (rows : List (TradeKey × TradeRow)) : Tables :=
  (marketsOf rows).foldl refreshLatestBuy t

/-! ### Statements -/

/-- A statement on the trades. An update pairs the rows it changes. -/
structure TradeWrite (m : Table TradeKey TradeRow) extends Write m where
  paired : op = .update → old.length = new.length

/-- The rows of a statement, for the triggers of each row. -/
def TradeWrite.changes {m : Table TradeKey TradeRow} (w : TradeWrite m) : List RowChange :=
  match w.op with
  | .insert => w.new.map fun r => (none, some r)
  | .delete => w.old.map fun r => (some r, none)
  | .update => (w.old.zip w.new).map fun r => (some r.1, some r.2)

/-- **A statement on the trades**, with its triggers: of each row first, and then of the
statement. -/
def writeTrades (t : Tables) (w : TradeWrite t.trades) : Except JsError Tables := do
  throwIf (∃ r ∈ w.new, r.1.blockHash ∉ t.blocks)
    "insert or update on table \"market_trades\" violates foreign key constraint"
  let t := w.changes.foldl accumulateTradeFlow { t with trades := w.apply }
  return match w.op with
    | .insert => insertLatestBuys t w.new
    | .delete => repairLatestBuys t w.old
    | .update => repairLatestBuys (repairLatestBuys t w.old) w.new

/-- `chain_blocks_canonical_height`: two canonical blocks of one height. -/
def HeightTaken (blocks : Table Bytes32 ChainBlock) : Prop :=
  ∃ e ∈ blocks.entries, ∃ e' ∈ blocks.entries,
    e.2.canonical ∧ e'.2.canonical ∧ e.2.number = e'.2.number ∧ e.1 ≠ e'.1

instance heightTaken_decidable (blocks : Table Bytes32 ChainBlock) : Decidable (HeightTaken blocks) :=
  inferInstanceAs (Decidable (∃ e ∈ blocks.entries, ∃ e' ∈ blocks.entries,
    e.2.canonical ∧ e'.2.canonical ∧ e.2.number = e'.2.number ∧ e.1 ≠ e'.1))

/-- **New blocks** are written, of hashes that are not there. -/
def insertBlocks (t : Tables) (w : Write t.blocks) : Except JsError Tables := do
  throwIf (HeightTaken w.apply)
    "duplicate key value violates unique constraint \"chain_blocks_canonical_height\""
  return { t with blocks := w.apply }

/-- `UPDATE … SET canonical, finalized`, of the rows it selects. -/
abbrev BlockUpdate := Bytes32 → ChainBlock → Option (Bool × Bool)

/-- A block after an update. -/
def BlockUpdate.set (u : BlockUpdate) (hash : Bytes32) (b : ChainBlock) : ChainBlock :=
  match u hash b with
  | none => b
  | some (canonical, finalized) => { b with canonical, finalized }

/-- The flows of a block. -/
def flowsOf (t : Tables) (hash : Bytes32) : List (FlowKey × Sums) :=
  (rowsOf t.rollups).filter fun r => decide (r.1.blockHash = hash)

/-- `track_block_trade_buckets`: the flows of a block that has become eligible, or is so no
longer. -/
def trackBlockTradeBuckets (t : Tables) (hash : Bytes32) (old new : ChainBlock) : Tables :=
  if old.eligible = new.eligible then t
  else
    let delta : ℤ := if new.eligible then 1 else -1
    let buckets := (flowsOf t hash).foldl
      (fun buckets r => adjustTradeBucket buckets r.1 (delta • r.2)) t.buckets
    { t with buckets }

/-- The markets that have a buy in a block. -/
def marketsBought (t : Tables) (hash : Bytes32) : List Bytes32 :=
  marketsOf ((rowsOf t.trades).filter fun r =>
    decide (r.1.blockHash = hash ∧ r.2.payload.side = .buy))

/-- `repair_buys_after_chain_change`. -/
def repairBuysAfterChainChange (t : Tables) (hash : Bytes32) (old new : ChainBlock) : Tables :=
  if old.canonical = new.canonical ∧ old.finalized = new.finalized then t
  else (marketsBought t hash).foldl refreshLatestBuy t

/-- The triggers of a row of `chain_blocks`. -/
def blockChanged (u : BlockUpdate) (t : Tables) (r : Bytes32 × ChainBlock) : Tables :=
  let t := trackBlockTradeBuckets t r.1 r.2 (u.set r.1 r.2)
  repairBuysAfterChainChange t r.1 r.2 (u.set r.1 r.2)

/-- The rows an update selects. -/
def BlockUpdate.rows (u : BlockUpdate) (blocks : Table Bytes32 ChainBlock) :
    List (Bytes32 × ChainBlock) :=
  (rowsOf blocks).filter fun r => (u r.1 r.2).isSome

/-- **Blocks become canonical or final**, or are so no longer. -/
def updateBlocks (t : Tables) (u : BlockUpdate) : Except JsError Tables := do
  let blocks := Table.map u.set t.blocks
  throwIf (HeightTaken blocks)
    "duplicate key value violates unique constraint \"chain_blocks_canonical_height\""
  return (u.rows t.blocks).foldl (blockChanged u) { t with blocks }

/-! ### The tables that were there before -/

/-- The flows of some trades, as the migration fills the table. -/
def backfillFlows (trades : Table TradeKey TradeRow) : Table FlowKey Sums :=
  addAll ∅ (grouped ((rowsOf trades).map fun r => (flowKey r.1 r.2, contribution r.2)))

/-- The buckets of some flows. -/
def backfillBuckets (blocks : Table Bytes32 ChainBlock) (rollups : Table FlowKey Sums) :
    Table BucketKey Sums :=
  addAll ∅ (grouped (((rowsOf rollups).filter fun r => eligible blocks r.1.blockHash).flatMap
    fun r => widths.map fun width => (bucketKey r.1 width, r.2)))

/-- The latest buys of some trades. -/
def backfillBuys (blocks : Table Bytes32 ChainBlock) (trades : Table TradeKey TradeRow) :
    Table Bytes32 LatestBuy :=
  (marketsOf (rowsOf trades)).foldl (fun buys market =>
    match latestOf blocks (rowsOf trades) market with
    | none => buys
    | some buy => buys.insert market buy) ∅

/-- What the migrations make of the trades and the blocks that are there. -/
def backfill (trades : Table TradeKey TradeRow) (blocks : Table Bytes32 ChainBlock) : Tables where
  trades := trades
  blocks := blocks
  rollups := backfillFlows trades
  buckets := backfillBuckets blocks (backfillFlows trades)
  latestBuys := backfillBuys blocks trades

/-- Tables that the migrations have filled, of trades whose blocks are there. -/
def Init (t : Tables) : Prop :=
  ∃ trades blocks, (∀ k ∈ trades, k.blockHash ∈ blocks) ∧ t = backfill trades blocks

/-- **One step**: a statement that goes through. -/
inductive Step : Tables → Unit → Tables → Prop
  | trades {t t' : Tables} (w : TradeWrite t.trades) (h : writeTrades t w = .ok t') : Step t () t'
  | blocks {t t' : Tables} (w : Write t.blocks) (hop : w.op = .insert)
    (h : insertBlocks t w = .ok t') : Step t () t'
  | canonical {t t' : Tables} (u : BlockUpdate) (h : updateBlocks t u = .ok t') : Step t () t'

/-- The states a run of statements leads to. -/
def Reachable : Tables → Prop := Transition.Reachable Step Init

end TradeFlows

end Backend

end TickerGarden
