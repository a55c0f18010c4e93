import Mathlib.Data.List.Sort
import TickerGarden.Backend.Decoded
import TickerGarden.Lib.Table

/-!
# Burn totals

The history projector reads the events of the finalized blocks, and keeps for every market
how much of its fees was burned: a row for each block that has something to say of the
market, in `history_contributions`, and one row of totals, in `aggregate_records`. An
invocation is one transaction of the database. It goes on where the last one stopped, as far
as the anchor or through 256 blocks with events, and saves in the checkpoint how far it came.

The row of totals has the hash of the newest block that contributes to it. The read side
serves it with the revision of the checkpoint, and it demands that this is the same block.

What is here is the scope `meme-fee-burn`. The other projections of a block write rows of
other scopes; all they can do to this one is to throw, which takes the transaction back, and
an invocation says what they throw (`TickerGarden.Backend.BurnTotals.Invocation.others`).
-/

namespace TickerGarden

open Checked

namespace Backend

namespace BurnTotals

/-! ### The finalized chain -/

/-- A stored log: it is of a contract of the protocol and decodes to an event or not at all,
or it is of the pool manager or of no source, and is not read. -/
inductive StoredLog
  | source (event : Option DecodedProtocolEvent)
  | outside

/-- A block with its logs, by transaction and index. -/
structure ChainBlock where
  hash : Bytes32
  logs : List StoredLog

/-- `MarketCreated` of the factory. -/
def isMarketCreated (event : DecodedProtocolEvent) : Bool :=
  event.module = .other "TickerGardenFactoryV1" ∧ event.eventName = .other "MarketCreated"

/-- `MemeFeesBurned` of the fee vault. -/
def isMemeFeesBurned (event : DecodedProtocolEvent) : Bool :=
  event.module = .protocolFeeVault ∧ event.eventName = .memeFeesBurned

/-- What a log that is read decodes to. -/
def StoredLog.read : StoredLog → Option (Option DecodedProtocolEvent)
  | .source event => some event
  | .outside => none

/-- The events of a block. -/
def ChainBlock.events (b : ChainBlock) : List DecodedProtocolEvent :=
  b.logs.filterMap fun log => log.read.bind id

/-- The rows of `chain_blocks` that are canonical and finalized. A hash is the key of a row,
there is nothing before the activation block, and only the fee vault has an event of the name
`MemeFeesBurned`. -/
structure History where
  activationBlock : ℕ
  block : ℕ → Option ChainBlock
  hash_injective : ∀ m n b c, block m = some b → block n = some c → b.hash = c.hash → m = n
  quiet : ∀ n < activationBlock, ∀ b, block n = some b → b.logs = []
  emitter : ∀ n b, block n = some b → ∀ event ∈ b.events,
    event.eventName = .memeFeesBurned → event.module = .protocolFeeVault

/-- The events of the block of a height. -/
def History.events (h : History) (n : ℕ) : List DecodedProtocolEvent :=
  (h.block n).elim [] ChainBlock.events

/-! ### The tables -/

/-- A market of the publication, as far as the burns need it. -/
structure MarketRecord where
  marketId : Bytes32
  memeToken : Address
  burnMemeFees : Option Bool

/-- The payload of a row. -/
structure MemeFeeBurn where
  marketId : Bytes32
  token : Address
  enabled : Bool
  creatorRaw : ℤ
  stakerRaw : ℤ
  holderRaw : ℤ
  totalRaw : ℤ
deriving DecidableEq

/-- The text `number:hash`. -/
abbrev Revision := ℕ × Bytes32

/-- How far the projection has come, and which version of it. -/
structure ProjectionCheckpoint where
  algorithmVersion : String
  nextBlock : ℕ
  generation : ℕ
  lastRevision : Option Revision

/-- What one block adds to the burns of a market. -/
structure Contribution where
  blockNumber : ℕ
  payload : MemeFeeBurn

/-- The burns of a market, with the block they were last written at. -/
structure AggregateRecord where
  blockHash : Bytes32
  payload : MemeFeeBurn

/-- A contribution has the market and the hash of its block for a key. -/
abbrev Contributions := Table (Bytes32 × Bytes32) Contribution

/-- The tables of the projection: its checkpoint, what the blocks contribute, and the sums. -/
structure Db where
  checkpoint : Option ProjectionCheckpoint
  contributions : Contributions
  aggregates : Table Bytes32 AggregateRecord

/-- The checkpoint of the stream `frontend-events`. -/
structure IngestionCheckpoint where
  nextBlock : ℕ
  generation : ℕ

/-- What one invocation is given, and what it finds: the checkpoint of the ingestion, the
markets published for its revision, and what the other projections of a block throw. -/
structure Invocation where
  blockNumber : ℕ
  blockHash : Bytes32
  generation : ℕ
  ingestion : Option IngestionCheckpoint
  markets : List MarketRecord
  others : ℕ → Except JsError Unit

/-! ### The burns of a block -/

/-- `hash`. -/
def hash (value : Option ArgValue) : Except JsError Bytes32 :=
  match value with
  | some (.bytes32 h) => .ok h
  | _ => throwJs "invalid hash"

/-- `address`. -/
def address (value : Option ArgValue) : Except JsError Address :=
  match value with
  | some (.address a) => .ok a
  | _ => throwJs "invalid address"

/-- `BigInt(String(value))`. -/
def toBigInt (value : Option ArgValue) : Except JsError ℤ :=
  match value with
  | some (.bigint n) => .ok n
  | some (.address a) => .ok a.toNat
  | some (.bytes32 h) => .ok h.toNat
  | none => throwJs "Cannot convert undefined to a BigInt"

/-- `Number(value)`, where it is the number of a role. -/
def roleNumber (value : Option ArgValue) : Option ℤ :=
  match value with
  | some (.bigint n) => some n
  | some (.address a) => some a.toNat
  | some (.bytes32 h) => some h.toNat
  | none => none

/-- A row of `aggregateMemeFeeBurns`. -/
structure BurnRow where
  marketId : Bytes32
  token : Address
  enabled : Bool
  creatorRaw : ℤ
  stakerRaw : ℤ
  holderRaw : ℤ

/-- The row a market starts with. -/
def MarketRecord.burnRow (m : MarketRecord) : BurnRow :=
  ⟨m.marketId, m.memeToken, m.burnMemeFees = some true, 0, 0, 0⟩

/-- A burn is added to the amount of its role. -/
def BurnRow.add (row : BurnRow) (role amount : ℤ) : BurnRow :=
  if role = 0 then { row with creatorRaw := row.creatorRaw + amount }
  else if role = 1 then { row with stakerRaw := row.stakerRaw + amount }
  else { row with holderRaw := row.holderRaw + amount }

/-- The row with its total. -/
def BurnRow.payload (row : BurnRow) : MemeFeeBurn :=
  { marketId := row.marketId, token := row.token, enabled := row.enabled
    creatorRaw := row.creatorRaw, stakerRaw := row.stakerRaw, holderRaw := row.holderRaw
    totalRaw := row.creatorRaw + row.stakerRaw + row.holderRaw }

/-- `${blockHash}:${transactionHash}:${logIndex}`. -/
def logKey (log : RpcLog) : Bytes32 × Bytes32 × ℕ :=
  (log.blockHash, log.transactionHash, log.logIndex)

/-- The rows and the burns that have been seen. -/
structure BurnFold where
  rows : List BurnRow
  seen : List (Bytes32 × Bytes32 × ℕ)

/-- The check of a burn and the row it is for. -/
def BurnFold.checkedRow (s : BurnFold) (event : DecodedProtocolEvent) (id : Bytes32)
    (role : Option ℤ) (amount : ℤ) : Except JsError Unit := do
  let row := s.rows.find? fun row => row.marketId = id
  throwIf (row.all fun row => !row.enabled) "Invalid Meme fee burn event"
  let token ← address (event.args .token)
  throwIf (row.map BurnRow.token ≠ some token ∨ role ∉ [some 0, some 1, some 2] ∨ amount ≤ 0 ∨
    logKey event.log ∈ s.seen) "Invalid Meme fee burn event"

/-- The check of the beneficiary of a burn. -/
def checkBeneficiary (event : DecodedProtocolEvent) (role : Option ℤ) : Except JsError Unit := do
  let beneficiary ← address (event.args .beneficiary)
  let epoch ← toBigInt (event.args .creatorEpoch)
  throwIf (¬ (role = some 2 ↔ beneficiary = 0) ∨ (if role = some 0 then epoch ≤ 0 else epoch ≠ 0))
    "Invalid Meme fee burn beneficiary"

/-- One burn. -/
def BurnFold.burn (s : BurnFold) (event : DecodedProtocolEvent) : Except JsError BurnFold := do
  let id ← hash (event.args .marketId)
  let role := roleNumber (event.args .role)
  let amount ← toBigInt (event.args .amount)
  s.checkedRow event id role amount
  checkBeneficiary event role
  return {
    rows := s.rows.map fun row =>
      if row.marketId = id then row.add (role.getD 2) amount else row
    seen := logKey event.log :: s.seen }

/-- One event. -/
def BurnFold.event (s : BurnFold) (event : DecodedProtocolEvent) : Except JsError BurnFold :=
  if isMemeFeesBurned event then s.burn event else .ok s

/-- `aggregateMemeFeeBurns`. -/
def aggregateMemeFeeBurns (events : List DecodedProtocolEvent) (markets : List MarketRecord) :
    Except JsError (List MemeFeeBurn) := do
  let folded ← events.foldlM BurnFold.event ⟨markets.map MarketRecord.burnRow, []⟩
  return folded.rows.map BurnRow.payload

/-! ### One block -/

/-- The events of a block, all of which decode. -/
def ChainBlock.decode (b : ChainBlock) : Except JsError (List DecodedProtocolEvent) :=
  (b.logs.filterMap StoredLog.read).mapM fun event =>
    orRevert event ⟨"history event cannot be decoded"⟩

/-- The markets of the events with a property. -/
def marketIds (p : DecodedProtocolEvent → Bool) (events : List DecodedProtocolEvent) :
    Except JsError (List Bytes32) :=
  (events.filter p).mapM fun event => hash (event.args .marketId)

/-- One event of `launchRecoveries`, with the markets it has found. -/
def launchRecovery (markets : List MarketRecord) (found : List Bytes32)
    (event : DecodedProtocolEvent) : Except JsError (List Bytes32) :=
  if isMarketCreated event then do
    let marketId ← hash (event.args .marketId)
    throwIf (marketId ∉ markets.map MarketRecord.marketId) "history event has no market binding"
    throwIf (marketId ∈ found) "market has duplicate creation evidence"
    return found ++ [marketId]
  else .ok found

/-- What the invocation has written: the contributions, and whose rows are to be made again. -/
structure Written where
  contributions : Contributions
  affected : List Bytes32

/-- `contribute`, and the row it leads to. -/
def Written.contribute (w : Written) (number : ℕ) (blockHash : Bytes32) (burn : MemeFeeBurn) :
    Written where
  contributions := w.contributions.insert (burn.marketId, blockHash)
    ⟨((w.contributions.lookup (burn.marketId, blockHash)).map Contribution.blockNumber).getD number,
      burn⟩
  affected := w.affected ++ [burn.marketId]

/-- The burns of a block, if the block is read without an error. -/
def blockBurns (input : Invocation) (number : ℕ) (b : ChainBlock) :
    Except JsError (List MemeFeeBurn) := do
  let events ← b.decode
  let created ← marketIds isMarketCreated events
  input.others number
  let _ ← events.foldlM (launchRecovery input.markets) []
  let burned ← marketIds (fun event => event.eventName = .memeFeesBurned) events
  aggregateMemeFeeBurns events
    (input.markets.filter fun m => m.marketId ∈ created ++ burned)

/-- One block with events. -/
def projectBlock (h : History) (input : Invocation) (w : Written) (number : ℕ) :
    Except JsError Written :=
  match h.block number with
  | none => .ok w
  | some b => do
    let burns ← blockBurns input number b
    return burns.foldl (fun w burn => w.contribute number b.hash burn) w

/-! ### The rows of totals -/

/-- The contributions of a market, the newest first. -/
def factsOf (contributions : Contributions) (marketId : Bytes32) : List (Bytes32 × Contribution) :=
  ((Table.restrict (fun key => key.1 = marketId) contributions).entries.map
    fun e => (e.1.2, e.2)).insertionSort fun x y => y.2.blockNumber ≤ x.2.blockNumber

/-- The row of a market is made again from its contributions. A published market that has
none gets a row of zeros. -/
def materialize (input : Invocation) (anchorHash : Bytes32) (contributions : Contributions)
    (aggregates : Table Bytes32 AggregateRecord) (marketId : Bytes32) :
    Table Bytes32 AggregateRecord :=
  let facts := factsOf contributions marketId
  let sum (field : MemeFeeBurn → ℤ) : ℤ := (facts.map fun f => field f.2.payload).sum
  match facts with
  | [] => match input.markets.find? fun m => m.marketId = marketId with
    | some m => aggregates.insert marketId ⟨anchorHash, m.burnRow.payload⟩
    | none => aggregates.erase marketId
  | newest :: _ => aggregates.insert marketId ⟨newest.1, { newest.2.payload with
      creatorRaw := sum MemeFeeBurn.creatorRaw
      stakerRaw := sum MemeFeeBurn.stakerRaw
      holderRaw := sum MemeFeeBurn.holderRaw
      totalRaw := sum MemeFeeBurn.totalRaw }⟩

/-! ### One invocation -/

/-- The version of the projection. -/
def algorithmVersion : String := "history-incremental-v3-creator"

/-- `assertAnchor`. -/
def assertAnchor (h : History) (input : Invocation) : Except JsError Unit := do
  throwIf ((h.block input.blockNumber).map ChainBlock.hash ≠ some input.blockHash)
    "history anchor is not canonical and finalized"
  throwIf (input.ingestion.all fun c => c.nextBlock ≤ input.blockNumber ∨
    c.generation ≠ input.generation) "history anchor is not covered by ingestion"

/-- The heights of the blocks with logs, from one height to another. -/
def eventBearing (h : History) (first last : ℕ) : List ℕ :=
  (List.range' first (last + 1 - first)).filter fun n =>
    (h.block n).any fun b => !b.logs.isEmpty

/-- The blocks an invocation looks at: one more than it projects. -/
def readBlocks (h : History) (input : Invocation) (first : ℕ) : List ℕ :=
  (eventBearing h first input.blockNumber).take 257

/-- Where the invocation stops: at the 256th of these blocks, if there are more. -/
def throughOf (input : Invocation) (blocks : List ℕ) : ℕ :=
  if blocks.length > 256 then blocks.getD 255 input.blockNumber else input.blockNumber

/-- What the invocation starts from: the first block it reads, the contributions that stay,
the markets that lost one, and the rows of totals. -/
structure Start where
  first : ℕ
  written : Written
  aggregates : Table Bytes32 AggregateRecord

/-- A checkpoint of another version is none, and everything is deleted. -/
def startOf (h : History) (db : Db) : Start :=
  match db.checkpoint.filter fun c => c.algorithmVersion = algorithmVersion with
  | none => ⟨h.activationBlock, ⟨∅, []⟩, ∅⟩
  | some c =>
    let removed := db.contributions.entries.filter fun e => c.nextBlock ≤ e.2.blockNumber
    ⟨c.nextBlock, ⟨removed.foldl (fun m e => m.erase e.1) db.contributions,
      removed.map fun e => e.1.1⟩, db.aggregates⟩

/-- The blocks are projected and the rows are made again. -/
def projectBlocks (h : History) (input : Invocation) (db : Db) : Except JsError (Db × ℕ) := do
  let start := startOf h db
  let blocks := readBlocks h input start.first
  let through := throughOf input blocks
  let anchorHash := ((h.block through).map ChainBlock.hash).getD input.blockHash
  let written ← (blocks.filter fun n => n ≤ through).foldlM (projectBlock h input) start.written
  return ({
    checkpoint := some ⟨algorithmVersion, through + 1, input.generation, (through, anchorHash)⟩
    contributions := written.contributions
    aggregates := written.affected.foldl (materialize input anchorHash written.contributions)
      start.aggregates }, through)

/-- The transaction, and how far it came. -/
def projectIn (h : History) (input : Invocation) (db : Db) : Except JsError (Db × ℕ) := do
  throwIf (¬ (input.markets.map MarketRecord.marketId).Nodup ∨
    ¬ (input.markets.map MarketRecord.memeToken).Nodup) "history market identity is duplicated"
  assertAnchor h input
  throwIf (db.checkpoint.any fun c => c.generation > input.generation) "history generation advanced"
  if db.checkpoint.any fun c =>
      c.algorithmVersion = algorithmVersion ∧ c.nextBlock > input.blockNumber then do
    throwIf (db.checkpoint.bind ProjectionCheckpoint.lastRevision
      ≠ some (input.blockNumber, input.blockHash)) "history projection advanced"
    return (db, input.blockNumber)
  else projectBlocks h input db

/-- `projectF72History`: an error takes the transaction back; one that stops before the
anchor is committed, and asks to be continued. -/
def projectF72History (h : History) (input : Invocation) (db : Db) : Except JsError Unit × Db :=
  match projectIn h input db with
  | .error e => (.error e, db)
  | .ok (db', through) =>
    (throwIf (through < input.blockNumber) "history projection continuation required", db')

/-! ### The read side -/

/-- `resolveHistoryCheckpoint`. -/
def resolveHistoryCheckpoint (h : History) (db : Db) : Except JsError Revision :=
  orRevert ((db.checkpoint.bind ProjectionCheckpoint.lastRevision).filter fun revision =>
    (h.block revision.1).map ChainBlock.hash = some revision.2)
    ⟨"history projection is unavailable"⟩

/-- What is served. -/
structure MemeFeeBurns where
  revision : Revision
  throughBlock : ℕ
  burns : MemeFeeBurn
deriving DecidableEq

/-- `readMemeFeeBurns`. -/
def readMemeFeeBurns (h : History) (db : Db) (marketId : Bytes32) :
    Except JsError MemeFeeBurns := do
  let checkpoint ← resolveHistoryCheckpoint h db
  let row ← orRevert (db.aggregates.lookup marketId) ⟨"Meme fee burn history is unavailable"⟩
  throwIf (checkpoint ≠ (checkpoint.1, row.blockHash)) "Meme fee burn history is unavailable"
  return ⟨checkpoint, checkpoint.1, row.payload⟩

end BurnTotals

end Backend

end TickerGarden
