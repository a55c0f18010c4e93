import Mathlib.Data.Prod.Lex
import Mathlib.Data.Rat.Cast.Order
import Mathlib.Data.String.Basic
import Mathlib.Logic.Equiv.List
import Mathlib.Order.WithBot
import TickerGarden.Backend.Decoded
import TickerGarden.Lib.Table

/-!
# Published records, page by page

The read API lists the records of a publication in pages. A page ends with a **cursor**, which
says after which record the next one starts: a signed text with the sort value and the
identity of the last record, and with the scope, the revision and the digest of the filter it
was issued for. A query takes the records that match the filter and come after the cursor, in
order, one more than it shows.

`TickerGarden.Backend.PublishedPages.published_pages` says that whoever follows the cursors
reads each record once, in order. The sorts by market cap and by the latest buy go over a
ranking, and a market without a rank is not on it
(`TickerGarden.Backend.PublishedPages.ranked_page_omits_unranked`).

All rows belong to a deployment; the tables are those of one. The state of the synchronisation
and of the ranking, which a page also tells, and the name of the schema are left out.
-/

namespace TickerGarden

open Checked

namespace Backend

namespace PublishedPages

/-! ### Records -/

/-- A `numeric`: it is stored with its scale. -/
structure Numeric where
  unscaled : ℤ
  scale : ℕ
deriving DecidableEq

/-- What a `numeric` is compared by. -/
def Numeric.value (n : Numeric) : ℚ := n.unscaled / 10 ^ n.scale

/-- A whole number. -/
def Numeric.ofNat (n : ℕ) : Numeric := ⟨n, 0⟩

/-- `MarketMetricsReadModel`, as far as markets are sorted by it. -/
structure MarketMetrics where
  volume24hUsd : Option Numeric
  marketCapUsd : Option Numeric
deriving DecidableEq

/-- `LastBuyReadModel`. -/
structure LastBuy where
  blockNumber : ℕ
  transactionIndex : ℕ
  logIndex : ℕ
  timestamp : ℕ
deriving DecidableEq

/-- The part of a market that is observed on the chain at a block. -/
structure MarketDisplay where
  blockNumber : ℕ
  blockHash : String
  asOfTimestamp : String
deriving DecidableEq

/-- A market, as far as pages read it. What is missing is `null` to the database. -/
structure MarketPayload where
  marketId : Option String
  assetUid : Option String
  memeToken : Option String
  gauge : Option String
  launchPhase : Option ℤ
  name : Option String
  symbol : Option String
  deployedAt : Option Numeric
  metrics : Option MarketMetrics
  lastBuy : Option LastBuy
  display : Option MarketDisplay
deriving DecidableEq

/-- The payload of a record: a market, or the JSON of another one. -/
inductive Payload
  | market (m : MarketPayload)
  | other (document : String)
deriving DecidableEq

/-- The columns of a market that a query computes. Another record has none of them. -/
def Payload.columns : Payload → MarketPayload
  | market m => m
  | other _ => ⟨none, none, none, none, none, none, none, none, none, none, none⟩

/-- A publication. -/
structure Publication where
  revision : String
  blockNumber : ℕ
  blockHash : String
  storage : Option String
  asOf : Option String

/-- A row of `recent_markets`. -/
structure RecentMarket where
  blockNumber : ℕ
  blockHash : String
  payload : Payload
  canonical : Bool
  /-- `expires_at>now()`. -/
  live : Bool

/-- A row of `explore_cap_snapshots`. -/
structure CapSnapshot where
  scheduledAt : ℕ
  createdAt : ℕ
  legacy : Bool

/-- The tables that pages are read from. -/
structure Database where
  /-- `publications`, by scope and revision. -/
  publications : Table (String × String) Publication
  /-- `publication_pointers`: the current revision of a scope. -/
  pointers : Table String String
  /-- The blocks that are canonical and finalized, by their hash. -/
  finalBlocks : List String
  /-- `projection_read_records` of a scope and a revision: the sort key and the payload of each
  identity. -/
  records : String → String → Table String (String × Payload)
  recentMarkets : Table String RecentMarket
  capSnapshots : Table String CapSnapshot
  /-- `explore_cap_ranks`, by version and market. -/
  capRanks : Table (String × String) (ℕ × MarketMetrics)
  /-- `market_latest_buys`: the position of a buy, and the buy. -/
  latestBuys : Table String (ℕ × LastBuy)

/-! ### The database -/

/-- What the database brings: the collation that texts are compared by, the texts of numbers,
which it reads back as what they were, and functions on texts. -/
structure Postgres where
  Collated : Type
  order : LinearOrder Collated
  collate : String → Collated
  collate_injective : Function.Injective collate
  numericText : Numeric → String
  numericCast : String → Option Numeric
  numericCast_text : ∀ n, numericCast (numericText n) = some n
  integerText : ℤ → String
  integerCast : String → Option ℤ
  integerCast_text : ∀ n, integerCast (integerText n) = some n
  lower : String → String
  /-- `value LIKE '%' || pattern || '%'`. -/
  like : String → String → Bool
  md5 : String → String

instance (pg : Postgres) : LinearOrder pg.Collated := pg.order

/-- The types that markets are sorted by. -/
inductive Cast
  | text
  | numeric
  | integer
deriving DecidableEq

/-- The values of a type. -/
def Cast.Value : Cast → Type
  | text => String
  | numeric => Numeric
  | integer => ℤ

/-- What its values are compared by. -/
def Cast.Key (pg : Postgres) : Cast → Type
  | text => pg.Collated
  | numeric => ℚ
  | integer => ℤ

instance (pg : Postgres) : ∀ c : Cast, LinearOrder (c.Key pg)
  | .text => pg.order
  | .numeric => inferInstanceAs (LinearOrder ℚ)
  | .integer => inferInstanceAs (LinearOrder ℤ)

/-- What the values of a column are compared by. -/
def Cast.key (pg : Postgres) : ∀ c : Cast, c.Value → c.Key pg
  | text => pg.collate
  | numeric => Numeric.value
  | integer => fun n : ℤ => n

/-- `order_value::text`. -/
def Cast.toText (pg : Postgres) : ∀ c : Cast, c.Value → String
  | text => fun s : String => s
  | numeric => pg.numericText
  | integer => pg.integerText

/-- The cast of a text. -/
def Cast.read (pg : Postgres) : ∀ c : Cast, String → Option c.Value
  | text => fun s => some (s : String)
  | numeric => pg.numericCast
  | integer => pg.integerCast

theorem Cast.read_toText (pg : Postgres) :
    ∀ (c : Cast) (v : c.Value), c.read pg (c.toText pg v) = some v
  | .text, _ => rfl
  | .numeric, n => pg.numericCast_text n
  | .integer, n => pg.integerCast_text n

/-! ### Cursors -/

/-- `CursorPayload`. -/
structure CursorPayload where
  scope : String
  revision : String
  filterDigest : String
  sortKey : String
  identity : String
deriving DecidableEq

/-- The fields of an object that was read from a cursor, where they are of their type. -/
structure ParsedPayload where
  v : Option ℕ
  scope : Option String
  revision : Option String
  filterDigest : Option String
  sortKey : Option String
  identity : Option String

/-- `marketFilterJson`. -/
structure MarketFilterJson where
  assetUid : Option String
  marketId : Option String
  memeToken : Option String
  launchPhase : Option ℕ
  stakingEnabled : Option Bool
  search : Option String
  createdFrom : Option String
  createdTo : Option String
  sort : String
deriving DecidableEq

/-- What the digest of a filter is taken of. The filter of `readPublishedPage` is any JSON,
written with its keys in order. -/
inductive FilterJson
  | page (filter : String)
  | markets (filter : MarketFilterJson)
  | recent (filter : MarketFilterJson) (recentVersion : String)
  | ranking (filter : MarketFilterJson)
deriving DecidableEq

/-- How a cursor is written: its payload as JSON in `base64url`, a dot, and the signature, also
in `base64url`. -/
structure Cryptography where
  encode : CursorPayload → String
  /-- `JSON.parse`, which may throw, and which may give something that is no object. -/
  parse : String → Option (Option ParsedPayload)
  hmac : String → String → String
  digest : FilterJson → String
  parse_encode : ∀ p, parse (encode p) = some (some ⟨some 1, some p.scope, some p.revision,
    some p.filterDigest, some p.sortKey, some p.identity⟩)
  encode_ne_nil : ∀ p, encode p ≠ ""
  not_mem_encode : ∀ p, '.' ∉ (encode p).toList
  hmac_ne_nil : ∀ secret text, hmac secret text ≠ ""
  not_mem_hmac : ∀ secret text, '.' ∉ (hmac secret text).toList

/-- `assertCursorSecret`. -/
def assertCursorSecret (secret : String) : Except JsError Unit :=
  throwIf (secret.utf8ByteSize < 32) "cursor secret must contain at least 32 bytes"

/-- The text of a signed payload. -/
def signed (c : Cryptography) (secret : String) (payload : CursorPayload) : String :=
  c.encode payload ++ "." ++ c.hmac secret (c.encode payload)

/-- **`encodeCursor`.** -/
def encodeCursor (c : Cryptography) (payload : CursorPayload) (secret : String) :
    Except JsError String := do
  assertCursorSecret secret
  return signed c secret payload

/-- A part of a cursor. One that is not there is as an empty one. -/
def part (cursor : String) (i : ℕ) : String :=
  ((cursor.toList.splitOn '.')[i]?.map String.ofList).getD ""

/-- **`decodeCursor`.** -/
def decodeCursor (c : Cryptography) (cursor scope : String) (revision : Option String)
    (filterDigest secret : String) : Except JsError CursorPayload := do
  assertCursorSecret secret
  throwIf (part cursor 0 = "" ∨ part cursor 1 = "" ∨ part cursor 2 ≠ "") "cursor is malformed"
  throwIf (part cursor 1 ≠ c.hmac secret (part cursor 0)) "cursor signature is invalid"
  match c.parse (part cursor 0) with
  | some (some value) =>
    match value.revision, value.sortKey, value.identity with
    | some r, some sortKey, some identity => do
      throwIf (value.v ≠ some 1 ∨ value.scope ≠ some scope ∨ revision.any (fun e => decide (r ≠ e)) ∨
        value.filterDigest ≠ some filterDigest) "cursor does not belong to this page"
      return { scope, revision := r, filterDigest, sortKey, identity }
    | _, _, _ => throwJs "cursor does not belong to this page"
  | _ => throwJs "cursor payload is invalid"

/-! ### Filters -/

/-- The sorts of a market page. -/
inductive MarketSortKey
  | marketIdAsc
  | marketIdDesc
  | createdAtAsc
  | createdAtDesc
  | nameAsc
  | launchPhaseAsc
  | volume24hUsdDesc
  | marketCapUsdDesc
  | recentBuyDesc
deriving DecidableEq

/-- The text of a sort. -/
def MarketSortKey.text : MarketSortKey → String
  | marketIdAsc => "marketId_asc"
  | marketIdDesc => "marketId_desc"
  | createdAtAsc => "createdAt_asc"
  | createdAtDesc => "createdAt_desc"
  | nameAsc => "name_asc"
  | launchPhaseAsc => "launchPhase_asc"
  | volume24hUsdDesc => "volume24hUsd_desc"
  | marketCapUsdDesc => "marketCapUsd_desc"
  | recentBuyDesc => "recentBuy_desc"

/-- `MarketPageFilter`. -/
structure MarketPageFilter where
  assetUid : Option String
  marketId : Option String
  memeToken : Option String
  launchPhase : Option ℕ
  stakingEnabled : Option Bool
  search : Option String
  createdFrom : Option String
  createdTo : Option String
  sort : Option MarketSortKey
deriving DecidableEq

/-- The directions of a listing. -/
inductive Direction
  | asc
  | desc
deriving DecidableEq

/-- What `marketSort` says of a sort. -/
structure MarketSort where
  cast : Cast
  expression : MarketPayload → Option cast.Value
  direction : Direction

/-- `marketSort`. -/
def marketSort (pg : Postgres) : MarketSortKey → MarketSort
  | .marketIdAsc => ⟨.text, fun m => m.marketId, .asc⟩
  | .marketIdDesc => ⟨.text, fun m => m.marketId, .desc⟩
  | .createdAtAsc => ⟨.numeric, fun m => m.deployedAt, .asc⟩
  | .createdAtDesc => ⟨.numeric, fun m => m.deployedAt, .desc⟩
  | .nameAsc => ⟨.text, fun m => m.name.map pg.lower, .asc⟩
  | .launchPhaseAsc => ⟨.integer, fun m => m.launchPhase, .asc⟩
  | .volume24hUsdDesc => ⟨.numeric, fun m => m.metrics.bind MarketMetrics.volume24hUsd, .desc⟩
  | .marketCapUsdDesc => ⟨.numeric, fun m => m.metrics.bind MarketMetrics.marketCapUsd, .desc⟩
  | .recentBuyDesc => ⟨.numeric, fun m => m.lastBuy.map fun b => Numeric.ofNat
      (b.blockNumber * 2 ^ 64 + b.transactionIndex * 2 ^ 32 + b.logIndex), .desc⟩

/-- `0x` and some hexadecimal digits in lower case. -/
def isHex (digits : ℕ) (s : String) : Bool :=
  match s.toList with
  | '0' :: 'x' :: ds => ds.length = digits && ds.all fun c => c.isDigit || decide ('a' ≤ c ∧ c ≤ 'f')
  | _ => false

/-- `/^(0|[1-9][0-9]*)$/`. -/
def isDecimal (s : String) : Bool :=
  match s.toList with
  | ['0'] => true
  | c :: cs => c ≠ '0' && (c :: cs).all Char.isDigit
  | [] => false

/-- The number that digits are. -/
def decimal (s : String) : ℕ := Nat.ofDigitChars 10 s.toList 0

/-- A text that is there and not empty. -/
def given (s : Option String) : Option String := s.filter fun t => decide (t ≠ "")

/-- `validateMarketFilter`. -/
def validateMarketFilter (f : MarketPageFilter) : Except JsError Unit := do
  throwIf ((given f.assetUid).any (fun s => !(isHex 64 s)) ∨ (given f.marketId).any (fun s => !(isHex 64 s))
    ∨ (given f.memeToken).any (fun s => !(isHex 40 s)) ∨ f.launchPhase.any (fun n => decide (1 < n)))
    "invalid market filter"
  throwIf (f.search.any fun s => decide (jsLength s < 1 ∨ 120 < jsLength s) ||
    s.toList.any fun c => decide (c = '%' ∨ c = '_' ∨ c.toNat < 32)) "invalid market search"
  throwIf (f.createdFrom.any (fun s => !(isDecimal s)) ∨ f.createdTo.any (fun s => !(isDecimal s)))
    "invalid creation time"
  match f.createdFrom, f.createdTo with
  | some first, some last => throwIf (decimal last < decimal first) "invalid creation time range"
  | _, _ => return

/-- `marketFilterJson`, with `toLocaleLowerCase`. -/
def marketFilterJson (toLocaleLowerCase : String → String) (f : MarketPageFilter) :
    MarketFilterJson where
  assetUid := f.assetUid
  marketId := f.marketId
  memeToken := f.memeToken
  launchPhase := f.launchPhase
  stakingEnabled := f.stakingEnabled
  search := f.search.map toLocaleLowerCase
  createdFrom := f.createdFrom
  createdTo := f.createdTo
  sort := (f.sort.getD .marketIdAsc).text

/-- `market_search_text`. -/
def marketSearchText (pg : Postgres) (m : MarketPayload) : String :=
  pg.lower (m.marketId.getD "" ++ " " ++ m.name.getD "" ++ " " ++ m.symbol.getD "" ++ " " ++
    m.memeToken.getD "")

/-- The zero address. -/
def zeroAddress : String := "0x0000000000000000000000000000000000000000"

/-- **The conditions of a query on a market**, of a filter with the search in lower case. A
condition on a column that is `null` does not hold. -/
def selected (pg : Postgres) (f : MarketFilterJson) (marketId : Option String) (m : MarketPayload) :
    Bool :=
  f.assetUid.all (fun v => decide (m.assetUid = some v)) &&
  f.marketId.all (fun v => decide (marketId = some v)) &&
  f.memeToken.all (fun v => decide (m.memeToken = some v)) &&
  f.launchPhase.all (fun v => decide (m.launchPhase = some (v : ℤ))) &&
  f.stakingEnabled.all (fun v => m.gauge.any fun g => decide (g ≠ zeroAddress) == v) &&
  f.search.all (fun v => pg.like (marketSearchText pg m) v) &&
  f.createdFrom.all (fun v => m.deployedAt.any fun t => decide ((decimal v : ℚ) ≤ t.value)) &&
  f.createdTo.all fun v => m.deployedAt.any fun t => decide (t.value ≤ (decimal v : ℚ))

/-! ### Publications -/

/-- `/^[0-9]+:0x[0-9a-f]{64}$/`. -/
def isRevision (s : String) : Bool :=
  let digits := s.toList.takeWhile Char.isDigit
  digits ≠ [] && match s.toList.drop digits.length with
    | ':' :: hash => isHex 64 (String.ofList hash)
    | _ => false

/-- A publication whose block is canonical and finalized. -/
def Database.published (db : Database) (scope revision : String) : Option Publication :=
  (db.publications.lookup (scope, revision)).filter fun p => decide (p.blockHash ∈ db.finalBlocks)

/-- **`resolvePublication`.** -/
def resolvePublication (db : Database) (scope : String) (requested : Option String) :
    Except JsError Publication :=
  match given requested with
  | some revision => do
    throwIf (isRevision revision = false) "requested revision is invalid"
    match db.published scope revision with
    | some p => return { p with revision }
    | none => throwJs "requested publication is unavailable"
  | none =>
    match (db.pointers.lookup scope).bind fun revision =>
        (db.published scope revision).map fun p => { p with revision } with
    | some p => .ok p
    | none => throwJs "publication is unavailable"

/-- `displayAtPublication`: a market that is stored in versions is shown at the block of the
publication. -/
def displayAtPublication (payload : Payload) (p : Publication) : Payload :=
  match payload, p.asOf with
  | .market m, some asOf =>
    if p.storage = some "market-versions-v1" ∧ asOf ≠ "" then
      .market { m with display := m.display.map fun d =>
        if p.blockNumber < d.blockNumber then d
        else ⟨p.blockNumber, p.blockHash, asOf⟩ }
    else .market m
  | payload, _ => payload

/-- What a page returns. -/
structure Page where
  items : List Payload
  nextCursor : Option String
deriving DecidableEq

/-! ### Pages of records -/

/-- A row of `projection_read_records`. -/
structure RecordRow where
  identity : String
  sortKey : String
  payload : Payload

/-- The records of a publication, if its block is canonical and finalized. -/
def recordRows (db : Database) (scope : String) (p : Publication) : List RecordRow :=
  if p.blockHash ∈ db.finalBlocks then
    (db.records scope p.revision).entries.map fun e => ⟨e.1, e.2.1, e.2.2⟩
  else []

/-- What records are ordered by: the sort key, then the identity. -/
def recordKey (pg : Postgres) (r : RecordRow) : pg.Collated ×ₗ pg.Collated :=
  toLex (pg.collate r.sortKey, pg.collate r.identity)

/-- `ORDER BY r.sort_key,r.identity`. -/
def recordLe (pg : Postgres) (a b : RecordRow) : Bool :=
  decide (pg.collate a.sortKey < pg.collate b.sortKey ∨
    pg.collate a.sortKey = pg.collate b.sortKey ∧ pg.collate a.identity ≤ pg.collate b.identity)

/-- `(r.sort_key,r.identity)>($7,$8)`. -/
def recordAfter (pg : Postgres) (after : Option CursorPayload) (r : RecordRow) : Bool :=
  after.all fun a => decide (pg.collate a.sortKey < pg.collate r.sortKey ∨
    pg.collate a.sortKey = pg.collate r.sortKey ∧ pg.collate a.identity < pg.collate r.identity)

/-- The cursor of a request, if it has one. -/
def decodeGiven (c : Cryptography) (cursor : Option String) (scope : String)
    (revision : Option String) (filterDigest secret : String) :
    Except JsError (Option CursorPayload) :=
  match given cursor with
  | none => .ok none
  | some cursor => (decodeCursor c cursor scope revision filterDigest secret).map some

/-- The cursor of a page, if there is one more row. -/
def encodeNext (c : Cryptography) (last : Option CursorPayload) (secret : String) :
    Except JsError (Option String) :=
  match last with
  | none => .ok none
  | some payload => (encodeCursor c payload secret).map some

/-- The bounds of a page. -/
def checkLimit (limit : ℕ) : Except JsError Unit :=
  throwIf (limit < 1 ∨ 100 < limit) "limit must be between 1 and 100"

/-- The input of `readPublishedPage`. -/
structure PageInput where
  scope : String
  filter : String
  secret : String
  revision : Option String
  cursor : Option String
  limit : Option ℕ

/-- The cursor of a record. -/
def recordCursor (c : Cryptography) (input : PageInput) (p : Publication) (r : RecordRow) :
    CursorPayload where
  scope := input.scope
  revision := p.revision
  filterDigest := c.digest (.page input.filter)
  sortKey := r.sortKey
  identity := r.identity

/-- **`readPublishedPage`.** -/
def readPublishedPage (pg : Postgres) (c : Cryptography) (db : Database) (input : PageInput) :
    Except JsError Page := do
  throwIf (isToken input.scope = false) "invalid publication scope"
  let limit := input.limit.getD 50
  checkLimit limit
  let publication ← resolvePublication db input.scope input.revision
  let after ← decodeGiven c input.cursor input.scope (some publication.revision)
    (c.digest (.page input.filter)) input.secret
  let rows := (((recordRows db input.scope publication).filter (recordAfter pg after)).mergeSort
    (recordLe pg)).take (limit + 1)
  throwIf (rows.length = 0 ∧ after.isSome ∧ (db.published input.scope publication.revision).isNone)
    "publication changed during pagination"
  let nextCursor ← encodeNext c ((Paging.ahead limit rows).map (recordCursor c input publication))
    input.secret
  return {
    items := (Paging.visible limit rows).map fun r => displayAtPublication r.payload publication
    nextCursor }

/-! ### Pages of a ranking -/

/-- The input of `readPublishedMarketPage`. -/
structure MarketPageInput where
  filter : MarketPageFilter
  secret : String
  includeRecent : Bool
  revision : Option String
  cursor : Option String
  limit : Option ℕ

/-- A market with a rank, and with what the ranking adds to it. -/
structure RankedRow where
  identity : String
  position : ℕ
  market : Payload
  payload : Payload

/-- `r.payload || jsonb_build_object('metrics',b.metrics)`. -/
def withMetrics (p : Payload) (metrics : MarketMetrics) : Payload :=
  match p with
  | .market m => .market { m with metrics := some metrics }
  | p => p

/-- `r.payload || jsonb_build_object('lastBuy',b.payload)`. -/
def withLastBuy (p : Payload) (buy : LastBuy) : Payload :=
  match p with
  | .market m => .market { m with lastBuy := some buy }
  | p => p

/-- The markets of a ranking: those of a snapshot, or those with a latest buy. -/
def rankedRows (db : Database) (p : Publication) (cap : Bool) (version : String) : List RankedRow :=
  let markets := db.records "markets" p.revision
  if cap then db.capRanks.entries.filterMap fun e =>
    if e.1.1 = version then
      (markets.lookup e.1.2).map fun r => ⟨e.1.2, e.2.1, r.2, withMetrics r.2 e.2.2⟩
    else none
  else db.latestBuys.entries.filterMap fun e =>
    (markets.lookup e.1).map fun r => ⟨e.1, e.2.1, r.2, withLastBuy r.2 e.2.2⟩

/-- What a ranking is ordered by: the rank, or the position from the last on, then the market. -/
def rankedKey (pg : Postgres) (cap : Bool) (r : RankedRow) : ℤ ×ₗ pg.Collated :=
  toLex (if cap then (r.position : ℤ) else -(r.position : ℤ), pg.collate r.identity)

/-- `ORDER BY ${order} ${direction},b.market_id ASC`. -/
def rankedLe (pg : Postgres) (cap : Bool) (a b : RankedRow) : Bool :=
  (if cap then decide (a.position < b.position) else decide (b.position < a.position)) ||
    decide (a.position = b.position ∧ pg.collate a.identity ≤ pg.collate b.identity)

/-- `${order}${cap?'>':'<'}$6 OR (${order}=$6 AND b.market_id>$7)`. -/
def rankedAfter (pg : Postgres) (cap : Bool) (after : Option CursorPayload) (r : RankedRow) : Bool :=
  after.all fun a =>
    (if cap then decide (decimal a.sortKey < r.position) else decide (r.position < decimal a.sortKey)) ||
      decide (r.position = decimal a.sortKey ∧ pg.collate a.identity < pg.collate r.identity)

/-- The snapshot of the market caps: the one a cursor names, or the newest. -/
def capSnapshot (db : Database) (version : Option String) : Option String :=
  ((db.capSnapshots.entries.filter fun e => (version.isSome || !e.2.legacy) &&
      version.all fun v => decide (e.1 = v)).mergeSort fun a b =>
    decide (b.2.scheduledAt < a.2.scheduledAt ∨
      b.2.scheduledAt = a.2.scheduledAt ∧ b.2.createdAt ≤ a.2.createdAt)).head?.map Sigma.fst

/-- The version of the ranking that a page reads. -/
def rankingVersion (db : Database) (cap : Bool) (after : Option CursorPayload) :
    Except JsError String :=
  if cap then
    match capSnapshot db (after.map CursorPayload.revision) with
    | some version => .ok version
    | none => if after.isSome then throwJs "ranking expired"
      else throwJs "market cap ranking is preparing"
  else .ok "recent-buys-v2"

/-- The cursor of a market with a rank. -/
def rankedCursor (filterDigest version : String) (r : RankedRow) :
    CursorPayload where
  scope := "explore-ranking"
  revision := version
  filterDigest := filterDigest
  sortKey := toString r.position
  identity := r.identity

/-- The sort goes over the market caps. -/
def sortsByCap (f : MarketPageFilter) : Bool := f.sort = some .marketCapUsdDesc

/-- The sort goes over a ranking. -/
def isRanked (f : MarketPageFilter) : Bool :=
  sortsByCap f || decide (f.sort = some .recentBuyDesc)

/-- **`readRankedMarketPage`.** -/
def readRankedMarketPage (pg : Postgres) (c : Cryptography) (toLocaleLowerCase : String → String)
    (db : Database) (input : MarketPageInput) : Except JsError Page := do
  let limit := input.limit.getD 50
  throwIf ((given input.revision).any fun r => !(isRevision r)) "requested revision is invalid"
  let publication ← resolvePublication db "markets" none
  let cap := sortsByCap input.filter
  let filter := marketFilterJson toLocaleLowerCase input.filter
  let after ← decodeGiven c input.cursor "explore-ranking"
    (if cap then none else some "recent-buys-v2") (c.digest (.ranking filter)) input.secret
  throwIf (after.any fun a => !(isDecimal a.sortKey)) "invalid ranking cursor position"
  let version ← rankingVersion db cap after
  let rows := ((((rankedRows db publication cap version).filter fun r =>
    selected pg filter (some r.identity) r.market.columns).filter (rankedAfter pg cap after)).mergeSort
    (rankedLe pg cap)).take (limit + 1)
  let nextCursor ← encodeNext c
    ((Paging.ahead limit rows).map (rankedCursor (c.digest (.ranking filter)) version)) input.secret
  return {
    items := (Paging.visible limit rows).map fun r => displayAtPublication r.payload publication
    nextCursor }

/-! ### Pages of markets -/

/-- A row of the markets. -/
structure MarketRow where
  identity : String
  payload : Payload
deriving DecidableEq

/-- `market_rows`: the markets of the publication, and on request those that are newer and not
in it. -/
def marketRows (db : Database) (p : Publication) (includeRecent : Bool) : List MarketRow :=
  (recordRows db "markets" p).map (fun r => ⟨r.identity, r.payload⟩) ++
    if includeRecent then
      (db.recentMarkets.entries.filter fun e => e.2.canonical && e.2.live &&
        decide (p.blockNumber < e.2.blockNumber) &&
        ((db.records "markets" p.revision).lookup e.1).isNone).map fun e => ⟨e.1, e.2.payload⟩
    else []

/-- `readRecentMarketVersion`. -/
def readRecentMarketVersion (pg : Postgres) (db : Database) : String :=
  let current := ((db.pointers.lookup "markets").bind fun r =>
    db.publications.lookup ("markets", r)).map Publication.blockNumber
  let rows := db.recentMarkets.entries.filter fun e => e.2.canonical && e.2.live &&
    current.all fun n => decide (n < e.2.blockNumber)
  pg.md5 (",".intercalate ((rows.mergeSort fun a b => decide (pg.collate a.1 ≤ pg.collate b.1)).map
    fun e => e.1 ++ e.2.blockHash))

namespace MarketSort

/-- `order_value`. -/
def value (s : MarketSort) (r : MarketRow) : Option s.cast.Value := s.expression r.payload.columns

/-- A value comes before another one. -/
def precedes (pg : Postgres) (s : MarketSort) (x y : s.cast.Value) : Bool :=
  match s.direction with
  | .asc => decide (s.cast.key pg x < s.cast.key pg y)
  | .desc => decide (s.cast.key pg y < s.cast.key pg x)

/-- `ORDER BY order_value ${sort.direction} NULLS LAST,identity ASC`. -/
def le (pg : Postgres) (s : MarketSort) (a b : MarketRow) : Bool :=
  match s.value a, s.value b with
  | some x, some y => s.precedes pg x y || decide (s.cast.key pg x = s.cast.key pg y ∧
      pg.collate a.identity ≤ pg.collate b.identity)
  | some _, none => true
  | none, some _ => false
  | none, none => decide (pg.collate a.identity ≤ pg.collate b.identity)

/-- **`afterClause`**, of the identity and the sort value of a cursor. -/
def afterClause (pg : Postgres) (s : MarketSort) (after : Option (String × Option s.cast.Value))
    (r : MarketRow) : Bool :=
  match after with
  | none => true
  | some (identity, none) =>
    (s.value r).isNone && decide (pg.collate identity < pg.collate r.identity)
  | some (identity, some v) =>
    match s.value r with
    | some x => s.precedes pg v x || decide (s.cast.key pg x = s.cast.key pg v ∧
        pg.collate identity < pg.collate r.identity)
    | none => true

/-- The sort value of a row, in a cursor. -/
def sortKey (pg : Postgres) (s : MarketSort) (r : MarketRow) : String :=
  match s.value r with
  | none => "n:"
  | some v => "v:" ++ s.cast.toText pg v

/-- The sort value of a cursor, cast to its type. -/
def after (pg : Postgres) (s : MarketSort) :
    Option CursorPayload → Except JsError (Option (String × Option s.cast.Value))
  | none => .ok none
  | some a => match a.sortKey.toList with
    | ['n', ':'] => .ok (some (a.identity, none))
    | 'v' :: ':' :: text => match s.cast.read pg (String.ofList text) with
      | some v => .ok (some (a.identity, some v))
      | none => throwJs "invalid input syntax"
    | _ => throwJs "market cursor sort value is invalid"

end MarketSort

/-- What the digest of a market page is taken of. -/
def marketFilterKey (pg : Postgres) (toLocaleLowerCase : String → String) (db : Database)
    (input : MarketPageInput) : FilterJson :=
  let filter := marketFilterJson toLocaleLowerCase input.filter
  if input.includeRecent then .recent filter (readRecentMarketVersion pg db) else .markets filter

/-- The cursor of a market. -/
def marketCursor (pg : Postgres) (s : MarketSort) (filterDigest : String) (p : Publication)
    (r : MarketRow) : CursorPayload where
  scope := "markets"
  revision := p.revision
  filterDigest := filterDigest
  sortKey := s.sortKey pg r
  identity := r.identity

/-- **`readPublishedMarketPage`.** -/
def readPublishedMarketPage (pg : Postgres) (c : Cryptography)
    (toLocaleLowerCase : String → String) (db : Database) (input : MarketPageInput) :
    Except JsError Page := do
  let limit := input.limit.getD 50
  checkLimit limit
  validateMarketFilter input.filter
  if isRanked input.filter then readRankedMarketPage pg c toLocaleLowerCase db input
  else do
    let publication ← resolvePublication db "markets" input.revision
    let filterDigest := c.digest (marketFilterKey pg toLocaleLowerCase db input)
    let cursor ← decodeGiven c input.cursor "markets" (some publication.revision) filterDigest
      input.secret
    let sort := marketSort pg (input.filter.sort.getD .marketIdAsc)
    let after ← sort.after pg cursor
    let filter := marketFilterJson toLocaleLowerCase input.filter
    let rows := ((((marketRows db publication input.includeRecent).filter fun r =>
      selected pg filter r.payload.columns.marketId r.payload.columns).filter
      (sort.afterClause pg after)).mergeSort (sort.le pg)).take (limit + 1)
    let nextCursor ← encodeNext c
      ((Paging.ahead limit rows).map (marketCursor pg sort filterDigest publication)) input.secret
    return {
      items := (Paging.visible limit rows).map fun r => displayAtPublication r.payload publication
      nextCursor }

/-! ### Cursors are read back -/

section Cursors

variable {c : Cryptography} {secret : String} {p : CursorPayload}

theorem splitOn_signed : (signed c secret p).toList.splitOn '.'
    = [(c.encode p).toList, (c.hmac secret (c.encode p)).toList] := by
  have hlist : (signed c secret p).toList
      = (c.encode p).toList ++ '.' :: (c.hmac secret (c.encode p)).toList := by
    rw [signed, String.toList_append, String.toList_append, List.append_assoc]
    rfl
  rw [hlist, List.splitOn_append_cons_self_of_not_mem (c.not_mem_encode p),
    List.splitOn_eq_singleton (c.not_mem_hmac secret _)]

theorem part_signed (c : Cryptography) (secret : String) (p : CursorPayload) :
    part (signed c secret p) 0 = c.encode p ∧
      part (signed c secret p) 1 = c.hmac secret (c.encode p) ∧
      part (signed c secret p) 2 = "" := by
  rw [part, part, part, splitOn_signed]
  exact ⟨String.ofList_toList, String.ofList_toList, rfl⟩

theorem signed_ne_nil : signed c secret p ≠ "" := by
  intro h
  have hpart := (part_signed c secret p).1
  rw [h] at hpart
  exact c.encode_ne_nil p hpart.symm

variable (hsecret : 32 ≤ secret.utf8ByteSize)

include hsecret

theorem assertCursorSecret_eq_ok : assertCursorSecret secret = .ok () :=
  revertIf_neg (not_lt.mpr hsecret)

theorem encodeNext_eq_ok (last : Option CursorPayload) :
    encodeNext c last secret = .ok (last.map (signed c secret)) := by
  cases last with
  | none => rfl
  | some payload =>
    rw [encodeNext, encodeCursor, assertCursorSecret_eq_ok hsecret]
    rfl

/-- **A cursor is accepted** where it was issued. -/
theorem decodeCursor_signed {revision : Option String} (hrevision : ∀ r ∈ revision, r = p.revision) :
    decodeCursor c (signed c secret p) p.scope revision p.filterDigest secret = .ok p := by
  obtain ⟨hencoded, hsignature, hextra⟩ := part_signed c secret p
  rw [decodeCursor, hencoded, hsignature, hextra, assertCursorSecret_eq_ok hsecret, ok_bind,
    throwIf, revertIf_neg, ok_bind, throwIf, revertIf_neg, ok_bind, c.parse_encode]
  · dsimp only
    rw [throwIf, revertIf_neg, ok_bind]
    · rfl
    · rintro (h | h | h | h)
      · exact h rfl
      · exact h rfl
      · obtain ⟨r, hr, hne⟩ := (Option.any_eq_true _ _).mp h
        exact of_decide_eq_true hne (hrevision r hr).symm
      · exact h rfl
  · exact fun h => h rfl
  · rintro (h | h | h)
    · exact c.encode_ne_nil p h
    · exact c.hmac_ne_nil secret _ h
    · exact h rfl

theorem decodeGiven_signed {revision : Option String} (hrevision : ∀ r ∈ revision, r = p.revision) :
    decodeGiven c (some (signed c secret p)) p.scope revision p.filterDigest secret
      = .ok (some p) := by
  have hgiven : given (some (signed c secret p)) = some (signed c secret p) :=
    Option.filter_some_pos (decide_eq_true signed_ne_nil)
  rw [decodeGiven, hgiven]
  dsimp only
  rw [decodeCursor_signed hsecret hrevision]
  rfl

omit hsecret

/-- **What an accepted cursor is**: the payload of a text that is signed with the secret, and
that was issued for this page. -/
theorem decodeCursor_eq_ok {cursor scope filterDigest : String} {revision : Option String}
    (hok : decodeCursor c cursor scope revision filterDigest secret = .ok p) :
    part cursor 1 = c.hmac secret (part cursor 0) ∧
      c.parse (part cursor 0) = some (some ⟨some 1, some p.scope, some p.revision,
        some p.filterDigest, some p.sortKey, some p.identity⟩) ∧
      p.scope = scope ∧ (∀ r ∈ revision, p.revision = r) ∧ p.filterDigest = filterDigest := by
  rw [decodeCursor] at hok
  obtain ⟨_, -, hok⟩ := bind_eq_ok.mp hok
  obtain ⟨_, -, hok⟩ := bind_eq_ok.mp hok
  obtain ⟨_, hsignature, hok⟩ := bind_eq_ok.mp hok
  have hsigned := not_not.mp (revertIf_eq_ok.mp hsignature)
  split at hok
  · rename_i value hparse
    split at hok
    · rename_i r sortKey identity hr hsortKey hidentity
      obtain ⟨_, hchecks, hok⟩ := bind_eq_ok.mp hok
      have hbelongs := revertIf_eq_ok.mp hchecks
      cases hok
      rw [not_or, not_or, not_or, not_not, not_not, not_not] at hbelongs
      obtain ⟨hv, hscope, hrevision, hdigest⟩ := hbelongs
      refine ⟨hsigned, ?_, rfl, fun e he => ?_, rfl⟩
      · obtain ⟨v, s, rev, d, k, i⟩ := value
        dsimp only at hr hsortKey hidentity hv hscope hdigest
        rw [hparse, hr, hsortKey, hidentity, hv, hscope, hdigest]
      · by_contra hne
        exact hrevision ((Option.any_eq_true _ _).mpr ⟨e, he, decide_eq_true hne⟩)
    · cases hok
  · cases hok

/-- **The signature cannot be forged**: a text that has its signature was issued. -/
def Unforgeable (c : Cryptography) (secret : String) (Issued : CursorPayload → Prop)
    (cursor : String) : Prop :=
  part cursor 1 = c.hmac secret (part cursor 0) → ∃ p, Issued p ∧ part cursor 0 = c.encode p

/-- **Only issued cursors are accepted**, and only where they were issued for. -/
theorem issued_of_decodeGiven {cursor scope filterDigest : String} {revision : Option String}
    {Issued : CursorPayload → Prop} (hforge : Unforgeable c secret Issued cursor)
    (hcursor : cursor ≠ "") {after : Option CursorPayload}
    (hok : decodeGiven c (some cursor) scope revision filterDigest secret = .ok after) :
    ∃ p, Issued p ∧ p.scope = scope ∧ (∀ r ∈ revision, p.revision = r) ∧
      p.filterDigest = filterDigest := by
  have hgiven : given (some cursor) = some cursor :=
    Option.filter_some_pos (decide_eq_true hcursor)
  rw [decodeGiven, hgiven] at hok
  dsimp only at hok
  cases hdecoded : decodeCursor c cursor scope revision filterDigest secret with
  | error e =>
    rw [hdecoded] at hok
    cases hok
  | ok value =>
    obtain ⟨hsigned, hparse, hscope, hrevision, hdigest⟩ := decodeCursor_eq_ok hdecoded
    obtain ⟨p, hissued, hencoded⟩ := hforge hsigned
    rw [hencoded, c.parse_encode, Option.some.injEq, Option.some.injEq, ParsedPayload.mk.injEq] at hparse
    obtain ⟨-, hs, hr, hd, -, -⟩ := hparse
    rw [Option.some.injEq] at hs hr hd
    exact ⟨p, hissued, hs.trans hscope, fun r hmem => hr.trans (hrevision r hmem), hd.trans hdigest⟩

end Cursors

/-! ### The orders of the queries -/

section Orders

variable {pg : Postgres}

theorem recordLe_eq (a b : RecordRow) :
    recordLe pg a b = decide (recordKey pg a ≤ recordKey pg b) := by
  rw [recordLe, decide_eq_decide, recordKey, recordKey, Prod.Lex.toLex_le_toLex]

theorem recordAfter_eq (last : Option CursorPayload) (r : RecordRow) :
    recordAfter pg last r = (last.map fun a => (toLex (pg.collate a.sortKey, pg.collate a.identity) :
      pg.Collated ×ₗ pg.Collated)).all fun k => decide (k < recordKey pg r) := by
  cases last with
  | none => rfl
  | some a =>
    show decide _ = decide _
    rw [decide_eq_decide, recordKey, Prod.Lex.toLex_lt_toLex]

theorem rankedLe_eq (cap : Bool) (a b : RankedRow) :
    rankedLe pg cap a b = decide (rankedKey pg cap a ≤ rankedKey pg cap b) := by
  rw [rankedLe, rankedKey, rankedKey]
  cases cap with
  | true =>
    rw [if_pos rfl, if_pos rfl, if_pos rfl, ← Bool.decide_or, decide_eq_decide,
      Prod.Lex.toLex_le_toLex, Int.ofNat_lt, Int.ofNat_inj]
  | false =>
    rw [if_neg Bool.false_ne_true, if_neg Bool.false_ne_true, if_neg Bool.false_ne_true,
      ← Bool.decide_or, decide_eq_decide, Prod.Lex.toLex_le_toLex, neg_lt_neg_iff, neg_inj,
      Int.ofNat_lt, Int.ofNat_inj]

/-- The key a cursor of a ranking stands for. -/
def rankedCursorKey (pg : Postgres) (cap : Bool) (a : CursorPayload) : ℤ ×ₗ pg.Collated :=
  toLex (if cap then (decimal a.sortKey : ℤ) else -(decimal a.sortKey : ℤ), pg.collate a.identity)

theorem rankedAfter_eq (cap : Bool) (last : Option CursorPayload) (r : RankedRow) :
    rankedAfter pg cap last r
      = (last.map (rankedCursorKey pg cap)).all fun k => decide (k < rankedKey pg cap r) := by
  cases last with
  | none => rfl
  | some a =>
    rw [rankedAfter, Option.all_some, Option.map_some, Option.all_some, rankedCursorKey, rankedKey]
    cases cap with
    | true =>
      rw [if_pos rfl, if_pos rfl, if_pos rfl, ← Bool.decide_or, decide_eq_decide,
        Prod.Lex.toLex_lt_toLex, Int.ofNat_lt, Int.ofNat_inj, eq_comm (a := decimal a.sortKey)]
    | false =>
      rw [if_neg Bool.false_ne_true, if_neg Bool.false_ne_true, if_neg Bool.false_ne_true,
        ← Bool.decide_or, decide_eq_decide, Prod.Lex.toLex_lt_toLex, neg_lt_neg_iff, neg_inj,
        Int.ofNat_lt, Int.ofNat_inj, eq_comm (a := decimal a.sortKey)]

/-- Keys in a direction. -/
def Direction.Order : Direction → Type → Type
  | asc, K => K
  | desc, K => Kᵒᵈ

instance (K : Type) [LinearOrder K] : ∀ d : Direction, LinearOrder (d.Order K)
  | .asc => inferInstanceAs (LinearOrder K)
  | .desc => inferInstanceAs (LinearOrder Kᵒᵈ)

/-- A key, in its direction. -/
def Direction.order {K : Type} : ∀ d : Direction, K → d.Order K
  | asc => fun k => k
  | desc => OrderDual.toDual

theorem Direction.order_injective {K : Type} :
    ∀ (d : Direction) (x y : K), d.order x = d.order y → x = y
  | asc, _, _, h => h
  | desc, _, _, h => OrderDual.toDual.injective h

namespace MarketSort

variable (pg) (s : MarketSort)

/-- The sort values in their order, a missing one last. -/
abbrev Order : Type := WithTop (s.direction.Order (s.cast.Key pg))

/-- Where a value stands. -/
def place (v : Option s.cast.Value) : s.Order pg :=
  v.elim ⊤ fun v => ↑(s.direction.order (s.cast.key pg v))

/-- **What markets are ordered by**: the sort value, a missing one last, then the identity. -/
def key (r : MarketRow) : s.Order pg ×ₗ pg.Collated :=
  toLex (s.place pg (s.value r), pg.collate r.identity)

variable {pg s}

theorem precedes_eq (x y : s.cast.Value) :
    s.precedes pg x y = decide (s.place pg (some x) < s.place pg (some y)) := by
  rw [precedes, place, place, Option.elim_some, Option.elim_some]
  obtain ⟨cast, expression, direction⟩ := s
  cases direction with
  | asc => exact decide_eq_decide.mpr WithTop.coe_lt_coe.symm
  | desc => exact decide_eq_decide.mpr (OrderDual.toDual_lt_toDual.symm.trans WithTop.coe_lt_coe.symm)

theorem place_inj (x y : s.cast.Value) :
    s.place pg (some x) = s.place pg (some y) ↔ s.cast.key pg x = s.cast.key pg y := by
  rw [place, place, Option.elim_some, Option.elim_some, WithTop.coe_inj]
  exact ⟨s.direction.order_injective _ _, congrArg _⟩

theorem place_lt_top (x : s.cast.Value) : s.place pg (some x) < s.place pg none :=
  WithTop.coe_lt_top _

theorem le_eq (a b : MarketRow) : s.le pg a b = decide (s.key pg a ≤ s.key pg b) := by
  rw [le, key, key]
  cases s.value a with
  | none =>
    cases s.value b with
    | none => simp only [Prod.Lex.toLex_le_toLex, lt_irrefl, false_or, true_and]
    | some y =>
      refine (decide_eq_false ?_).symm
      rw [Prod.Lex.toLex_le_toLex, not_or]
      exact ⟨not_lt_of_gt (place_lt_top y), fun h => (place_lt_top y).ne' h.1⟩
  | some x =>
    cases s.value b with
    | none =>
      refine (decide_eq_true ?_).symm
      rw [Prod.Lex.toLex_le_toLex]
      exact Or.inl (place_lt_top x)
    | some y =>
      dsimp only
      rw [precedes_eq, ← Bool.decide_or, decide_eq_decide, Prod.Lex.toLex_le_toLex, place_inj]

theorem afterClause_eq (last : Option (String × Option s.cast.Value)) (r : MarketRow) :
    s.afterClause pg last r = (last.map fun a => (toLex (s.place pg a.2, pg.collate a.1) :
      s.Order pg ×ₗ pg.Collated)).all fun k => decide (k < s.key pg r) := by
  rcases last with - | ⟨identity, - | v⟩
  · rfl
  · rw [afterClause, Option.map_some, Option.all_some, key]
    cases s.value r with
    | none => simp only [Option.isNone_none, Bool.true_and, Prod.Lex.toLex_lt_toLex, lt_irrefl,
        false_or, true_and]
    | some x =>
      refine (decide_eq_false ?_).symm
      rw [Prod.Lex.toLex_lt_toLex, not_or]
      exact ⟨not_lt_of_gt (place_lt_top x), fun h => (place_lt_top x).ne' h.1⟩
  · rw [afterClause, Option.map_some, Option.all_some, key]
    cases s.value r with
    | none =>
      refine (decide_eq_true ?_).symm
      rw [Prod.Lex.toLex_lt_toLex]
      exact Or.inl (place_lt_top v)
    | some x =>
      dsimp only
      rw [precedes_eq, ← Bool.decide_or, decide_eq_decide, Prod.Lex.toLex_lt_toLex, place_inj,
        eq_comm (a := s.cast.key pg x)]

/-- **The sort value of a row goes through its cursor.** -/
theorem after_sortKey {a : CursorPayload} {r : MarketRow} (hkey : a.sortKey = s.sortKey pg r) :
    s.after pg (some a) = .ok (some (a.identity, s.value r)) := by
  rw [after, hkey, sortKey]
  cases s.value r with
  | none =>
    have hlist : "n:".toList = ['n', ':'] := rfl
    simp only [hlist]
  | some v =>
    have hlist : ("v:" ++ s.cast.toText pg v).toList = 'v' :: ':' :: (s.cast.toText pg v).toList := by
      rw [String.toList_append]
      rfl
    simp only [hlist, String.ofList_toList, Cast.read_toText]

end MarketSort

end Orders

/-! ### The rows of a query are distinct -/

section Distinct

variable {pg : Postgres} {db : Database} {scope revision version : String} {publication : Publication}

/-- The identities of the records of a publication. -/
theorem nodup_recordRows :
    ((recordRows db scope publication).map RecordRow.identity).Nodup := by
  rw [recordRows]
  split
  · rw [List.map_map]
    exact (db.records scope publication.revision).keys_nodup
  · exact List.nodup_nil

/-- Rows of different identities have different keys. -/
theorem nodup_keys {ρ κ : Type} {identity : ρ → String} {key : ρ → κ ×ₗ pg.Collated} {rows : List ρ}
    (hkey : ∀ r, (ofLex (key r)).2 = pg.collate (identity r)) (h : (rows.map identity).Nodup) :
    (rows.map key).Nodup := by
  refine List.Nodup.of_map (fun k => (ofLex k).2) ?_
  rw [List.map_map, show (fun k => (ofLex k).2) ∘ key = pg.collate ∘ identity from funext hkey,
    ← List.map_map]
  exact h.map pg.collate_injective

theorem mem_recordRows {r : RecordRow} (hr : r ∈ recordRows db scope publication) :
    ((db.records scope publication.revision).lookup r.identity).isSome := by
  rw [recordRows] at hr
  split at hr
  · obtain ⟨e, he, rfl⟩ := List.mem_map.mp hr
    exact Option.isSome_of_eq_some (AList.mem_lookup_iff.mpr he)
  · cases hr

/-- The identities of the markets. A recent one is not in the publication. -/
theorem nodup_marketRows (includeRecent : Bool) :
    ((marketRows db publication includeRecent).map MarketRow.identity).Nodup := by
  rw [marketRows, List.map_append, List.map_map]
  refine List.nodup_append.mpr ⟨nodup_recordRows, ?_, ?_⟩
  · split
    · rw [List.map_map]
      exact (List.filter_sublist.map Sigma.fst).nodup db.recentMarkets.keys_nodup
    · exact List.nodup_nil
  · intro a ha b hb heq
    obtain ⟨r, hr, rfl⟩ := List.mem_map.mp ha
    obtain ⟨m, hm, rfl⟩ := List.mem_map.mp hb
    split at hm
    · obtain ⟨e, he, rfl⟩ := List.mem_map.mp hm
      have hnew := List.of_mem_filter he
      rw [Bool.and_eq_true] at hnew
      have hrecord := mem_recordRows hr
      rw [show r.identity = e.1 from heq, ← Option.not_isNone, hnew.2] at hrecord
      cases hrecord
    · cases hm

/-- Keys that go through a function that keeps the key, or drops the row. -/
theorem nodup_filterMap {α ρ : Type} {identity : ρ → String} (place : α → String) {f : α → Option ρ}
    {rows : List α} (hf : ∀ a r, f a = some r → identity r = place a)
    (hplaces : ∀ a ∈ rows, ∀ b ∈ rows, (f a).isSome → (f b).isSome → place a = place b → a = b)
    (h : rows.Nodup) : ((rows.filterMap f).map identity).Nodup := by
  induction rows with
  | nil => exact List.nodup_nil
  | cons a rows ih =>
    obtain ⟨ha, hrows⟩ := List.nodup_cons.mp h
    have hrest := ih (fun x hx y hy => hplaces x (List.mem_cons_of_mem a hx) y
      (List.mem_cons_of_mem a hy)) hrows
    cases hfa : f a with
    | none => rwa [List.filterMap_cons_none hfa]
    | some r =>
      rw [List.filterMap_cons_some hfa, List.map_cons, List.nodup_cons]
      refine ⟨fun hmem => ?_, hrest⟩
      obtain ⟨r', hr', heq⟩ := List.mem_map.mp hmem
      obtain ⟨b, hb, hfb⟩ := List.mem_filterMap.mp hr'
      have hsame : place b = place a := (hf b r' hfb).symm.trans (heq.trans (hf a r hfa))
      exact ha (hplaces b (List.mem_cons_of_mem a hb) a List.mem_cons_self
        (Option.isSome_of_eq_some hfb) (Option.isSome_of_eq_some hfa) hsame ▸ hb)

/-- The identities of the markets of a ranking. -/
theorem nodup_rankedRows (cap : Bool) :
    ((rankedRows db publication cap version).map RankedRow.identity).Nodup := by
  rw [rankedRows]
  cases cap with
  | true =>
    rw [if_pos rfl]
    refine nodup_filterMap (fun e => e.1.2) ?_ ?_ (List.Nodup.of_map _ db.capRanks.keys_nodup)
    · intro e r hr
      split at hr
      · obtain ⟨record, -, rfl⟩ := Option.map_eq_some_iff.mp hr
        rfl
      · cases hr
    · intro a ha b hb hsa hsb hplace
      split at hsa
      · split at hsb
        · rename_i hva hvb
          exact List.inj_on_of_nodup_map db.capRanks.keys_nodup ha hb
            (Prod.ext (hva.trans hvb.symm) hplace)
        · cases hsb
      · cases hsa
  | false =>
    rw [if_neg Bool.false_ne_true]
    refine nodup_filterMap (fun e => e.1) ?_ ?_ (List.Nodup.of_map _ db.latestBuys.keys_nodup)
    · intro e r hr
      obtain ⟨record, -, rfl⟩ := Option.map_eq_some_iff.mp hr
      rfl
    · intro a ha b hb _ _ hplace
      exact List.inj_on_of_nodup_map db.latestBuys.keys_nodup ha hb hplace

end Distinct

/-! ### What a page is -/

/-- The records of a publication, in order. -/
def recordListing (pg : Postgres) (db : Database) (scope : String) (p : Publication) :
    List RecordRow :=
  (recordRows db scope p).mergeSort (recordLe pg)

/-- The markets of a ranking that match a filter, in order. -/
def rankedListing (pg : Postgres) (db : Database) (filter : MarketFilterJson) (p : Publication)
    (cap : Bool) (version : String) : List RankedRow :=
  ((rankedRows db p cap version).filter fun r =>
    selected pg filter (some r.identity) r.market.columns).mergeSort (rankedLe pg cap)

/-- The markets that match a filter, in order. -/
def marketListing (pg : Postgres) (db : Database) (filter : MarketFilterJson) (p : Publication)
    (includeRecent : Bool) (s : MarketSort) : List MarketRow :=
  ((marketRows db p includeRecent).filter fun r =>
    selected pg filter r.payload.columns.marketId r.payload.columns).mergeSort (s.le pg)

section Keys

variable (pg : Postgres) (db : Database) (publication : Publication)

theorem nodup_recordKeys (scope : String) :
    ((recordRows db scope publication).map (recordKey pg)).Nodup :=
  nodup_keys (fun _ => rfl) nodup_recordRows

theorem nodup_marketKeys (p : MarketRow → Bool) (includeRecent : Bool) (s : MarketSort) :
    (((marketRows db publication includeRecent).filter p).map (s.key pg)).Nodup :=
  nodup_keys (fun _ => rfl) ((List.filter_sublist.map _).nodup (nodup_marketRows includeRecent))

theorem nodup_rankedKeys (p : RankedRow → Bool) (cap : Bool) (version : String) :
    (((rankedRows db publication cap version).filter p).map (rankedKey pg cap)).Nodup :=
  nodup_keys (fun _ => rfl) ((List.filter_sublist.map _).nodup (nodup_rankedRows cap))

end Keys

section Pages

variable {pg : Postgres} {c : Cryptography} {toLocaleLowerCase : String → String} {db : Database}
  {publication : Publication} {secret : String}

theorem published_of_resolvePublication {scope : String} {requested : Option String}
    (h : resolvePublication db scope requested = .ok publication) :
    (db.published scope publication.revision).isSome := by
  rw [resolvePublication] at h
  split at h
  · rename_i revision _
    obtain ⟨_, -, h⟩ := bind_eq_ok.mp h
    split at h
    · rename_i p hp
      cases h
      exact Option.isSome_of_eq_some hp
    · cases h
  · split at h
    · rename_i p hp
      cases h
      obtain ⟨revision, -, hp⟩ := Option.bind_eq_some_iff.mp hp
      obtain ⟨q, hq, rfl⟩ := Option.map_eq_some_iff.mp hp
      exact Option.isSome_of_eq_some hq
    · cases h

theorem checkLimit_eq_ok {n : ℕ} (hone : 1 ≤ n) (hmost : n ≤ 100) : checkLimit n = .ok () :=
  revertIf_neg (not_or.mpr ⟨not_lt.mpr hone, not_lt.mpr hmost⟩)

/-- The cursor of a row is read back as its payload. -/
theorem decodeGiven_map {ρ : Type} (hsecret : 32 ≤ secret.utf8ByteSize) {scope digest : String}
    {revision : Option String} (payload : ρ → CursorPayload)
    (hpayload : ∀ r, (payload r).scope = scope ∧ (∀ e ∈ revision, e = (payload r).revision) ∧
      (payload r).filterDigest = digest) (last : Option ρ) :
    decodeGiven c (last.map fun r => signed c secret (payload r)) scope revision digest secret
      = .ok (last.map payload) := by
  cases last with
  | none => rfl
  | some r =>
    obtain ⟨hscope, hrevision, hdigest⟩ := hpayload r
    have hread := decodeGiven_signed (c := c) hsecret hrevision
    rw [hscope, hdigest] at hread
    exact hread

/-- **A page of records.** -/
theorem readPublishedPage_eq {input : PageInput} (hsecret : 32 ≤ input.secret.utf8ByteSize)
    (hscope : isToken input.scope = true)
    (hpublication : resolvePublication db input.scope input.revision = .ok publication)
    (last : Option RecordRow) {n : ℕ} (hone : 1 ≤ n) (hmost : n ≤ 100) :
    let sign := fun r => signed c input.secret (recordCursor c input publication r)
    let rows := Paging.left (recordKey pg) (last.map (recordKey pg))
      (recordListing pg db input.scope publication)
    readPublishedPage pg c db { input with cursor := last.map sign, limit := some n } = .ok {
      items := (rows.take n).map fun r => displayAtPublication r.payload publication
      nextCursor := (Paging.ahead n (rows.take (n + 1))).map sign } := by
  intro sign rows
  have hafter : decodeGiven c (last.map sign) input.scope (some publication.revision)
      (c.digest (.page input.filter)) input.secret
        = .ok (last.map (recordCursor c input publication)) :=
    decodeGiven_map hsecret (recordCursor c input publication)
      (fun r => ⟨rfl, fun e he => (Option.some.inj he).symm, rfl⟩) last
  have hrows : ((recordRows db input.scope publication).filter
      (recordAfter pg (last.map (recordCursor c input publication)))).mergeSort (recordLe pg)
        = rows := by
    refine Paging.mergeSort_filter_eq_left (nodup_recordKeys pg db publication input.scope) recordLe_eq fun r => ?_
    rw [recordAfter_eq, Option.map_map]
    rfl
  have hcanonical : ¬((rows.take (n + 1)).length = 0 ∧
      (last.map (recordCursor c input publication)).isSome ∧
      (db.published input.scope publication.revision).isNone) := by
    rintro ⟨-, -, hnone⟩
    rw [← Option.not_isSome, published_of_resolvePublication hpublication] at hnone
    cases hnone
  rw [readPublishedPage, throwIf, revertIf_neg (by rw [hscope]; exact fun hc => nomatch hc), ok_bind]
  dsimp only [Option.getD_some]
  rw [checkLimit_eq_ok hone hmost, ok_bind, hpublication, ok_bind, hafter, ok_bind, hrows, throwIf,
    revertIf_neg hcanonical, ok_bind, encodeNext_eq_ok hsecret, ok_bind, Paging.visible_take,
    Option.map_map]
  rfl

/-- A number that is not zero does not start with a zero. -/
theorem head_toDigits {n : ℕ} (hn : 0 < n) : (Nat.toDigits 10 n).head? ≠ some '0' := by
  induction n using Nat.strong_induction_on with
  | _ n ih =>
    rcases Nat.lt_or_ge n 10 with hlt | hge
    · rw [Nat.toDigits_of_lt_base hlt, List.head?_cons, ne_eq, Option.some.injEq,
        Nat.digitChar_eq_zero]
      exact hn.ne'
    · rw [Nat.toDigits_of_base_le (by omega) hge, List.head?_append_of_ne_nil _ Nat.toDigits_ne_nil]
      exact ih (n / 10) (Nat.div_lt_self hn (by omega)) (Nat.div_pos hge (by omega))

/-- The text of a number is one. -/
theorem isDecimal_toString (n : ℕ) : isDecimal (toString n) = true := by
  have hdigits : ∀ c ∈ Nat.toDigits 10 n, c.isDigit := fun c hc =>
    Nat.isDigit_of_mem_toDigits (by omega) (by omega) hc
  rcases Nat.eq_zero_or_pos n with rfl | hn
  · rfl
  · have hhead := head_toDigits hn
    rw [isDecimal, Nat.toString_eq_repr, Nat.toList_repr]
    split
    · rfl
    · rename_i c cs _ heq
      rw [heq, List.head?_cons, ne_eq, Option.some.injEq] at hhead
      rw [Bool.and_eq_true, decide_eq_true_eq, List.all_eq_true]
      exact ⟨hhead, heq ▸ hdigits⟩
    · rename_i heq
      exact absurd heq Nat.toDigits_ne_nil

/-- The digits of a number are read back. -/
theorem decimal_toString (n : ℕ) : decimal (toString n) = n := by
  rw [decimal, Nat.toString_eq_repr, Nat.toList_repr, Nat.ofDigitChars_ten_toDigits]

/-- **A page of markets.** -/
theorem readPublishedMarketPage_eq {input : MarketPageInput}
    (hsecret : 32 ≤ input.secret.utf8ByteSize) (hranked : isRanked input.filter = false)
    (hfilter : validateMarketFilter input.filter = .ok ())
    (hpublication : resolvePublication db "markets" input.revision = .ok publication)
    (last : Option MarketRow) {n : ℕ} (hone : 1 ≤ n) (hmost : n ≤ 100) :
    let sort := marketSort pg (input.filter.sort.getD .marketIdAsc)
    let sign := fun r => signed c input.secret (marketCursor pg sort
      (c.digest (marketFilterKey pg toLocaleLowerCase db input)) publication r)
    let rows := Paging.left (sort.key pg) (last.map (sort.key pg)) (marketListing pg db
      (marketFilterJson toLocaleLowerCase input.filter) publication input.includeRecent sort)
    readPublishedMarketPage pg c toLocaleLowerCase db
      { input with cursor := last.map sign, limit := some n } = .ok {
        items := (rows.take n).map fun r => displayAtPublication r.payload publication
        nextCursor := (Paging.ahead n (rows.take (n + 1))).map sign } := by
  intro sort sign rows
  let digest := c.digest (marketFilterKey pg toLocaleLowerCase db input)
  let filter := marketFilterJson toLocaleLowerCase input.filter
  let payload := marketCursor pg sort digest publication
  have hcursor : decodeGiven c (last.map sign) "markets" (some publication.revision) digest
      input.secret = .ok (last.map payload) :=
    decodeGiven_map hsecret payload
      (fun r => ⟨rfl, fun e he => (Option.some.inj he).symm, rfl⟩) last
  have hafter : sort.after pg (last.map payload)
      = .ok (last.map fun r => (r.identity, sort.value r)) := by
    cases last with
    | none => rfl
    | some r => exact MarketSort.after_sortKey rfl
  have hrows : (((marketRows db publication input.includeRecent).filter fun r =>
      selected pg filter r.payload.columns.marketId r.payload.columns).filter
      (sort.afterClause pg (last.map fun r => (r.identity, sort.value r)))).mergeSort (sort.le pg)
        = rows := by
    refine Paging.mergeSort_filter_eq_left (nodup_marketKeys pg db publication _ _ sort) MarketSort.le_eq fun r => ?_
    rw [MarketSort.afterClause_eq, Option.map_map]
    rfl
  rw [readPublishedMarketPage]
  dsimp only [Option.getD_some]
  rw [checkLimit_eq_ok hone hmost, ok_bind, hfilter, ok_bind, hranked,
    if_neg Bool.false_ne_true, hpublication, ok_bind]
  change (decodeGiven c (last.map sign) "markets" (some publication.revision) digest input.secret
    >>= _) = _
  rw [hcursor, ok_bind]
  change (sort.after pg (last.map payload) >>= _) = _
  rw [hafter, ok_bind, hrows, encodeNext_eq_ok hsecret, ok_bind, Paging.visible_take,
    Option.map_map]
  rfl

/-- The newest snapshot is there under its version. -/
theorem capSnapshot_some {version : String} (h : capSnapshot db none = some version) :
    capSnapshot db (some version) = some version := by
  obtain ⟨e, he, rfl⟩ := Option.map_eq_some_iff.mp h
  have hmem := List.mem_of_mem_filter (List.mem_mergeSort.mp (List.mem_of_head? he))
  rw [capSnapshot]
  have hany : e ∈ (db.capSnapshots.entries.filter fun x => ((some e.1).isSome || !x.2.legacy) &&
      (some e.1).all fun v => decide (x.1 = v)).mergeSort fun a b =>
        decide (b.2.scheduledAt < a.2.scheduledAt ∨
          b.2.scheduledAt = a.2.scheduledAt ∧ b.2.createdAt ≤ a.2.createdAt) := by
    rw [List.mem_mergeSort, List.mem_filter]
    exact ⟨hmem, decide_eq_true rfl⟩
  obtain ⟨first, hfirst⟩ := Option.isSome_iff_exists.mp
    (List.isSome_head?.mpr (List.ne_nil_of_mem hany))
  rw [hfirst]
  have hcond := List.of_mem_filter (List.mem_mergeSort.mp (List.mem_of_head? hfirst))
  exact congrArg some (of_decide_eq_true hcond)

/-- **A page of a ranking.** -/
theorem readRankedMarketPage_eq {input : MarketPageInput}
    (hsecret : 32 ≤ input.secret.utf8ByteSize) (hranked : isRanked input.filter = true)
    (hfilter : validateMarketFilter input.filter = .ok ())
    (hrevision : (given input.revision).all isRevision = true)
    (hpublication : resolvePublication db "markets" none = .ok publication) {version : String}
    (hversion : rankingVersion db (sortsByCap input.filter) none = .ok version)
    (last : Option RankedRow) {n : ℕ} (hone : 1 ≤ n) (hmost : n ≤ 100) :
    let cap := sortsByCap input.filter
    let filter := marketFilterJson toLocaleLowerCase input.filter
    let sign := fun r => signed c input.secret (rankedCursor (c.digest (.ranking filter)) version r)
    let rows := Paging.left (rankedKey pg cap) (last.map (rankedKey pg cap))
      (rankedListing pg db filter publication cap version)
    readPublishedMarketPage pg c toLocaleLowerCase db
      { input with cursor := last.map sign, limit := some n } = .ok {
        items := (rows.take n).map fun r => displayAtPublication r.payload publication
        nextCursor := (Paging.ahead n (rows.take (n + 1))).map sign } := by
  intro cap filter sign rows
  let payload := rankedCursor (c.digest (.ranking filter)) version
  have hcursor : decodeGiven c (last.map sign) "explore-ranking"
      (if cap then none else some "recent-buys-v2") (c.digest (.ranking filter)) input.secret
        = .ok (last.map payload) := by
    refine decodeGiven_map hsecret payload (fun r => ⟨rfl, fun e he => ?_, rfl⟩) last
    cases hcap : cap with
    | true =>
      rw [hcap, if_pos rfl] at he
      cases he
    | false =>
      rw [hcap, if_neg Bool.false_ne_true, Option.mem_def, Option.some.injEq] at he
      rw [show sortsByCap input.filter = false from hcap, rankingVersion,
        if_neg Bool.false_ne_true] at hversion
      cases hversion
      exact he.symm
  have hposition : ¬((last.map payload).any fun a => !(isDecimal a.sortKey)) = true := by
    cases last with
    | none => exact Bool.false_ne_true
    | some r =>
      rw [Option.map_some, Option.any_some, Bool.not_eq_true', Bool.not_eq_false]
      exact isDecimal_toString r.position
  have hsame : rankingVersion db cap (last.map payload) = .ok version := by
    cases last with
    | none => exact hversion
    | some r =>
      rw [rankingVersion] at hversion ⊢
      cases hcap : cap with
      | true =>
        rw [show sortsByCap input.filter = true from hcap, if_pos rfl] at hversion
        rw [if_pos rfl]
        cases hnewest : capSnapshot db none with
        | none =>
          rw [Option.map_none, hnewest] at hversion
          cases hversion
        | some newest =>
          rw [Option.map_none, hnewest] at hversion
          cases hversion
          rw [Option.map_some, Option.map_some, show (payload r).revision = version from rfl,
            capSnapshot_some hnewest]
      | false =>
        rw [show sortsByCap input.filter = false from hcap] at hversion
        exact hversion
  have hrows : (((rankedRows db publication cap version).filter fun r =>
      selected pg filter (some r.identity) r.market.columns).filter
      (rankedAfter pg cap (last.map payload))).mergeSort (rankedLe pg cap) = rows := by
    refine Paging.mergeSort_filter_eq_left (nodup_rankedKeys pg db publication _ cap version) (rankedLe_eq cap)
      fun r => ?_
    rw [rankedAfter_eq, Option.map_map]
    have hkey : rankedCursorKey pg cap ∘ payload = rankedKey pg cap := by
      funext r
      rw [Function.comp_apply, rankedCursorKey, rankedKey]
      rw [show (payload r).sortKey = toString r.position from rfl, decimal_toString]
      rfl
    rw [hkey]
  rw [readPublishedMarketPage]
  dsimp only [Option.getD_some]
  rw [checkLimit_eq_ok hone hmost, ok_bind, hfilter, ok_bind, hranked, if_pos rfl,
    readRankedMarketPage]
  dsimp only [Option.getD_some]
  rw [throwIf, revertIf_neg, ok_bind, hpublication, ok_bind]
  · change (decodeGiven c (last.map sign) "explore-ranking" (if cap then none else
      some "recent-buys-v2") (c.digest (.ranking filter)) input.secret >>= _) = _
    rw [hcursor, ok_bind, throwIf, revertIf_neg hposition, ok_bind]
    change (rankingVersion db cap (last.map payload) >>= _) = _
    rw [hsame, ok_bind]
    change (encodeNext c ((Paging.ahead n ((List.mergeSort _ (rankedLe pg cap)).take (n + 1))).map
      payload) input.secret >>= _) = _
    rw [hrows, encodeNext_eq_ok hsecret, ok_bind, Paging.visible_take, Option.map_map]
    rfl
  · intro hc
    obtain ⟨r, hr, hinvalid⟩ := (Option.any_eq_true _ _).mp hc
    have hvalid := (Option.all_eq_true _ _).mp hrevision r hr
    rw [hvalid] at hinvalid
    cases hinvalid

end Pages

/-! ### The pages of a listing -/

/-- **Following the cursors shows some items**, each once and in order: with pages of any sizes
those that the sizes reach, and there is no cursor after the last of them. -/
def Shows (read : Option String → ℕ → Except JsError Page) (items : List Payload) : Prop :=
  ∀ limits : List ℕ, limits ≠ [] → (∀ n ∈ limits, 1 ≤ n ∧ n ≤ 100) → ∃ last,
    Paging.follow (fun cursor n => (read cursor n).map fun p => (p.items, p.nextCursor)) limits none
      = .ok (items.take limits.sum, last) ∧ (last = none ↔ items.length ≤ limits.sum)

/-- A listing of some rows: each once, by increasing keys. -/
def Lists {ρ κ : Type} [LT κ] (key : ρ → κ) (rows listing : List ρ) : Prop :=
  listing.Perm rows ∧ listing.Pairwise fun a b => key a < key b

/-- **Different filters have different digests.** A filter with a version of the recent markets
has one more key than any without, so that it is never the same text; a ranking and the markets are
read by the same filter, and are told apart by the scope. -/
structure CollisionFree (c : Cryptography) : Prop where
  page : ∀ a b, c.digest (.page a) = c.digest (.page b) → a = b
  markets : ∀ a b, c.digest (.markets a) = c.digest (.markets b) → a = b
  recent : ∀ a b u v, c.digest (.recent a u) = c.digest (.recent b v) → a = b ∧ u = v
  ranking : ∀ a b, c.digest (.ranking a) = c.digest (.ranking b) → a = b
  markets_ne_recent : ∀ a b v, c.digest (.markets a) ≠ c.digest (.recent b v)

section Complete

variable (pg : Postgres) (c : Cryptography) (toLocaleLowerCase : String → String) (db : Database)

/-- The pages of records show all of them. -/
def RecordPages (secret : String) : Prop :=
  ∀ (input : PageInput) publication, input.secret = secret → isToken input.scope = true →
    resolvePublication db input.scope input.revision = .ok publication →
    ∃ listing, Lists (recordKey pg) (recordRows db input.scope publication) listing ∧
      Shows (fun cursor n => readPublishedPage pg c db { input with cursor, limit := some n })
        (listing.map fun r => displayAtPublication r.payload publication)

/-- The pages of markets show all that match the filter, if the sort goes over no ranking. -/
def MarketPages (secret : String) : Prop :=
  ∀ (input : MarketPageInput) publication, input.secret = secret →
    isRanked input.filter = false → validateMarketFilter input.filter = .ok () →
    resolvePublication db "markets" input.revision = .ok publication →
    ∃ listing, Lists ((marketSort pg (input.filter.sort.getD .marketIdAsc)).key pg)
      ((marketRows db publication input.includeRecent).filter fun r =>
        selected pg (marketFilterJson toLocaleLowerCase input.filter) r.payload.columns.marketId
          r.payload.columns) listing ∧
      Shows (fun cursor n => readPublishedMarketPage pg c toLocaleLowerCase db
        { input with cursor, limit := some n })
        (listing.map fun r => displayAtPublication r.payload publication)

/-- The pages of a ranking show all of its markets that match the filter. -/
def RankedPages (secret : String) : Prop :=
  ∀ (input : MarketPageInput) publication version, input.secret = secret →
    isRanked input.filter = true → validateMarketFilter input.filter = .ok () →
    (given input.revision).all isRevision = true →
    resolvePublication db "markets" none = .ok publication →
    rankingVersion db (sortsByCap input.filter) none = .ok version →
    ∃ listing, Lists (rankedKey pg (sortsByCap input.filter))
      ((rankedRows db publication (sortsByCap input.filter) version).filter fun r =>
        selected pg (marketFilterJson toLocaleLowerCase input.filter) (some r.identity)
          r.market.columns) listing ∧
      Shows (fun cursor n => readPublishedMarketPage pg c toLocaleLowerCase db
        { input with cursor, limit := some n })
        (listing.map fun r => displayAtPublication r.payload publication)

/-- **A cursor of another page is refused**: one that is accepted was issued for the scope, the
revision and the filter. The pages of the market caps go on with the ranking of the cursor. -/
structure Refuses : Prop where
  records : ∀ (input : PageInput) cursor Issued page, cursor ≠ "" →
    Unforgeable c input.secret Issued cursor →
    readPublishedPage pg c db { input with cursor := some cursor } = .ok page →
    ∃ p publication, Issued p ∧ p.scope = input.scope ∧
      resolvePublication db input.scope input.revision = .ok publication ∧
      p.revision = publication.revision ∧
      ∀ filter, p.filterDigest = c.digest (.page filter) → filter = input.filter
  markets : ∀ (input : MarketPageInput) cursor Issued page, cursor ≠ "" →
    isRanked input.filter = false → Unforgeable c input.secret Issued cursor →
    readPublishedMarketPage pg c toLocaleLowerCase db { input with cursor := some cursor }
      = .ok page →
    ∃ p publication, Issued p ∧ p.scope = "markets" ∧
      resolvePublication db "markets" input.revision = .ok publication ∧
      p.revision = publication.revision ∧
      p.filterDigest = c.digest (marketFilterKey pg toLocaleLowerCase db input) ∧
      (∀ filter, p.filterDigest = c.digest (.markets filter) → input.includeRecent = false ∧
        filter = marketFilterJson toLocaleLowerCase input.filter) ∧
      ∀ filter version, p.filterDigest = c.digest (.recent filter version) →
        input.includeRecent = true ∧ filter = marketFilterJson toLocaleLowerCase input.filter ∧
          version = readRecentMarketVersion pg db
  ranked : ∀ (input : MarketPageInput) cursor Issued page, cursor ≠ "" →
    isRanked input.filter = true → Unforgeable c input.secret Issued cursor →
    readPublishedMarketPage pg c toLocaleLowerCase db { input with cursor := some cursor }
      = .ok page →
    ∃ p, Issued p ∧ p.scope = "explore-ranking" ∧
      (sortsByCap input.filter = false → p.revision = "recent-buys-v2") ∧
      ∀ filter, p.filterDigest = c.digest (.ranking filter) →
        filter = marketFilterJson toLocaleLowerCase input.filter

variable {pg c toLocaleLowerCase db} {secret : String}

theorem recordPages (hsecret : 32 ≤ secret.utf8ByteSize) : RecordPages pg c db secret := by
  rintro input publication rfl hscope hpublication
  have hlisted := Paging.listed_mergeSort
    (nodup_recordKeys pg db publication input.scope)
    recordLe_eq
  refine ⟨_, ⟨List.mergeSort_perm _ _, hlisted⟩, fun limits hne hlimits => ?_⟩
  refine Paging.follow_listing hlisted _
    (fun r => signed c input.secret (recordCursor c input publication r)) ?_ hne hlimits
  intro last n hone hmost
  exact congrArg (Except.map fun p => (p.items, p.nextCursor))
    (readPublishedPage_eq hsecret hscope hpublication last hone hmost)

theorem marketPages (hsecret : 32 ≤ secret.utf8ByteSize) :
    MarketPages pg c toLocaleLowerCase db secret := by
  rintro input publication rfl hranked hfilter hpublication
  have hlisted := Paging.listed_mergeSort
    (nodup_marketKeys pg db publication (fun r => selected pg
      (marketFilterJson toLocaleLowerCase input.filter) r.payload.columns.marketId
      r.payload.columns) input.includeRecent (marketSort pg (input.filter.sort.getD .marketIdAsc)))
    MarketSort.le_eq
  refine ⟨_, ⟨List.mergeSort_perm _ _, hlisted⟩, fun limits hne hlimits => ?_⟩
  refine Paging.follow_listing hlisted _ (fun r => signed c input.secret (marketCursor pg
    (marketSort pg (input.filter.sort.getD .marketIdAsc))
    (c.digest (marketFilterKey pg toLocaleLowerCase db input)) publication r)) ?_ hne hlimits
  intro last n hone hmost
  exact congrArg (Except.map fun p => (p.items, p.nextCursor))
    (readPublishedMarketPage_eq hsecret hranked hfilter hpublication last hone hmost)

theorem rankedPages (hsecret : 32 ≤ secret.utf8ByteSize) :
    RankedPages pg c toLocaleLowerCase db secret := by
  rintro input publication version rfl hranked hfilter hrevision hpublication hversion
  have hlisted := Paging.listed_mergeSort
    (nodup_rankedKeys pg db publication (fun r => selected pg
      (marketFilterJson toLocaleLowerCase input.filter) (some r.identity) r.market.columns)
      (sortsByCap input.filter) version) (rankedLe_eq _)
  refine ⟨_, ⟨List.mergeSort_perm _ _, hlisted⟩, fun limits hne hlimits => ?_⟩
  refine Paging.follow_listing hlisted _ (fun r => signed c input.secret (rankedCursor
    (c.digest (.ranking (marketFilterJson toLocaleLowerCase input.filter))) version r)) ?_ hne hlimits
  intro last n hone hmost
  exact congrArg (Except.map fun p => (p.items, p.nextCursor)) (readRankedMarketPage_eq hsecret
    hranked hfilter hrevision hpublication hversion last hone hmost)

/-- The cursor of a page of a ranking was issued for a ranking. -/
theorem issued_of_readRankedMarketPage {input : MarketPageInput} {cursor : String}
    {Issued : CursorPayload → Prop} {page : Page} (hcursor : cursor ≠ "")
    (hforge : Unforgeable c input.secret Issued cursor)
    (hok : readRankedMarketPage pg c toLocaleLowerCase db { input with cursor := some cursor }
      = .ok page) :
    ∃ p, Issued p ∧ p.scope = "explore-ranking" ∧
      (∀ r ∈ (if sortsByCap input.filter then none else some "recent-buys-v2"), p.revision = r) ∧
      p.filterDigest = c.digest (.ranking (marketFilterJson toLocaleLowerCase input.filter)) := by
  rw [readRankedMarketPage] at hok
  obtain ⟨_, -, hok⟩ := bind_eq_ok.mp hok
  obtain ⟨_, -, hok⟩ := bind_eq_ok.mp hok
  obtain ⟨_, hafter, -⟩ := bind_eq_ok.mp hok
  exact issued_of_decodeGiven hforge hcursor hafter

theorem refuses (hcollision : CollisionFree c) : Refuses pg c toLocaleLowerCase db where
  records := by
    intro input cursor Issued page hcursor hforge hok
    rw [readPublishedPage] at hok
    obtain ⟨_, -, hok⟩ := bind_eq_ok.mp hok
    obtain ⟨_, -, hok⟩ := bind_eq_ok.mp hok
    obtain ⟨publication, hpublication, hok⟩ := bind_eq_ok.mp hok
    obtain ⟨_, hafter, -⟩ := bind_eq_ok.mp hok
    obtain ⟨p, hissued, hscope, hrevision, hdigest⟩ := issued_of_decodeGiven hforge hcursor hafter
    exact ⟨p, publication, hissued, hscope, hpublication, hrevision _ rfl,
      fun filter hfilter => hcollision.page _ _ (hfilter.symm.trans hdigest)⟩
  markets := by
    intro input cursor Issued page hcursor hranked hforge hok
    rw [readPublishedMarketPage] at hok
    obtain ⟨_, -, hok⟩ := bind_eq_ok.mp hok
    obtain ⟨_, -, hok⟩ := bind_eq_ok.mp hok
    rw [if_neg (Bool.eq_false_iff.mp hranked)] at hok
    obtain ⟨publication, hpublication, hok⟩ := bind_eq_ok.mp hok
    obtain ⟨_, hafter, -⟩ := bind_eq_ok.mp hok
    obtain ⟨p, hissued, hscope, hrevision, hdigest⟩ := issued_of_decodeGiven hforge hcursor hafter
    have hkey : p.filterDigest = c.digest (marketFilterKey pg toLocaleLowerCase db input) := hdigest
    refine ⟨p, publication, hissued, hscope, hpublication, hrevision _ rfl, hkey,
      fun filter hfilter => ?_, fun filter version hfilter => ?_⟩
    · rw [hfilter, marketFilterKey] at hkey
      cases hrecent : input.includeRecent with
      | false =>
        rw [hrecent, if_neg Bool.false_ne_true] at hkey
        exact ⟨rfl, hcollision.markets _ _ hkey⟩
      | true =>
        rw [hrecent, if_pos rfl] at hkey
        exact absurd hkey (hcollision.markets_ne_recent _ _ _)
    · rw [hfilter, marketFilterKey] at hkey
      cases hrecent : input.includeRecent with
      | false =>
        rw [hrecent, if_neg Bool.false_ne_true] at hkey
        exact absurd hkey.symm (hcollision.markets_ne_recent _ _ _)
      | true =>
        rw [hrecent, if_pos rfl] at hkey
        exact ⟨rfl, hcollision.recent _ _ _ _ hkey⟩
  ranked := by
    intro input cursor Issued page hcursor hranked hforge hok
    rw [readPublishedMarketPage] at hok
    obtain ⟨_, -, hok⟩ := bind_eq_ok.mp hok
    obtain ⟨_, -, hok⟩ := bind_eq_ok.mp hok
    rw [if_pos hranked] at hok
    obtain ⟨p, hissued, hscope, hrevision, hdigest⟩ :=
      issued_of_readRankedMarketPage hcursor hforge hok
    refine ⟨p, hissued, hscope, fun hcap => ?_,
      fun filter hfilter => hcollision.ranking _ _ (hfilter.symm.trans hdigest)⟩
    rw [hcap, if_neg Bool.false_ne_true] at hrevision
    exact hrevision _ rfl

/-- **Published pages**: the cursors lead through all records, all markets that match a filter,
and all markets of a ranking that do, each once and in order; and a cursor of another page is
refused. -/
theorem published_pages (hsecret : 32 ≤ secret.utf8ByteSize) (hcollision : CollisionFree c) :
    RecordPages pg c db secret ∧ MarketPages pg c toLocaleLowerCase db secret ∧
      RankedPages pg c toLocaleLowerCase db secret ∧ Refuses pg c toLocaleLowerCase db :=
  ⟨recordPages hsecret, marketPages hsecret, rankedPages hsecret, refuses hcollision⟩

end Complete

/-! ### A market without a rank -/

section Sample

instance encodableChar : Encodable Char := .ofLeftInverse Char.toNat Char.ofNat Char.ofNat_toNat

instance encodableString : Encodable String :=
  .ofLeftInverse String.toList String.ofList fun _ => String.ofList_toList

/-- A text that a value is read back from: the digits of a number. -/
def codeText {α : Type} [Encodable α] (a : α) : String := (Encodable.encode a).repr

/-- The value that a decimal text encodes. -/
def codeRead {α : Type} [Encodable α] (s : String) : Option α := Encodable.decode (decimal s)

theorem codeRead_codeText {α : Type} [Encodable α] (a : α) : codeRead (codeText a) = some a := by
  rw [codeRead, codeText, ← Nat.toString_eq_repr, decimal_toString, Encodable.encodek]

theorem codeText_injective {α : Type} [Encodable α] :
    Function.Injective (codeText : α → String) := by
  intro a b h
  have hread : codeRead (codeText a) = some a := codeRead_codeText a
  rw [h, codeRead_codeText, Option.some.injEq] at hread
  exact hread.symm

theorem not_mem_codeText {α : Type} [Encodable α] (a : α) : '.' ∉ (codeText a).toList := by
  rw [codeText, Nat.toList_repr]
  intro hmem
  have hdigit := Nat.isDigit_of_mem_toDigits (by omega) (by omega) hmem
  revert hdigit
  decide

/-- The fields of a payload. -/
def fields (p : CursorPayload) : String × String × String × String × String :=
  (p.scope, p.revision, p.filterDigest, p.sortKey, p.identity)

/-- The fields of a filter. -/
def MarketFilterJson.fields (f : MarketFilterJson) : (Option String × Option String ×
    Option String × Option ℕ) × (Option Bool × Option String × Option String × Option String) ×
    String :=
  ((f.assetUid, f.marketId, f.memeToken, f.launchPhase),
    (f.stakingEnabled, f.search, f.createdFrom, f.createdTo), f.sort)

theorem MarketFilterJson.fields_injective {f g : MarketFilterJson} (h : f.fields = g.fields) :
    f = g := by
  cases f
  cases g
  simp only [MarketFilterJson.fields, Prod.mk.injEq] at h
  obtain ⟨⟨rfl, rfl, rfl, rfl⟩, ⟨rfl, rfl, rfl, rfl⟩, rfl⟩ := h
  rfl

/-- A database that compares texts by their characters. -/
def samplePostgres : Postgres where
  Collated := String
  order := inferInstance
  collate s := s
  collate_injective := Function.injective_id
  numericText n := codeText (n.unscaled, n.scale)
  numericCast s := (codeRead s).map fun n : ℤ × ℕ => ⟨n.1, n.2⟩
  numericCast_text n := by rw [codeRead_codeText]; rfl
  integerText n := codeText n
  integerCast s := codeRead s
  integerCast_text n := codeRead_codeText n
  lower := String.toLower
  like _ _ := true
  md5 s := s

/-- Cursors that are written in digits. -/
def sampleCryptography : Cryptography where
  encode p := codeText (fields p)
  parse s := (codeRead s).map fun f : String × String × String × String × String =>
    some ⟨some 1, some f.1, some f.2.1, some f.2.2.1, some f.2.2.2.1, some f.2.2.2.2⟩
  hmac secret text := codeText (secret, text)
  digest
    | .page f => codeText f
    | .markets f => codeText (f.fields, (none : Option String))
    | .recent f version => codeText (f.fields, some version)
    | .ranking f => codeText f.fields
  parse_encode p := by rw [codeRead_codeText]; rfl
  encode_ne_nil _ := Nat.repr_ne_empty
  not_mem_encode _ := not_mem_codeText _
  hmac_ne_nil _ _ := Nat.repr_ne_empty
  not_mem_hmac _ _ := not_mem_codeText _

theorem collisionFree_sample : CollisionFree sampleCryptography where
  page _ _ h := codeText_injective h
  markets _ _ h := MarketFilterJson.fields_injective (Prod.mk.inj (codeText_injective h)).1
  recent _ _ _ _ h := by
    have hboth := Prod.mk.inj (codeText_injective h)
    exact ⟨MarketFilterJson.fields_injective hboth.1, Option.some.inj hboth.2⟩
  ranking _ _ h := MarketFilterJson.fields_injective (codeText_injective h)
  markets_ne_recent _ _ _ h := by cases (Prod.mk.inj (codeText_injective h)).2

/-- A market with no asset, before its launch. -/
def sampleMarket : MarketPayload where
  marketId := some "0x01"
  assetUid := none
  memeToken := none
  gauge := none
  launchPhase := some 0
  name := some "Rose"
  symbol := none
  deployedAt := none
  metrics := none
  lastBuy := none
  display := none

/-- The publication of a block. -/
def samplePublication : Publication where
  revision := "7:0x0000000000000000000000000000000000000000000000000000000000000007"
  blockNumber := 7
  blockHash := "0x07"
  storage := none
  asOf := none

/-- A publication of one market, which nobody has bought yet. -/
def sampleDatabase : Database where
  publications := AList.singleton ("markets", samplePublication.revision) samplePublication
  pointers := AList.singleton "markets" samplePublication.revision
  finalBlocks := ["0x07"]
  records _ _ := AList.singleton "0x01" ("", .market sampleMarket)
  recentMarkets := ∅
  capSnapshots := ∅
  capRanks := ∅
  latestBuys := ∅

/-- A request without a filter. -/
def sampleInput (sort : Option MarketSortKey) : MarketPageInput where
  filter := ⟨none, none, none, none, none, none, none, none, sort⟩
  secret := "a secret of at least 32 bytes ..."
  includeRecent := false
  revision := none
  cursor := none
  limit := none

/-- A market of the garden, which may have no name. -/
def gardenMarket (marketId : String) (name : Option String) : MarketPayload :=
  { sampleMarket with marketId := some marketId, name }

/-- A publication of three markets, one of which has no name. -/
def gardenDatabase : Database :=
  { sampleDatabase with
    records := fun _ _ => ((AList.singleton "0x02" ("", .market (gardenMarket "0x02"
      (some "Tulip")))).insert "0x01" ("", .market (gardenMarket "0x01" none))).insert "0x03"
      ("", .market (gardenMarket "0x03" (some "Rose"))) }

/-- The markets of the garden by their names. -/
def gardenListing : List MarketRow :=
  [⟨"0x03", .market (gardenMarket "0x03" (some "Rose"))⟩,
    ⟨"0x02", .market (gardenMarket "0x02" (some "Tulip"))⟩,
    ⟨"0x01", .market (gardenMarket "0x01" none)⟩]

/-- The rows come in the order of the names. -/
theorem pairwise_gardenListing :
    gardenListing.Pairwise fun a b => (marketSort samplePostgres .nameAsc).key samplePostgres a
      < (marketSort samplePostgres .nameAsc).key samplePostgres b := by
  have hafter : gardenListing.Pairwise fun a b =>
      (marketSort samplePostgres .nameAsc).le samplePostgres b a = false := by
    decide +kernel
  refine hafter.imp fun {a b} h => ?_
  rw [MarketSort.le_eq, decide_eq_false_iff_not] at h
  exact not_le.mp h

/-- Two pages of the garden: the first shows two markets and has a cursor, and the second shows
the market without a name and has none. The cursor of this sort is refused by another sort. -/
theorem published_pages_sample :
    let secret := (sampleInput none).secret
    let read := fun sort cursor n => readPublishedMarketPage samplePostgres sampleCryptography
      String.toLower gardenDatabase { sampleInput (some sort) with cursor, limit := some n }
    ((∃ cursor, Paging.follow (fun cursor n => (read .nameAsc cursor n).map fun p =>
          (p.items, p.nextCursor)) [2] none
        = .ok ((gardenListing.take 2).map MarketRow.payload, some cursor)) ∧
      Paging.follow (fun cursor n => (read .nameAsc cursor n).map fun p =>
          (p.items, p.nextCursor)) [2, 2] none
        = .ok (gardenListing.map MarketRow.payload, none) ∧
      ∀ cursor p page, cursor ≠ "" → Unforgeable sampleCryptography secret (· = p) cursor →
        p.filterDigest = sampleCryptography.digest
          (.markets (marketFilterJson String.toLower (sampleInput (some .nameAsc)).filter)) →
        read .createdAtAsc (some cursor) 2 ≠ .ok page) ∧
    RecordPages samplePostgres sampleCryptography gardenDatabase secret ∧
      MarketPages samplePostgres sampleCryptography String.toLower gardenDatabase secret ∧
      RankedPages samplePostgres sampleCryptography String.toLower gardenDatabase secret ∧
      Refuses samplePostgres sampleCryptography String.toLower gardenDatabase := by
  intro secret read
  have hpages := @published_pages samplePostgres sampleCryptography String.toLower gardenDatabase
    secret (by decide +kernel) collisionFree_sample
  refine ⟨?_, hpages⟩
  obtain ⟨-, hmarkets, -, hrefuses⟩ := hpages
  obtain ⟨listing, ⟨hperm, hsorted⟩, hshows⟩ := hmarkets (sampleInput (some .nameAsc))
    samplePublication rfl rfl rfl rfl
  -- the listing is the one that is in order
  obtain rfl : listing = gardenListing :=
    List.Perm.eq_of_pairwise (fun a b _ _ hab hba => absurd hba hab.asymm) hsorted
      pairwise_gardenListing (hperm.trans (by decide +kernel))
  obtain ⟨first, hfirst, hmore⟩ := hshows [2] (by decide) (by decide)
  obtain ⟨last, hall, hend⟩ := hshows [2, 2] (by decide) (by decide)
  obtain rfl : last = none := hend.mpr (by decide)
  obtain ⟨cursor, rfl⟩ := Option.ne_none_iff_exists'.mp fun hnone =>
    absurd (hmore.mp hnone) (by decide)
  refine ⟨⟨cursor, hfirst⟩, hall, fun cursor p page hcursor hforge hdigest hread => ?_⟩
  obtain ⟨_, _, rfl, -, -, -, -, hsame, -⟩ := hrefuses.markets
    { sampleInput (some .createdAtAsc) with limit := some 2 } cursor _ page hcursor rfl hforge hread
  exact absurd (congrArg MarketFilterJson.sort (hsame _ hdigest).2) (by decide)

/-- **A market without a rank is on no page of a ranking**, though it matches the filter. -/
theorem ranked_page_omits_unranked :
    (marketRows sampleDatabase samplePublication false).filter (fun r => selected samplePostgres
        (marketFilterJson String.toLower (sampleInput (some .recentBuyDesc)).filter)
        r.payload.columns.marketId r.payload.columns) = [⟨"0x01", .market sampleMarket⟩] ∧
      readPublishedMarketPage samplePostgres sampleCryptography String.toLower sampleDatabase
        (sampleInput (some .recentBuyDesc)) = .ok ⟨[], none⟩ :=
  ⟨rfl, by decide +kernel⟩

end Sample

end PublishedPages

end Backend

end TickerGarden
