import Mathlib.Data.Prod.Lex
import TickerGarden.Backend.Decoded
import TickerGarden.Lib.Reducer
import TickerGarden.Lib.Table

/-!
# The ledger of a holder snapshot

`advanceSnapshotLedger` rebuilds the balances of a token as of a block, from the logs the
indexer has stored, in pages of bounded size. The work is a row of the database with its
balances in another table. If there is the finished work of an earlier block, its balances are
copied first (phase `copy`) and only the later logs are replayed (phase `replay`); otherwise
all of them are. The balances are then compared with the chain (phase `verify`).

A page is one transaction: it is committed as a whole, with the cursors that say where the next
one starts, or not at all. So a work goes from page to page (`Step`), whatever happens in
between, and every call brings its own page size and finds the surroundings as they are then
(`Call`).
-/

namespace TickerGarden

open Checked

namespace Backend

namespace SnapshotLedger

/-! ### The logs -/

/-- The arguments of a `Transfer`. -/
structure Transfer where
  sender : Address
  recipient : Address
  value : ℕ
deriving DecidableEq

/-- An event of the token. -/
inductive TokenEvent
  | transfer (e : Transfer)
  | other (name : String)
deriving DecidableEq

/-- `e.eventName==='Transfer'`. -/
def TokenEvent.transfer? : TokenEvent → Option Transfer
  | .transfer e => some e
  | .other _ => none

/-- A log of the token, with what it decodes to. -/
structure TokenLog where
  log : RpcLog
  event : Option TokenEvent

/-- Where a log stands: block, transaction and log index, compared in this order. -/
abbrev Position := ℤ ×ₗ ℤ ×ₗ ℤ

/-- A place in the chain, in the order of the chain. -/
def position (block tx log : ℤ) : Position := toLex (block, toLex (tx, log))

/-- The place of a log. -/
def TokenLog.position (l : TokenLog) : Position :=
  SnapshotLedger.position l.log.blockNumber l.log.transactionIndex l.log.logIndex

/-- The history of a token: its logs in the canonical chain, in order. All of them are events
of the token's interface. -/
structure History where
  logs : List TokenLog
  listed : Paging.Listed TokenLog.position logs
  decoded : ∀ l ∈ logs, l.event ≠ none

/-- The logs up to a block. -/
def History.upTo (history : History) (block : ℕ) : List TokenLog :=
  history.logs.filter fun l => decide (l.log.blockNumber ≤ block)

/-! ### Replaying transfers -/

/-- The variables of the replay loop. -/
structure Replay where
  minted : Bool
  balances : Table Address ℕ

/-- A transfer from the zero address is the mint, and there is only one. -/
def debit (s : Replay) (e : Transfer) : Except JsError Replay :=
  if e.sender = 0 then do
    throwIf s.minted "unexpected snapshot mint"
    return { s with minted := true }
  else do
    let balance := (s.balances.lookup e.sender).getD 0
    throwIf (balance < e.value) "snapshot transfer history underflow"
    return { s with balances := s.balances.insert e.sender (balance - e.value) }

/-- The recipient of a transfer gets its value, unless the token is burned. -/
def credit (s : Replay) (e : Transfer) : Replay :=
  if e.recipient = 0 then s
  else
    let balance := (s.balances.lookup e.recipient).getD 0
    { s with balances := s.balances.insert e.recipient (balance + e.value) }

/-- The body of the replay loop. -/
def replayTransfer (s : Replay) (e : Transfer) : Except JsError Replay := do
  let s ← debit s e
  return credit s e

/-- The transfers among the logs. -/
def transfers (logs : List TokenLog) : List Transfer :=
  logs.filterMap fun l => l.event.bind TokenEvent.transfer?

/-- **The whole history is replayed at once**, from the beginning up to a block. -/
def fullReplay (history : History) (block : ℕ) : Except JsError Replay :=
  (transfers (history.upTo block)).foldlM replayTransfer ⟨false, ∅⟩

/-! ### The work -/

/-- A row of `holder_snapshot_balances`. -/
structure BalanceRow where
  balance : ℕ
  verified : Bool
deriving DecidableEq

/-- The phases of the work on a snapshot, in the order they are gone through. -/
inductive Phase
  | copy
  | replay
  | verify
  | balancesReady
  | leaves
  | tree
  | proofs
  | complete
deriving DecidableEq

/-- The phases whose balances another work may start from. -/
def Phase.Ready (phase : Phase) : Prop :=
  phase ≠ .copy ∧ phase ≠ .replay ∧ phase ≠ .verify

instance (phase : Phase) : Decidable phase.Ready := inferInstanceAs (Decidable (_ ∧ _ ∧ _))

/-- A finished work of an earlier block. -/
structure Base where
  blockNumber : ℕ
  balances : Table Address BalanceRow

/-- What a snapshot is of. -/
structure Snapshot where
  snapshotBlock : ℕ
  snapshotBlockHash : Bytes32
  totalSupply : ℕ
  base : Option Base

/-- A row of `holder_snapshot_work`, with its balances. The text of an account is compared as
the number it spells, and the empty text is less than all of them. -/
structure Work where
  phase : Phase
  minted : Bool
  after : Position
  copyCursor : WithBot ℕ
  balances : Table Address BalanceRow

/-- The greatest `bigint` of the database. -/
def maxBigint : ℤ := 2 ^ 63 - 1

/-- A new work. -/
def openWork (o : Snapshot) : Work where
  phase := if o.base.isSome then .copy else .replay
  minted := o.base.isSome
  after := match o.base with
    | some base => position base.blockNumber maxBigint maxBigint
    | none => position (-1) (-1) (-1)
  copyCursor := ⊥
  balances := ∅

/-- What a call is given, and what it finds. -/
structure Call where
  pageSize : ℕ
  /-- `assertLedgerAnchor`: the block of the snapshot is still the indexed one. -/
  anchored : Bool
  sameContext : Bool
  /-- The block of the base is still canonical and finalized. -/
  baseCanonical : Bool
  /-- What the token answers as of the block of the snapshot. -/
  balanceOf : Address → ℕ
  consensusHash : Bytes32

/-! ### A page of each phase -/

/-- The order of accounts in a query. -/
def accountKey (account : Address) : WithBot ℕ := (account.toNat : ℕ)

/-- The rows of a base, as they are copied. -/
def copiedRows (base : Base) : List (Address × BalanceRow) :=
  (base.balances.rows BitVec.toNat).map fun r => (r.1, { r.2 with verified := true })

/-- Copy a page of the base. -/
def copyPage (o : Snapshot) (call : Call) (w : Work) : Except JsError Work := do
  throwIf (call.baseCanonical = false) "snapshot base orphaned"
  match o.base with
  | none => throwJs "snapshot base orphaned"
  | some base =>
    let rows := Paging.page (fun r => accountKey r.1) call.pageSize w.copyCursor (copiedRows base)
    let balances ← rows.foldlM
      (Table.insertNew ⟨"duplicate key value violates unique constraint"⟩) w.balances
    return { w with
      balances
      copyCursor := Paging.next (fun r => accountKey r.1) w.copyCursor rows
      phase := if rows.length < call.pageSize then .replay else .copy }

/-- The event of a log, which has to be one of the token. -/
def decodeLog (l : TokenLog) : Except JsError TokenEvent :=
  match l.event with
  | some e => .ok e
  | none => throwJs "unknown snapshot token event"

/-- What the logs of a page decode to. -/
def decodeLogs (logs : List TokenLog) : Except JsError (List Transfer) := do
  let events ← logs.mapM decodeLog
  return events.filterMap TokenEvent.transfer?

/-- The accounts of some transfers. -/
def accounts (events : List Transfer) : List Address :=
  (events.flatMap fun e => [e.sender, e.recipient]).filter fun a => a ≠ 0

/-- Replay a page of logs. The balances of its accounts are read, the events applied to them,
and all of them are written back. -/
def replayPage (history : History) (o : Snapshot) (call : Call) (w : Work) :
    Except JsError Work := do
  let logs := Paging.page TokenLog.position call.pageSize w.after (history.upTo o.snapshotBlock)
  let events ← decodeLogs logs
  let balances := (w.balances.restrict (· ∈ accounts events)).map fun _ r => r.balance
  let s ← events.foldlM replayTransfer ⟨w.minted, balances⟩
  return { w with
    balances := s.balances.map (fun _ balance => ⟨balance, false⟩) ∪ w.balances
    minted := s.minted
    after := Paging.next TokenLog.position w.after logs
    phase := if logs.length < call.pageSize then .verify else .replay }

/-- Compare a page of balances with the chain. When none is left and the sum is the total
supply, the balances are ready. -/
def verifyPage (o : Snapshot) (call : Call) (w : Work) : Except JsError (Bool × Work) := do
  let rows := ((w.balances.rows BitVec.toNat).filter fun r => !r.2.verified).take call.pageSize
  throwIf (∃ r ∈ rows, call.balanceOf r.1 ≠ r.2.balance) "snapshot wallet balance disagreement"
  throwIf (call.consensusHash ≠ o.snapshotBlockHash) "snapshot anchor changed"
  let balances := w.balances.map fun account r =>
    if account ∈ rows.map Prod.fst then { r with verified := true } else r
  if ∃ r ∈ balances.rows BitVec.toNat, r.2.verified = false then
    return (false, { w with balances })
  else do
    throwIf (balances.total (fun _ r => r.balance) ≠ o.totalSupply ∨ w.minted = false)
      "snapshot supply mismatch"
    return (true, { w with balances, phase := .balancesReady })

/-- The page a work is at. -/
def advancePhase (history : History) (o : Snapshot) (call : Call) (w : Work) :
    Except JsError (Bool × Work) :=
  match w.phase with
  | .copy => do return (false, ← copyPage o call w)
  | .replay => do return (false, ← replayPage history o call w)
  | .verify => verifyPage o call w
  | _ => .ok (true, w)

/-- One page of the work, which is opened if there is none yet. The answer is whether the
balances are ready. -/
def advanceSnapshotLedger (history : History) (o : Snapshot) (call : Call) (work : Option Work) :
    Except JsError (Bool × Work) := do
  throwIf (call.pageSize < 1 ∨ call.pageSize > 1000) "invalid snapshot page size"
  throwIf (call.anchored = false) "snapshot generation or anchor changed"
  let w := work.getD (openWork o)
  throwIf (call.sameContext = false) "snapshot work context conflict"
  advancePhase history o call w

/-! ### A work from page to page -/

/-- The states of a work: it goes to the next page, or a call fails or is interrupted and
leaves everything as it was. Once the balances are ready, the tree of the snapshot is built
from them, and they stay. -/
inductive Step (history : History) (o : Snapshot) : Option Work → Unit → Option Work → Prop
  | page (call : Call) {work : Option Work} {done : Bool} {w : Work}
      (h : advanceSnapshotLedger history o call work = .ok (done, w)) :
      Step history o work () (some w)
  | interrupted (work : Option Work) : Step history o work () work
  | treeAdvanced (w : Work) (phase : Phase) (hfrom : w.phase.Ready) (hto : phase.Ready) :
      Step history o (some w) () (some { w with phase })

/-- The states a work can be in. -/
abbrev Reachable (history : History) (o : Snapshot) : Option Work → Prop :=
  Transition.Reachable (Step history o) (· = none)

/-- **Verified ledgers**: the balances of a work that has got them ready, at its block. The
base of that work was a verified ledger of an earlier block. -/
inductive Verified (history : History) : ℕ → Table Address BalanceRow → Prop
  | intro (o : Snapshot) (w : Work)
      (hbefore : ∀ base, o.base = some base → base.blockNumber < o.snapshotBlock)
      (hbase : ∀ base, o.base = some base → Verified history base.blockNumber base.balances)
      (hrun : Reachable history o (some w)) (hready : w.phase.Ready) :
      Verified history o.snapshotBlock w.balances

/-- The base of a snapshot, if it has one, is a verified ledger of an earlier block. -/
def Snapshot.Extends (history : History) (o : Snapshot) : Prop :=
  ∀ base, o.base = some base → base.blockNumber < o.snapshotBlock ∧
    Verified history base.blockNumber base.balances

/-- Call after call until the replay is over, as its caller does. -/
def replayToEnd (history : History) (o : Snapshot) (calls : List Call) (work : Option Work) :
    Except JsError (Option Work) :=
  calls.foldlM (fun work call =>
    if (work.getD (openWork o)).phase = .copy ∨ (work.getD (openWork o)).phase = .replay then do
      let (_, w) ← advanceSnapshotLedger history o call work
      return some w
    else pure work) work

end SnapshotLedger

end Backend

end TickerGarden
