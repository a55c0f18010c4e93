import TickerGarden.Types
import TickerGarden.Lib.Table
import TickerGarden.Lib.Emission

/-!
# The ledger of the continuous holder rewards

The backend replays the calls of the holder distributor against a ledger of its own, in
integers that do not overflow. A reward that comes in is paid out over a day: it becomes a
**stream** with a rate and a remainder, and what the streams release is shared by the accounts
that are not excluded, in proportion to their balances, through an index.

* `TickerGarden.Backend.HolderLedger.Ledger.checkpoint` brings the ledger to a time. The
  streams that have ended are taken off in the order of their ends; what was released goes into
  the index, or into `idle` while nobody has a balance.
* `TickerGarden.Backend.HolderLedger.Ledger.restart` makes a stream of what is idle. A batched
  ledger starts streams at a distance, so that a few slots are enough; the distance can be
  changed while streams are running.
* `TickerGarden.Backend.HolderLedger.Ledger.apply` is one call. It works on a copy, which
  replaces the ledger only if everything was in order.

Times are natural numbers: both entry points refuse a time whose day would not end within a
`uint64`, and no time is subtracted from an earlier one. A text is what it writes, and `none` if
it writes nothing of the kind that is asked for.
-/

namespace TickerGarden

open Checked

namespace Backend

namespace HolderLedger

/-- `Duration`: a day. -/
def duration : ℕ := 86400

/-- `MaxStreams`. -/
def maxStreams : ℕ := 64

/-- `FundingInterval`: four hours. -/
def fundingInterval : ℕ := 4 * 3600

/-- `MinFundingInterval`. -/
def minFundingInterval : ℕ := 3600

/-- `MaxFundingInterval`. -/
def maxFundingInterval : ℕ := 86400

/-- The unit of the index: what one token has earned is counted in this fraction of a unit of the
reward. -/
def precision : ℤ := 10 ^ 27

/-- The errors. The source has one value, `ErrInput`, for both; that a stream finds no slot is
told apart here. -/
inductive ErrInput
  | input
  | slot
deriving DecidableEq

/-- A text that should write a decimal integer. -/
abbrev Decimal := Option ℤ

/-- `n.BitLen() > bits`. -/
def BitLenExceeds (n : ℤ) (bits : ℕ) : Prop := 2 ^ bits ≤ n.natAbs

instance (n : ℤ) (bits : ℕ) : Decidable (BitLenExceeds n bits) :=
  inferInstanceAs (Decidable (2 ^ bits ≤ n.natAbs))

/-- A number of a request: a decimal text, not negative, and of at most 256 bits. -/
def integer (s : Decimal) : Except ErrInput ℤ := do
  let n ← orRevert s .input
  revertIf (n < 0 ∨ BitLenExceeds n 256) .input
  return n

/-- A reward that is paid out over time: so much for each second until its end, and a remainder that
is left over by the division. -/
structure Stream where
  /-- `End`. -/
  endsAt : ℕ
  rate : ℤ
  remainder : ℤ
deriving DecidableEq

/-- A holder: its balance, the index it was settled at, and what it had earned by then. -/
structure Account where
  balance : ℤ
  index : ℤ
  earned : ℤ
deriving DecidableEq

/-- The ledger of one market: what came in and what was paid, the streams that still run, the index,
and the accounts. -/
structure Ledger where
  batched : Bool
  configurableInterval : Bool
  fundingInterval : ℕ
  lastStreamStartedAt : ℕ
  head : UInt8
  lastFundingAt : ℕ
  marketId : Bytes32
  token : Address
  excluded : List Address
  accounts : Table Address Account
  updatedAt : ℕ
  supply : ℤ
  index : ℤ
  indexRemainder : ℤ
  rate : ℤ
  idle : ℤ
  funded : ℤ
  paid : ℤ
  streams : List Stream

/-! ### The registration -/

/-- The state of the token when the rewards are enabled. -/
structure Registration where
  batched : Bool
  configurableInterval : Bool
  marketId : Option Bytes32
  token : Option Address
  totalSupply : Decimal
  timestamp : ℕ
  excluded : List (Option Address)
  balances : Table (Option Address) Decimal

/-- The loop that reads the excluded addresses. -/
def readExcluded (excluded : List Address) (a : Option Address) :
    Except ErrInput (List Address) := do
  let a ← orRevert a .input
  revertIf (a ∈ excluded) .input
  return excluded ++ [a]

/-- What the loop that reads the balances has made of them. -/
structure Opening where
  accounts : Table Address Account
  sum : ℤ
  supply : ℤ

/-- A balance of the registration is read, and added to the opening of the ledger; what an excluded
account has is not part of the supply. -/
def readBalance (excluded : List Address) (opening : Opening)
    (entry : Sigma fun _ : Option Address => Decimal) : Except ErrInput Opening := do
  let a ← orRevert entry.1 .input
  let n ← integer entry.2
  return { accounts := opening.accounts.insert a { balance := n, index := 0, earned := 0 },
           sum := opening.sum + n,
           supply := if a ∈ excluded then opening.supply - n else opening.supply }

/-- `New`. -/
def Ledger.new (r : Registration) : Except ErrInput Ledger := do
  let marketId ← orRevert r.marketId .input
  let token ← orRevert r.token .input
  revertIf (marketId = 0 ∨ token = 0 ∨ maxUint64 - duration < r.timestamp ∨
    100000 < r.balances.entries.length ∨ 9 < r.excluded.length) .input
  let supply ← integer r.totalSupply
  let excluded ← r.excluded.foldlM readExcluded []
  revertIf (0 ∉ excluded ∨ token ∉ excluded) .input
  let opening ← r.balances.entries.foldlM (readBalance excluded)
    { accounts := ∅, sum := 0, supply := supply }
  revertIf (opening.sum ≠ supply ∨ opening.supply < 0) .input
  return { batched := r.batched, configurableInterval := r.configurableInterval,
           fundingInterval := if r.configurableInterval then HolderLedger.fundingInterval else 0,
           lastStreamStartedAt := 0, head := 0, lastFundingAt := 0, marketId, token, excluded,
           accounts := opening.accounts, updatedAt := r.timestamp, supply := opening.supply,
           index := 0, indexRemainder := 0, rate := 0, idle := 0, funded := 0, paid := 0,
           streams := [] }

/-! ### The accounts -/

/-- What is read of an account; one that is missing has nothing. -/
def Ledger.account (l : Ledger) (a : Address) : Account :=
  (l.accounts.lookup a).getD { balance := 0, index := 0, earned := 0 }

/-- The row of an account is written. -/
def Ledger.setAccount (l : Ledger) (a : Address) (v : Account) : Ledger :=
  { l with accounts := l.accounts.insert a v }

/-- `accrue`: an account is paid what the index has grown since it was last. -/
def Ledger.accrue (l : Ledger) (a : Address) : Ledger :=
  if a ∈ l.excluded then l
  else
    let v := l.account a
    l.setAccount a { v with earned := v.earned + v.balance * (l.index - v.index), index := l.index }

/-! ### The streams -/

/-- `maxStreams()`. -/
def Ledger.maxStreams (l : Ledger) : ℕ :=
  if l.batched then
    if l.configurableInterval then 24 else duration / HolderLedger.fundingInterval
  else HolderLedger.maxStreams

/-- `interval()`. -/
def Ledger.interval (l : Ledger) : ℕ :=
  if l.fundingInterval = 0 then HolderLedger.fundingInterval else l.fundingInterval

/-- `nextStreamStartAt()`. -/
def Ledger.nextStreamStartAt (l : Ledger) : ℕ :=
  if l.lastStreamStartedAt = 0 ∧ l.streams.length = 0 then 0
  else l.lastStreamStartedAt + l.interval

/-- The loop of `checkpoint`: the first stream is taken off as long as it has ended. The second
component is what was released. -/
def releaseEnded (ts : ℕ) : List Stream → Ledger → ℤ → Ledger × ℤ
  | [], l, released => (l, released)
  | s :: streams, l, released =>
    if s.endsAt ≤ ts then
      releaseEnded ts streams
        { l with updatedAt := s.endsAt, rate := l.rate - s.rate, streams,
                 head := (l.head + 1) % UInt8.ofNat l.maxStreams }
        (released + l.rate * ((s.endsAt - l.updatedAt : ℕ) : ℤ) + s.remainder)
    else (l, released)

/-- What was released is put into the index, or aside while nobody has a balance. -/
def Ledger.distribute (l : Ledger) (released : ℤ) : Ledger :=
  if l.supply = 0 then { l with idle := l.idle + released }
  else
    { l with index := l.index + (released + l.indexRemainder).tdiv l.supply,
             indexRemainder := (released + l.indexRemainder).tmod l.supply }

/-- `checkpoint`. -/
def Ledger.checkpoint (l : Ledger) (ts : ℕ) : Ledger :=
  let ended := releaseEnded ts l.streams l 0
  { ended.1 with updatedAt := ts }.distribute
    (ended.2 + ended.1.rate * ((ts - ended.1.updatedAt : ℕ) : ℤ))

/-- A stream of its own, which takes a slot. -/
def Ledger.pushStream (l : Ledger) (s : Stream) : Except ErrInput Ledger := do
  revertIf (l.streams.length = l.maxStreams) .slot
  return { l with streams := l.streams ++ [s], rate := l.rate + s.rate }

/-- A stream is added to the last one. -/
def Ledger.mergeStream (l : Ledger) (last s : Stream) : Ledger :=
  { l with streams := l.streams.dropLast ++ [{ last with rate := last.rate + s.rate,
                                                         remainder := last.remainder + s.remainder }],
           rate := l.rate + s.rate }

/-- `appendStream`. -/
def Ledger.appendStream (l : Ledger) (amount : ℤ) (endsAt : ℕ) : Except ErrInput Ledger :=
  let s : Stream := { endsAt, rate := amount.tdiv duration, remainder := amount.tmod duration }
  match l.streams.getLast? with
  | some last => if last.endsAt = endsAt then .ok (l.mergeStream last s) else l.pushStream s
  | none => l.pushStream s

/-- `restart`. -/
def Ledger.restart (l : Ledger) (ts : ℕ) : Except ErrInput Ledger :=
  if l.idle = 0 ∨ l.supply = 0 then .ok l
  else if l.batched ∧ ts < l.nextStreamStartAt ∧ ts ≠ l.lastStreamStartedAt then .ok l
  else if ¬ l.batched ∧ l.streams.length = HolderLedger.maxStreams then .ok l
  else do
    let c ← { l with idle := 0 }.appendStream l.idle (ts + duration)
    return if c.batched then { c with lastStreamStartedAt := ts } else c

/-! ### The calls -/

/-- The kinds of actions that the ledger takes. Any other is refused. -/
inductive Kind
  | fund
  | checkpoint
  | transfer
  | claim
  | setFundingInterval
  | other
deriving DecidableEq

/-- An action, with the fields of all kinds; each kind reads its own. -/
structure Action where
  kind : Kind
  timestamp : ℕ
  fromAccount : Option Address
  toAccount : Option Address
  account : Option Address
  amount : Decimal
  interval : ℕ
deriving DecidableEq

/-- The interval between two streams is changed, within its bounds, on a market that allows it. -/
def Ledger.setFundingInterval (c : Ledger) (a : Action) : Except ErrInput Ledger := do
  revertIf (¬ c.batched ∨ ¬ c.configurableInterval ∨ a.interval < minFundingInterval ∨
    maxFundingInterval < a.interval) .input
  return { c with fundingInterval := a.interval }

/-- A reward that came in: a batched ledger puts it aside first. -/
def Ledger.receive (c : Ledger) (n : ℤ) (ts : ℕ) : Except ErrInput Ledger :=
  if c.batched then { c with idle := c.idle + n * precision }.restart ts
  else c.appendStream (n * precision) (ts + duration)

/-- A reward comes in. What has come in altogether stays below 128 bits. -/
def Ledger.fund (c : Ledger) (a : Action) : Except ErrInput Ledger := do
  let n ← integer a.amount
  revertIf (n = 0) .input
  revertIf (BitLenExceeds (c.funded + n) 128) .input
  { c with lastFundingAt := a.timestamp, funded := c.funded + n }.receive n a.timestamp

/-- Tokens are not taken from the zero address, -/
def Ledger.debit (c : Ledger) (a : Address) (n : ℤ) : Except ErrInput Ledger :=
  if a = 0 then .ok c
  else do
    let f := c.account a
    revertIf (f.balance < n) .input
    return c.setAccount a { f with balance := f.balance - n }

/-- and not given to it. -/
def Ledger.credit (c : Ledger) (a : Address) (n : ℤ) : Ledger :=
  if a = 0 then c
  else c.setAccount a { c.account a with balance := (c.account a).balance + n }

/-- The supply that shares in the rewards. -/
def Ledger.moveSupply (c : Ledger) (fromAccount toAccount : Address) (n : ℤ) : Ledger :=
  { c with supply := c.supply - (if fromAccount ∈ c.excluded then 0 else n)
                       + (if toAccount ∈ c.excluded then 0 else n) }

/-- A transfer to oneself only has to be covered. Looking at the account makes an entry. -/
def Ledger.selfTransfer (c : Ledger) (a : Address) (n : ℤ) : Except ErrInput Ledger :=
  if a = 0 then .ok c
  else do
    revertIf ((c.account a).balance < n) .input
    return c.setAccount a (c.account a)

/-- What a transfer does between its accruals and the restart. -/
def Ledger.move (c : Ledger) (fromAccount toAccount : Address) (n : ℤ) : Except ErrInput Ledger :=
  if fromAccount = toAccount then (c.accrue fromAccount).selfTransfer fromAccount n
  else do
    let c ← ((c.accrue fromAccount).accrue toAccount).debit fromAccount n
    return (c.credit toAccount n).moveSupply fromAccount toAccount n

/-- Tokens move from one account to another, which are both settled first; then the streams are
restarted, as the supply may have changed. -/
def Ledger.transfer (c : Ledger) (a : Action) : Except ErrInput Ledger := do
  let fromAccount ← orRevert a.fromAccount .input
  let toAccount ← orRevert a.toAccount .input
  let n ← integer a.amount
  let c ← c.move fromAccount toAccount n
  c.restart a.timestamp

/-- A claim has to be of all that was earned, in whole units. -/
def Ledger.pay (c : Ledger) (account : Address) (n : ℤ) : Except ErrInput Ledger := do
  let v := c.account account
  revertIf (v.earned.tdiv precision ≠ n) .input
  return { c.setAccount account { v with earned := v.earned - n * precision } with
           paid := c.paid + n }

/-- An account is settled and paid exactly what it asks for, if that is what it is owed. -/
def Ledger.claim (c : Ledger) (a : Action) : Except ErrInput Ledger := do
  let account ← orRevert a.account .input
  revertIf (account = 0) .input
  let n ← integer a.amount
  let c ← (c.accrue account).restart a.timestamp
  c.pay account n

/-- What `valid` asks of a number. -/
def Fits (n : ℤ) : Prop := 0 ≤ n ∧ ¬ BitLenExceeds n 256

instance (n : ℤ) : Decidable (Fits n) := inferInstanceAs (Decidable (0 ≤ n ∧ ¬ BitLenExceeds n 256))

/-- `valid`. -/
def Ledger.Valid (l : Ledger) : Prop :=
  (∀ n ∈ [l.supply, l.index, l.indexRemainder, l.rate, l.idle, l.funded, l.paid], Fits n) ∧
    l.paid ≤ l.funded ∧
    ∀ e ∈ l.accounts.entries, ∀ n ∈ [e.2.balance, e.2.index, e.2.earned], Fits n

instance (l : Ledger) : Decidable l.Valid :=
  inferInstanceAs (Decidable ((∀ n ∈ [_, _, _, _, _, _, _], Fits n) ∧ _ ∧ ∀ e ∈ _, ∀ n ∈ [_, _, _],
    Fits n))

/-- The call proper, by its kind. -/
def Ledger.perform (c : Ledger) (a : Action) : Except ErrInput Ledger :=
  match a.kind with
  | .setFundingInterval => c.setFundingInterval a
  | .fund => (c.checkpoint a.timestamp).fund a
  | .checkpoint => (c.checkpoint a.timestamp).restart a.timestamp
  | .transfer => (c.checkpoint a.timestamp).transfer a
  | .claim => (c.checkpoint a.timestamp).claim a
  | .other => .error .input

/-- What `Apply` makes of the copy. -/
def Ledger.applied (l : Ledger) (a : Action) : Except ErrInput Ledger := do
  revertIf (a.timestamp < l.updatedAt ∨ maxUint64 - duration < a.timestamp) .input
  let c ← l.perform a
  revertIf (100000 < c.accounts.entries.length ∨ ¬ c.Valid) .input
  return c

/-- `Apply`: the ledger afterwards, and the error that was returned. -/
def Ledger.apply (l : Ledger) (a : Action) : Ledger × Option ErrInput :=
  match l.applied a with
  | .ok c => (c, none)
  | .error e => (l, some e)

/-- A sequence of calls, rejected ones included. -/
def Ledger.applyAll (l : Ledger) (actions : List Action) : Ledger :=
  actions.foldl (fun l a => (l.apply a).1) l

/-! ### The view -/

/-- What the view shows of an account. -/
structure AccountView where
  balance : ℤ
  earnedScaled : ℤ
  index : ℤ
  claimable : ℤ
deriving DecidableEq

/-- What the view shows of the ledger at a time: the sums, and the accounts as a claim would settle
them. -/
structure Snapshot where
  claimableAt : ℕ
  updatedAt : ℕ
  supply : ℤ
  index : ℤ
  indexRemainder : ℤ
  rate : ℤ
  idle : ℤ
  funded : ℤ
  paid : ℤ
  accounts : Table Address AccountView
  publicationEligible : Bool

/-- What an account can claim when the index has grown to that of `c`. -/
def Ledger.viewAccount (l c : Ledger) (a : Address) (v : Account) : AccountView where
  balance := v.balance
  earnedScaled := v.earned
  index := v.index
  claimable :=
    if a ∈ l.excluded then 0 else (v.earned + v.balance * (c.index - v.index)).tdiv precision

/-- `View`: what can be claimed at a time, with the ledger left as it is. -/
def Ledger.view (l : Ledger) (ts : ℕ) : Except ErrInput Snapshot := do
  revertIf (ts < l.updatedAt ∨ maxUint64 - duration < ts) .input
  let c := l.checkpoint ts
  revertIf (100000 < c.accounts.entries.length ∨ ¬ c.Valid) .input
  return { claimableAt := ts, updatedAt := l.updatedAt, supply := l.supply, index := l.index,
           indexRemainder := l.indexRemainder, rate := l.rate, idle := l.idle,
           funded := l.funded, paid := l.paid,
           accounts := Table.map (l.viewAccount c) l.accounts, publicationEligible := false }

end HolderLedger

end Backend

end TickerGarden
