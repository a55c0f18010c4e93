import TickerGarden.Types
import TickerGarden.Backend.Decoded
import TickerGarden.Lib.Interaction

/-!
# The sweep of the creator fees

`sweepOnce` signs one transaction that sweeps the fees of a curve, keeps it in a journal and sends
it, or finds out what became of the one that is pending. An operator's command calls it for one
market after the other (`sweepScript`). Both are programs here (`Interaction.Program`): a request
is a call of the node, the signer, the clock, the database, the file of the journal, or an access
to the journal that the process has in its memory, and every request but those to the memory and
the clock may fail.

Accounts, hashes and the fixed call data are the words they spell, an amount or a minimum is the
number it spells, and a day of the calendar is the number of its days.

| source file                 | functions                                       |
|-----------------------------|-------------------------------------------------|
| `src/creator-sweep.ts`      | `sweepBudget`, `sweepOnce`, `verifySweepIntent` |
| `scripts/creator-sweep.ts`  | `save`, `main` inside of the signer's lane      |
-/

namespace TickerGarden

open Checked

namespace Backend

namespace CreatorSweep

open Interaction

/-- Bytes that the code keeps as a text in hexadecimal. -/
abbrev Hex := List UInt8

/-! ### Data -/

/-- What the command is configured with: its chain and release, what it may spend on gas for one
transaction and in one day, and from which amount on the fees of an asset are swept. -/
structure SweepPolicy where
  chainId : ℕ
  releaseId : String
  maxTxGasWei : ℤ
  dailyGasWei : ℤ
  minByAsset : Address → Option ℕ
  finality : String
  delaySeconds : ℚ

/-- The intent: a transaction that was signed and is not settled. -/
structure Intent where
  raw : Hex
  hash : Bytes32
  market : Bytes32
  curve : Address
  quote : Address
  nonce : ℕ
deriving DecidableEq

/-- How the last transaction of the journal ended: for which market it was, and with which status.
-/
structure Settlement where
  market : Bytes32
  hash : Bytes32
  status : String
deriving DecidableEq

/-- The journal. The day is that of the amount that is reserved. -/
structure SweepJournal where
  chainId : ℕ
  releaseId : String
  signer : Address
  day : Option ℕ
  reserved : ℕ
  cursor : Option Bytes32
  pending : Option Intent
  last : Option Settlement
deriving DecidableEq

/-- A market that may be swept, with the asset its fees are in. -/
structure Candidate where
  marketId : Bytes32
  quoteAsset : Address
deriving DecidableEq

/-- `decodeMarketRecord`, as far as it is read. -/
structure MarketRecord where
  curve : Address
  quoteAsset : Address
  launchPhase : ℕ
deriving DecidableEq

/-- A block, as far as it is read from the node. -/
structure RpcBlock where
  number : ℕ
  hash : Bytes32
  timestamp : ℕ
deriving DecidableEq

/-- A receipt, as the node returns it. -/
structure Receipt where
  blockNumber : ℕ
  blockHash : Bytes32
  transactionHash : Bytes32
  toAddress : Option Address
  fromAddress : Option Address
  status : String
deriving DecidableEq

/-- A transaction to be signed: its type is `legacy`, its data the call of `sweepCurveFees`, and
its value zero. -/
structure SweepTransaction where
  chainId : ℕ
  toAddress : Address
  gas : ℕ
  gasPrice : ℕ
  nonce : ℕ
deriving DecidableEq

/-- What a signed transaction is read back as. -/
structure ParsedTransaction where
  chainId : Option ℕ
  toAddress : Option Address
  data : Option Hex
  value : Option ℕ
  nonce : Option ℕ
  gas : Option ℕ
  gasPrice : Option ℕ
deriving DecidableEq

/-- What is taken from elsewhere, as pure functions. -/
structure Services where
  keccak256 : Hex → Bytes32
  parseTransaction : Hex → Except JsError ParsedTransaction
  recoverTransactionAddress : Hex → Except JsError Address
  decodeMarketRecord : Hex → Except JsError MarketRecord
  sweepData : Hex
  registryCodeHash : Option Bytes32

/-! ### Requests -/

/-- What the command asks of the outside: of the node, the signer, the clock and its journal. A
process may stop at any of these. -/
inductive Request
  | chainId
  | block (number : Option ℕ)
  | code (number : ℕ)
  | marketCall (id : Bytes32) (number : ℕ)
  | receipt (hash : Bytes32)
  | transactionCount (tag : String)
  | finalizedBlock
  | accruedCurveFees (curve : Address) (number : ℕ)
  | simulate (curve : Address) (number : ℕ)
  | estimateGas (curve : Address)
  | gasPrice
  | balance
  | sendRawTransaction (raw : Hex)
  | sign (tx : SweepTransaction)
  | now
  | journal
  | setJournal (journal : SweepJournal)
  | save (journal : SweepJournal)
  | account
  | rows (cursor : Option Bytes32)
deriving DecidableEq

/-- What a request is answered with. -/
abbrev Request.Result : Request → Type
  | .chainId | .transactionCount _ | .accruedCurveFees .. | .estimateGas _ | .gasPrice | .balance
  | .now => ℕ
  | .block _ | .finalizedBlock => RpcBlock
  | .code _ | .marketCall .. => Option Hex
  | .receipt _ => Option Receipt
  | .sendRawTransaction _ => Bytes32
  | .sign _ => Hex
  | .journal => SweepJournal
  | .account => Address
  | .rows _ => List Candidate
  | .simulate .. | .setJournal _ | .save _ => Unit

/-- An answer: the result that the request is for, or the error that the call throws. -/
abbrev Answer (r : Request) : Type := Except JsError r.Result

/-- A program of the sweeper. -/
abbrev Sweeper (α : Type) : Type := Program Request Answer JsError α

/-- A request whose failure is the failure of the program. -/
def ask (r : Request) : Sweeper r.Result := .ask r Program.lift

/-- `throw`. -/
def throwUnless (c : Prop) [Decidable c] (message : String) : Sweeper Unit :=
  Program.lift (throwIf (¬c) message)

/-- The journal is written as it is in memory. -/
def save : Sweeper Unit := do
  let j ← ask .journal
  ask (.save j)

/-! ### One call -/

/-- What a call of the command returns. -/
inductive Status
  | pending
  | confirming
  | settled (last : Settlement)
  | idle
  | skipped
  | belowThreshold
  | submitted (hash : Bytes32)
deriving DecidableEq

/-- `new Date().toISOString().slice(0,10)`, of a time in milliseconds. -/
def utcDay (now : ℕ) : ℕ := now / 86400000

/-- What a call is made with: the account that signs, if one may, whether a transaction that was
signed is sent again, and the market to look at, if only one is. -/
structure SweepOptions where
  account : Option Address
  retrySigned : Bool
  candidate : Option Candidate

section Sweep

variable (sv : Services) (p : SweepPolicy)

/-- The gas of a transaction fits into the budget of one transaction, and into what is left of the
day. -/
def sweepBudget (reserved cost : ℕ) : Except JsError Unit :=
  throwIf ((cost : ℤ) ≤ 0 ∨ (cost : ℤ) > p.maxTxGasWei ∨ (reserved : ℤ) + cost > p.dailyGasWei)
    "Creator sweep gas budget exceeded"

/-- `verifySweepIntent`, of the intent that is pending. -/
def verifySweepIntent (j : SweepJournal) (pending : Intent) (record : MarketRecord) :
    Except JsError Unit := do
  let tx ← sv.parseTransaction pending.raw
  let signer ← sv.recoverTransactionAddress pending.raw
  throwIf (sv.keccak256 pending.raw ≠ pending.hash ∨ signer ≠ j.signer ∨
      tx.chainId ≠ some p.chainId ∨ tx.toAddress ≠ some pending.curve ∨
      record.curve ≠ pending.curve ∨ record.quoteAsset ≠ pending.quote ∨
      tx.data ≠ some sv.sweepData ∨ tx.value.getD 0 ≠ 0 ∨ tx.nonce ≠ some pending.nonce)
    "Creator sweep intent mismatch"
  throwIf (tx.gas.getD 0 = 0 ∨ tx.gasPrice.getD 0 = 0 ∨
      ((tx.gas.getD 0 * tx.gasPrice.getD 0 : ℕ) : ℤ) > p.maxTxGasWei)
    "Creator sweep intent gas exceeds budget"

/-- The record of a market, as the registry has it at a block. -/
def market (head : RpcBlock) (id : Bytes32) : Sweeper MarketRecord := do
  match ← ask (.marketCall id head.number) with
  | none => Program.lift (throwJs "Creator market missing")
  | some data => Program.lift (sv.decodeMarketRecord data)

/-- The bytes of the journal are sent again: no replacement of the nonce, and no new fee. -/
def rebroadcast (pending : Intent) : Sweeper Unit := do
  let count ← ask (.transactionCount "latest")
  throwUnless (count ≤ pending.nonce) "Creator nonce consumed without matching receipt"
  let sent ← ask (.sendRawTransaction pending.raw)
  throwUnless (sent = pending.hash) "Creator sweep submission mismatch"

/-- Whether a receipt is not final yet. -/
def confirming (head b : RpcBlock) : Sweeper Bool :=
  if p.finality = "finalized" then do
    let final ← ask .finalizedBlock
    let again ← ask (.block (some final.number))
    throwUnless (again.hash = final.hash) "Creator finality anchor changed"
    return decide (b.number > final.number)
  else return decide ((head.timestamp : ℚ) < b.timestamp + p.delaySeconds)

/-- What has become of the intent. -/
def reconcile (o : SweepOptions) (j : SweepJournal) (head : RpcBlock) (pending : Intent) :
    Sweeper Status := do
  let record ← market sv head pending.market
  Program.lift (verifySweepIntent sv p j pending record)
  match ← ask (.receipt pending.hash) with
  | none => do
    if o.retrySigned then rebroadcast pending
    return .pending
  | some receipt => do
    let b ← ask (.block (some receipt.blockNumber))
    throwUnless (b.hash = receipt.blockHash ∧ receipt.transactionHash = pending.hash ∧
      receipt.toAddress = some pending.curve ∧ receipt.fromAddress = some j.signer)
      "Creator sweep receipt mismatch"
    throwUnless (receipt.status = "0x0" ∨ receipt.status = "0x1")
      "Creator sweep receipt status invalid"
    if ← confirming p head b then return .confirming
    else do
      let again ← ask (.block (some b.number))
      throwUnless (again.hash = b.hash) "Creator sweep receipt reorganized"
      let last : Settlement := ⟨pending.market, pending.hash,
        if receipt.status = "0x1" then "confirmed" else "reverted"⟩
      ask (.setJournal { j with last := some last, pending := none })
      save
      return .settled last

/-- The journal of a day: what was reserved on another day is no more. -/
def SweepJournal.onDay (j : SweepJournal) (day : ℕ) : SweepJournal :=
  if j.day ≠ some day then { j with day := some day, reserved := 0 } else j

/-- The transaction is signed, kept and sent. -/
def submit (j : SweepJournal) (head : RpcBlock) (c : Candidate) (curve : Address) :
    Sweeper Status := do
  let time ← ask .now
  let j := j.onDay (utcDay time)
  ask (.setJournal j)
  ask (.simulate curve head.number)
  let nonce ← ask (.transactionCount "pending")
  let latest ← ask (.transactionCount "latest")
  throwUnless (nonce = latest) "Creator signer has pending transactions"
  let estimate ← ask (.estimateGas curve)
  let gasPrice ← ask .gasPrice
  let gas := estimate * 120 / 100
  let cost := gas * gasPrice
  Program.lift (sweepBudget p j.reserved cost)
  let balance ← ask .balance
  throwUnless (cost ≤ balance) "Creator signer balance insufficient"
  let again ← ask (.block (some head.number))
  throwUnless (again.hash = head.hash) "Creator sweep preflight changed"
  let count ← ask (.transactionCount "pending")
  throwUnless (count = nonce) "Creator sweep preflight changed"
  let raw ← ask (.sign ⟨p.chainId, curve, gas, gasPrice, nonce⟩)
  let hash := sv.keccak256 raw
  ask (.setJournal { j with
    reserved := j.reserved + cost
    pending := some ⟨raw, hash, c.marketId, curve, c.quoteAsset, nonce⟩ })
  save
  -- a send that times out is uncertain: the journal has the intent, and nothing more is signed
  let returned ← ask (.sendRawTransaction raw)
  throwUnless (returned = hash) "Creator sweep submission mismatch"
  return .submitted hash

/-- A candidate, when no intent is pending. -/
def consider (j : SweepJournal) (head : RpcBlock) (c : Candidate) (account : Address) :
    Sweeper Status := do
  throwUnless (account = j.signer) "Creator sweep signer mismatch"
  let record ← market sv head c.marketId
  if record.quoteAsset ≠ c.quoteAsset ∨ record.launchPhase ≠ 0 then return .skipped
  else
    match p.minByAsset c.quoteAsset with
    | none => return .skipped
    | some min => do
      let amount ← ask (.accruedCurveFees record.curve head.number)
      if amount < min then return .belowThreshold
      else submit sv p j head c record.curve

/-- A policy, and a journal that is one of it. -/
def ValidPolicy (j : SweepJournal) : Prop :=
  j.chainId = p.chainId ∧ j.releaseId = p.releaseId ∧ 0 < p.maxTxGasWei ∧ 0 < p.dailyGasWei ∧
    (p.finality = "finalized" ∨ p.finality = "delay") ∧ p.delaySeconds.den = 1 ∧
    60 ≤ p.delaySeconds

instance (j : SweepJournal) : Decidable (ValidPolicy p j) :=
  inferInstanceAs (Decidable (_ ∧ _))

/-- One call of the command: the policy, the chain and the code are checked first; then a pending
transaction is looked after, and only without one is a market swept. -/
def sweepOnce (o : SweepOptions) : Sweeper Status := do
  let j ← ask .journal
  throwUnless (ValidPolicy p j) "Invalid Creator sweep policy"
  let chainId ← ask .chainId
  throwUnless (chainId = p.chainId) "Creator sweep chain mismatch"
  let head ← ask (.block none)
  throwUnless (sv.registryCodeHash.isSome = true) "Creator registry code mismatch"
  let code ← ask (.code head.number)
  throwUnless (sv.registryCodeHash = some (sv.keccak256 (code.getD [])))
    "Creator registry code mismatch"
  match j.pending, o.candidate, o.account with
  | some pending, _, _ => reconcile sv p o j head pending
  | none, some c, some account => consider sv p j head c account
  | none, _, _ => return .idle

/-! ### The command -/

/-- The commands: what each of them does with a pending transaction, and whether it may sign. -/
inductive Command
  | preview
  | run
  | reconcile
  | retrySigned
deriving DecidableEq

/-- One market after the other, until an intent is pending. What a call throws is reported. -/
def sweepRows (account : Address) : List Candidate → Sweeper Unit
  | [] => return ()
  | c :: rows => do
    let j ← ask .journal
    ask (.setJournal { j with cursor := some c.marketId })
    Program.tryCatch (do let _ ← sweepOnce sv p ⟨some account, false, some c⟩) fun _ => return ()
    save
    let j ← ask .journal
    if j.pending.isSome then return () else sweepRows account rows

/-- The command, in the lane of its signer, on the journal that was read from the file. -/
def sweepScript (signer : Address) (command : Command) : Sweeper Unit := do
  let j ← ask .journal
  throwUnless (j.chainId = p.chainId ∧ j.releaseId = p.releaseId ∧ j.signer = signer)
    "Sweep journal deployment mismatch"
  if command = .preview ∧ j.pending.isSome = true then return ()
  else if command = .reconcile ∨ command = .retrySigned ∨ j.pending.isSome = true then do
    let _ ← sweepOnce sv p ⟨none, decide (command = .retrySigned), none⟩
  else if command = .run then do
    let account ← ask .account
    let rows ← ask (.rows j.cursor)
    if rows.isEmpty then do
      ask (.setJournal { j with cursor := none })
      save
    else sweepRows sv p account rows
  else do
    let rows ← ask (.rows j.cursor)
    if rows.isEmpty then ask (.setJournal { j with cursor := none })

end Sweep

end CreatorSweep

end Backend

end TickerGarden
