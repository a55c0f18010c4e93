import TickerGarden.Lib.Apportionment
import TickerGarden.Lib.MerkleTree
import TickerGarden.Lib.Table
import TickerGarden.Platform

/-!
# Treasury roots

The generator of an epoch's treasury root divides a quote amount among the accounts that held a
token during a window of seven days, in proportion to their time-weighted balances. It replays
the transfers of the token in their order in the chain, weighs the balances, gives out the
amount by largest remainder, and commits to the result with a Merkle tree.

Accounts, hashes and integers are texts in the source. Here they are the words they spell, in
lower case, so that a text that spells none is not an input; what the source checks of the
values is checked here. A map is iterated over in no particular order: each of the two loops
over a map takes the order as an argument (`TickerGarden.Backend.Treasury.MapOrder`).

The replay keeps, beside the balances, an *accumulator* for every account that a transfer inside
the window has touched: the balance, its integral so far, and the time up to which it goes.
-/

namespace TickerGarden

open Checked

namespace Backend

namespace Treasury

/-- `errors.New(message)`. -/
structure GoError where
  message : String
deriving DecidableEq

/-- `Duration`: seven days. -/
def duration : ℕ := 7 * 24 * 60 * 60

/-! ### Inputs and outputs -/

/-- What identifies an epoch of a market, and the block that its transfers were read up to. -/
structure Context where
  chainId : ℕ
  distributor : Address
  marketId : Bytes32
  epochId : ℕ
  memeToken : Address
  quoteToken : Address
  eligibilityPolicyHash : Bytes32
  windowStart : ℕ
  windowEnd : ℕ
  sourceBlockNumber : ℕ
  sourceBlockHash : Bytes32
deriving DecidableEq

/-- A transfer of the token; `sender` and `recipient` are `From` and `To`. -/
structure Transfer where
  blockNumber : ℕ
  transactionIndex : ℕ
  logIndex : ℕ
  timestamp : ℕ
  sender : Address
  recipient : Address
  value : ℕ
deriving DecidableEq

/-- An epoch, with all that its root is computed of: the transfers of the token, the accounts that
have no share, and the amount to be shared out. -/
structure Input extends Context where
  emptyEpochPolicy : String
  excludedAccounts : List Address
  sourceBlockTimestamp : ℕ
  quoteAmount : ℕ
  transfers : List Transfer
deriving DecidableEq

/-- The share of an account: its weight over the epoch, its amount, and the leaf of the tree that
commits to both. -/
structure Allocation where
  index : ℕ
  account : Address
  twab : ℕ
  amount : ℕ
  leaf : Bytes32
deriving DecidableEq

/-- A share, with the path from its leaf to the root. -/
structure Leaf extends Allocation where
  proof : List Bytes32
deriving DecidableEq

/-- What is published of an epoch: the root, the hash of the dataset, and the leaves. -/
structure Output where
  schema : String
  context : Context
  sourceBlockTimestamp : ℕ
  merkleRoot : Bytes32
  datasetHash : Bytes32
  leafCount : ℕ
  totalTwab : ℕ
  totalAllocated : ℕ
  leaves : List Leaf
deriving DecidableEq

/-- What the hash of a dataset is taken of. -/
structure Dataset where
  schema : String
  context : Context
  sourceBlockTimestamp : ℕ
  quoteAmount : ℕ
  totalTwab : ℕ
  allocations : List Allocation
deriving DecidableEq

/-! ### Checking an input -/

/-- `integer`. -/
def integer (n bits : ℕ) : Except GoError ℕ := do
  revertIf (n ≥ 2 ^ bits) ⟨"integer overflow"⟩
  return n

/-- `normalizeAddresses`: each account once, in order. -/
def normalizeAddresses (values : List Address) : List Address :=
  values.dedup.insertionSort fun a b => a.toNat ≤ b.toNat

variable (platform : Platform)

/-- `PolicyHash`. -/
def policyHash (chain : ℕ) (market : Bytes32) (excluded : List Address) :
    Except GoError Bytes32 := do
  revertIf (chain ≥ 2 ^ 256 ∨ chain = 0) ⟨"invalid policy domain"⟩
  return platform.keccak256 (.eligibilityPolicy
    (platform.keccak256 (.text "TICKERGARDEN_V1_TREASURY_ELIGIBILITY_POLICY_V1")) chain market
    (normalizeAddresses excluded))

/-- The identifiers of an epoch are those of a chain, of two tokens and of a market, and its window
is of seven days. -/
def validateContext (c : Context) : Except GoError Unit := do
  revertIf (c.chainId ≥ 2 ^ 256 ∨ c.chainId = 0) ⟨"invalid chain"⟩
  revertIf (c.distributor = 0 ∨ c.memeToken = 0 ∨ c.quoteToken = c.memeToken)
    ⟨"invalid token or distributor identity"⟩
  revertIf (c.marketId = 0 ∨ c.eligibilityPolicyHash = 0 ∨ c.sourceBlockHash = 0)
    ⟨"invalid hash domain"⟩
  revertIf (c.epochId = 0) ⟨"invalid epoch"⟩
  revertIf (c.windowStart ≥ 2 ^ 64 ∨ c.windowStart = 0) ⟨"invalid window start"⟩
  revertIf (c.windowEnd ≥ 2 ^ 64 ∨ c.windowEnd ≠ c.windowStart + duration)
    ⟨"TWAB window must be exactly 7 days"⟩
  let _ ← integer c.sourceBlockNumber 64

/-- The checks of `Generate` before it reads the transfers. -/
def validateInput (input : Input) : Except GoError Unit := do
  validateContext input.toContext
  revertIf (input.emptyEpochPolicy ≠ "" ∧ input.emptyEpochPolicy ≠ "reviewed-rollover")
    ⟨"invalid empty epoch policy"⟩
  let source ← integer input.sourceBlockTimestamp 64
  revertIf (source < input.windowEnd) ⟨"source block precedes window end"⟩
  revertIf (input.quoteAmount ≥ 2 ^ 256 ∨ input.quoteAmount = 0) ⟨"invalid quote amount"⟩
  let policy ← policyHash platform input.chainId input.marketId input.excludedAccounts
  revertIf (policy ≠ input.eligibilityPolicyHash) ⟨"eligibility policy hash mismatch"⟩

/-! ### Observations -/

/-- The checks of one transfer. -/
def observe (input : Input) (v : Transfer) : Except GoError Transfer := do
  revertIf (v.transactionIndex > 2 ^ 53 - 1 ∨ v.logIndex > 2 ^ 53 - 1)
    ⟨"invalid Transfer provenance"⟩
  let block ← integer v.blockNumber 64
  let time ← integer v.timestamp 64
  let amount ← integer v.value 256
  revertIf (block > input.sourceBlockNumber ∨ time > input.sourceBlockTimestamp)
    ⟨"Transfer beyond committed source"⟩
  return { v with blockNumber := block, timestamp := time, value := amount }

/-- The order of the observations: by block, transaction and log. -/
def Transfer.Before (a b : Transfer) : Prop :=
  if a.blockNumber ≠ b.blockNumber then a.blockNumber < b.blockNumber
  else if a.transactionIndex ≠ b.transactionIndex then a.transactionIndex < b.transactionIndex
  else a.logIndex < b.logIndex

instance (a b : Transfer) : Decidable (a.Before b) :=
  inferInstanceAs (Decidable (if a.blockNumber ≠ b.blockNumber then a.blockNumber < b.blockNumber
    else if a.transactionIndex ≠ b.transactionIndex then a.transactionIndex < b.transactionIndex
    else a.logIndex < b.logIndex))

/-- The transfers in the order of the chain. The order of two that are at one place does not change.
-/
def sortObservations (observations : List Transfer) : List Transfer :=
  observations.insertionSort fun a b => ¬ b.Before a

/-- The checks of neighbours. -/
def checkObservations : List Transfer → Except GoError Unit
  | a :: b :: l => do
    revertIf (b.timestamp < a.timestamp) ⟨"non-monotonic Transfer timestamps"⟩
    revertIf (a.blockNumber = b.blockNumber ∧
        (a.timestamp ≠ b.timestamp ∨ a.logIndex ≥ b.logIndex))
      ⟨"inconsistent or duplicate block log provenance"⟩
    checkObservations (b :: l)
  | _ => return ()

/-! ### The replay -/

/-- The balance of an account, what it weighs so far, and the time up to which it does. -/
structure Accumulator where
  balance : ℕ
  weighted : ℕ
  last : ℕ
deriving DecidableEq

/-- The two maps of the replay. -/
structure Books where
  balances : Table Address ℕ
  acc : Table Address Accumulator

namespace Books

/-- No account has anything, and no time has gone by. -/
def empty : Books := ⟨∅, ∅⟩

/-- `balance`. -/
def balance (s : Books) (a : Address) : ℕ := (s.balances.lookup a).getD 0

/-- The entry that `balance` makes for a new account. -/
def opened (s : Books) (a : Address) : Table Address ℕ :=
  if a ∈ s.balances then s.balances else s.balances.insert a 0

/-- The balance of an account is written, also to its accumulator if it has one. -/
def setBalance (s : Books) (a : Address) (b : ℕ) : Books where
  balances := s.balances.insert a b
  acc := match s.acc.lookup a with
    | some v => s.acc.insert a { v with balance := b }
    | none => s.acc

end Books

section Replay

variable (windowStart windowEnd : ℕ)

/-- `checkpoint`: the integral of the balance of an account is brought up to a time. -/
def checkpoint (s : Books) (a : Address) (t : ℕ) : Except GoError Books := do
  let v := (s.acc.lookup a).getD ⟨s.balance a, 0, windowStart⟩
  revertIf (t < v.last) ⟨"non-monotonic account timestamp"⟩
  let weighted := v.weighted + v.balance * (t - v.last)
  revertIf (weighted ≥ 2 ^ 256) ⟨"TWAB exceeds uint256"⟩
  return { balances := if a ∈ s.acc then s.balances else s.opened a
           acc := s.acc.insert a { v with weighted, last := t } }

/-- An account that takes part in a transfer inside the window is brought up to it. -/
def checkpointParty (applies : Bool) (s : Books) (a : Address) (t : ℕ) : Except GoError Books :=
  if applies then checkpoint windowStart s a t else .ok s

/-- The sender pays. -/
def send (s : Books) (v : Transfer) : Except GoError Books :=
  if v.sender ≠ 0 then do
    revertIf (s.balance v.sender < v.value) ⟨"incomplete Transfer history: negative balance"⟩
    return s.setBalance v.sender (s.balance v.sender - v.value)
  else .ok s

/-- The recipient is paid. -/
def receive (s : Books) (v : Transfer) : Except GoError Books :=
  if v.recipient ≠ 0 then do
    revertIf (s.balance v.recipient + v.value ≥ 2 ^ 256) ⟨"balance exceeds uint256"⟩
    return s.setBalance v.recipient (s.balance v.recipient + v.value)
  else .ok s

/-- One transfer of the replay; what comes after the window is left out. -/
def replay (s : Books) (v : Transfer) : Except GoError Books :=
  if v.timestamp ≥ windowEnd then .ok s
  else do
    let s ← checkpointParty windowStart (v.timestamp ≥ windowStart ∧ v.sender ≠ 0) s v.sender
      v.timestamp
    let s ← checkpointParty windowStart
      (v.timestamp ≥ windowStart ∧ v.recipient ≠ 0 ∧ v.recipient ≠ v.sender) s v.recipient
      v.timestamp
    let s ← send s v
    receive s v

/-- The last checkpoint of an account, at the end of the window. -/
def closeAccount (s : Books) (a : Address) : Except GoError Books :=
  checkpointParty windowStart (s.balance a ≠ 0 ∨ a ∈ s.acc) s a windowEnd

/-- The order in which a loop over a map comes to its keys. -/
structure MapOrder where
  keys : List Address → List Address
  perm : ∀ l, (keys l).Perm l

/-- The replay of all observations, up to the end of the window. -/
def weigh (order : MapOrder) (observations : List Transfer) :
    Except GoError (Table Address Accumulator) := do
  let s ← observations.foldlM (replay windowStart windowEnd) Books.empty
  let s ← (order.keys s.balances.keys).foldlM (closeAccount windowStart windowEnd) s
  return s.acc

end Replay

/-! ### The allocation -/

/-- An account with a weight, before the amount is shared out. -/
structure Draft where
  account : Address
  twab : ℕ
deriving DecidableEq

/-- The accounts that were weighed and are not excluded. -/
def draftsOf (order : MapOrder) (excluded : List Address) (acc : Table Address Accumulator) :
    List Draft :=
  (order.keys acc.keys).filterMap fun a => (acc.lookup a).bind fun v =>
    if v.weighted > 0 ∧ a ∉ excluded then some ⟨a, v.weighted⟩ else none

/-- The accounts in the order of their addresses. -/
def sortDrafts (drafts : List Draft) : List Draft :=
  drafts.insertionSort fun a b => a.account.toNat ≤ b.account.toNat

/-- Who gets a unit first: the larger remainder, then the smaller account. -/
def Draft.Favoured (quote total : ℕ) (a b : Draft) : Prop :=
  if Apportionment.remainder quote Draft.twab total a
      = Apportionment.remainder quote Draft.twab total b
  then a.account.toNat < b.account.toNat
  else Apportionment.remainder quote Draft.twab total a
    > Apportionment.remainder quote Draft.twab total b

instance (quote total : ℕ) (a b : Draft) : Decidable (a.Favoured quote total b) :=
  inferInstanceAs (Decidable (if Apportionment.remainder quote Draft.twab total a
      = Apportionment.remainder quote Draft.twab total b
    then a.account.toNat < b.account.toNat
    else Apportionment.remainder quote Draft.twab total a
      > Apportionment.remainder quote Draft.twab total b))

/-- The drafts with their amounts. -/
def apportion (quote total : ℕ) (drafts : List Draft) : Except GoError (List (Draft × ℕ)) := do
  let base := (drafts.map (Apportionment.quota quote Draft.twab total)).sum
  let units := quote - base
  revertIf (quote < base ∨ units ≥ 2 ^ 64 ∨ units > drafts.length) ⟨"rounding invariant"⟩
  let order := drafts.insertionSort fun a b => ¬ b.Favoured quote total a
  return drafts.map fun d => (d, Apportionment.award quote Draft.twab total (order.take units) d)

/-- `HashLeaf`. -/
def hashLeaf (c : Context) (index : ℕ) (account : Address) (twab amount : ℕ) :
    Except GoError Bytes32 := do
  validateContext c
  revertIf (account = 0) ⟨"invalid leaf account"⟩
  revertIf (twab ≥ 2 ^ 256 ∨ twab = 0) ⟨"invalid leaf TWAB"⟩
  revertIf (amount ≥ 2 ^ 256 ∨ amount = 0) ⟨"invalid leaf amount"⟩
  return platform.keccak256 (.word (platform.keccak256 (.treasuryLeaf
    (platform.keccak256 (.text "TICKERGARDEN_V1_TREASURY_CLAIM_V1"))
    (platform.keccak256 (.text "TRANSFER_LOG_TWAB_7D_V1")) c.chainId c.distributor c.marketId
    c.epochId c.memeToken c.quoteToken c.eligibilityPolicyHash c.windowStart c.windowEnd
    c.sourceBlockNumber c.sourceBlockHash index account twab amount)))

/-- The leaves of the amounts that are not nothing, numbered from an index on. -/
def allocationsFrom (c : Context) (index : ℕ) :
    List (Draft × ℕ) → Except GoError (List Allocation)
  | [] => return []
  | (d, amount) :: l =>
    if amount = 0 then allocationsFrom c index l
    else do
      revertIf (index ≥ 2 ^ 32 - 1) ⟨"leaf count exceeds uint32"⟩
      let leaf ← hashLeaf platform c index d.account d.twab amount
      let rest ← allocationsFrom c (index + 1) l
      return { index, account := d.account, twab := d.twab, amount, leaf } :: rest

/-! ### The tree -/

/-- `pair`. -/
def pair (a b : Bytes32) : Bytes32 :=
  if a > b then platform.keccak256 (.pair b a) else platform.keccak256 (.pair a b)

/-- `VerifyProof`. -/
def verifyProof (leaf : Bytes32) (proof : List Bytes32) (root : Bytes32) : Bool :=
  proof.length ≤ 32 && proof.foldl (pair platform) leaf == root

/-- `tree`: the root, and the leaves with their proofs. -/
def tree (leaves : List Allocation) : Bytes32 × List Leaf :=
  let levels := MerkleTree.levels (pair platform) leaves.length (leaves.map Allocation.leaf)
  ((levels.getLast?.bind List.head?).getD 0,
    leaves.mapIdx fun i a => { a with proof := MerkleTree.climb levels.dropLast i })

/-! ### The whole -/

/-- `emptyRoot`. -/
def emptyRoot : Bytes32 := platform.keccak256 (.text "TICKERGARDEN_V1_TREASURY_EMPTY_EPOCH_V1")

/-- The root and the leaves, of sorted drafts. -/
def allocate (input : Input) (total : ℕ) (drafts : List Draft) :
    Except GoError (Bytes32 × List Leaf) :=
  if drafts = [] then do
    revertIf (input.emptyEpochPolicy ≠ "reviewed-rollover")
      ⟨"no eligible holders; reviewed empty epoch policy required"⟩
    return (emptyRoot platform, [])
  else do
    let amounts ← apportion input.quoteAmount total drafts
    let allocations ← allocationsFrom platform input.toContext 0 amounts
    revertIf ((allocations.map Allocation.amount).sum ≠ input.quoteAmount)
      ⟨"allocation invariant"⟩
    return tree platform allocations

/-- **`Generate`**, with the orders in which it comes to the keys of its two maps. `datasetHash`
is the hash of a dataset written as JSON. -/
def generate (datasetHash : Dataset → Bytes32) (balancesOrder accOrder : MapOrder)
    (input : Input) : Except GoError Output := do
  validateInput platform input
  let observations ← input.transfers.mapM (observe input)
  let observations := sortObservations observations
  checkObservations observations
  let acc ← weigh input.windowStart input.windowEnd balancesOrder observations
  let drafts := draftsOf accOrder (normalizeAddresses input.excludedAccounts) acc
  let total := (drafts.map Draft.twab).sum
  revertIf (total ≥ 2 ^ 256) ⟨"total TWAB exceeds uint256"⟩
  let (root, leaves) ← allocate platform input total (sortDrafts drafts)
  return {
    schema := "TICKERGARDEN_V1_TREASURY_ROOT_V1"
    context := input.toContext
    sourceBlockTimestamp := input.sourceBlockTimestamp
    merkleRoot := root
    datasetHash := datasetHash {
      schema := "TICKERGARDEN_V1_TREASURY_DATASET_V1"
      context := input.toContext
      sourceBlockTimestamp := input.sourceBlockTimestamp
      quoteAmount := input.quoteAmount
      totalTwab := total
      allocations := leaves.map Leaf.toAllocation }
    leafCount := leaves.length
    totalTwab := total
    totalAllocated := (leaves.map fun l => l.amount).sum
    leaves }

end Treasury

end Backend

end TickerGarden
