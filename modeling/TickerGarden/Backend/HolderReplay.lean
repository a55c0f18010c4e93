import TickerGarden.Backend.Analytics
import TickerGarden.Lib.Table

/-!
# The holders of a token, from its transfers

The analytics service keeps, for each market, the balances of the holders of its token, with
the total supply and two counts: the addresses that hold something, and those among them that
are not accounts of the protocol. There are two ways to these numbers.

* `rebuildHolderSnapshot` reads the whole history of transfers at once, in the order of their
  positions in the chain.
* `advanceHolders` reads the history in batches. The first batch of a market is rebuilt; every
  later one is applied to the rows that are stored, and only the accounts it touches are read
  and written (`TickerGarden.Backend.Analytics.updateHolders`). The counts are not counted
  again: they are adjusted by the touched accounts that became holders or ceased to be.

The rows of one market are a `TickerGarden.Backend.Analytics.StoredHolders`. The service writes
deletions at once and everything else at the end of its transaction, in which each market
occurs once; both are here what one call does to the rows.
-/

namespace TickerGarden

open Checked

namespace Backend

namespace Analytics

/-! ### Transfers -/

/-- A transfer of the token, with its place in the chain. -/
structure HolderTransfer where
  source : TradeSource
  fromAccount : Address
  toAccount : Address
  value : ℕ

/-- The key of an event. -/
abbrev EventKey := ℕ × Bytes32 × ℕ

/-- `compareSources`: the positions of two events in the chain. -/
def compareSources (left right : TradeSource) : ℤ :=
  let block : ℤ := left.blockNumber - right.blockNumber
  if block ≠ 0 then if block < 0 then -1 else 1
  else
    let transaction : ℤ := left.transactionIndex - right.transactionIndex
    if transaction ≠ 0 then transaction else left.logIndex - right.logIndex

/-- `transferFromObservation`. -/
def transferFromObservation (observation : EventObservation) (chainId : ℕ) :
    Except JsError HolderTransfer := do
  throwIf (observation.event.module ≠ .tickerMemeToken ∨ observation.event.eventName ≠ .transfer)
    "event is not a token transfer"
  let source ← source observation.event chainId
  let fromAccount ← address (observation.event.args .fromAccount) "transfer from"
  let toAccount ← address (observation.event.args .toAccount) "transfer to"
  let value ← uint256 (observation.event.args .value) "transfer value"
  return { source, fromAccount, toAccount, value }

/-! ### The rebuild -/

/-- The row of a holder: its balance, and whether it is excluded. -/
structure HolderBalance where
  account : Address
  balanceRaw : ℕ
  excluded : Bool
deriving DecidableEq

/-- What is stored of the holders at a block: the supply, the counts, and the rows. -/
structure HolderSnapshot where
  totalSupplyRaw : ℤ
  positiveAddressCount : ℕ
  includedAddressCount : ℕ
  excludedAccounts : List Address
  balances : List HolderBalance
deriving DecidableEq

/-- The input of `rebuildHolderSnapshot`. -/
structure HolderInput where
  chainId : ℕ
  token : Address
  initialHolder : Address
  burnAuthority : Option Address
  allowSelfBurn : Bool
  initialSupplyRaw : ℕ
  transfers : List HolderTransfer
  excludedAccounts : List Address

/-- `balances.get(account) ?? 0n`. -/
def balanceOf (balances : Table Address ℕ) (account : Address) : ℕ :=
  (balances.lookup account).getD 0

/-- The balances and the supply a replay has reached. -/
structure HolderReplay where
  balances : Table Address ℕ
  supply : ℤ

/-- The checks of the arguments. -/
def checkHolderInput (input : HolderInput) : Except JsError Unit := do
  throwIf (input.initialSupplyRaw ≥ 2 ^ 256) "initial supply exceeds uint256"
  throwIf (input.initialSupplyRaw = 0 ∨ input.transfers.length = 0 ∨
    input.transfers.length > 1000000 ∨ input.excludedAccounts.length > 1000)
    "invalid holder input"
  throwIf (¬ input.excludedAccounts.Nodup ∨ 0 ∈ input.excludedAccounts)
    "invalid holder exclusions"

/-- The transfers in the order of their positions. -/
def orderedTransfers (transfers : List HolderTransfer) : List HolderTransfer :=
  transfers.insertionSort fun left right => compareSources left.source right.source ≤ 0

/-- The checks of a transfer, whatever it does. -/
def checkTransfer (input : HolderInput) (seen : List EventKey) (transfer : HolderTransfer) :
    Except JsError Unit := do
  throwIf (transfer.source.chainId ≠ input.chainId ∨ transfer.source.emitter ≠ input.token ∨
    transfer.source.eventKey ∈ seen) "invalid holder transfer source"
  throwIf (transfer.value ≥ 2 ^ 256) "transfer value exceeds uint256"

/-- The first transfer mints the supply. -/
def HolderReplay.mint (input : HolderInput) (replay : HolderReplay) (transfer : HolderTransfer) :
    Except JsError HolderReplay := do
  throwIf (transfer.fromAccount ≠ 0 ∨ transfer.toAccount ≠ input.initialHolder ∨
    transfer.value ≠ input.initialSupplyRaw) "invalid initial mint"
  return { balances := replay.balances.insert transfer.toAccount transfer.value,
           supply := transfer.value }

/-- Every other one moves tokens, or burns them. -/
def HolderReplay.move (input : HolderInput) (replay : HolderReplay) (transfer : HolderTransfer) :
    Except JsError HolderReplay := do
  throwIf (transfer.fromAccount = 0) "unexpected mint after creation"
  let fromBalance := balanceOf replay.balances transfer.fromAccount
  throwIf (fromBalance < transfer.value) "holder balance underflow"
  let debited := replay.balances.insert transfer.fromAccount (fromBalance - transfer.value)
  if transfer.toAccount = 0 then
    throwIf (¬ input.allowSelfBurn ∧ (input.burnAuthority = none ∨
      some transfer.fromAccount ≠ input.burnAuthority ∨ transfer.value = 0))
      "unauthorized holder burn"
    return { balances := debited, supply := replay.supply - transfer.value }
  else
    return { balances := debited.insert transfer.toAccount
               (balanceOf debited transfer.toAccount + transfer.value),
             supply := replay.supply }

/-- One round of the loop over the transfers, with the keys seen so far. -/
def replayTransfer (input : HolderInput) (state : HolderReplay × List EventKey)
    (entry : HolderTransfer × ℕ) : Except JsError (HolderReplay × List EventKey) := do
  checkTransfer input state.2 entry.1
  let replay ← if entry.2 = 0 then state.1.mint input entry.1 else state.1.move input entry.1
  return (replay, entry.1.source.eventKey :: state.2)

/-- What is made of the balances in the end. -/
def finishSnapshot (input : HolderInput) (replay : HolderReplay) :
    Except JsError HolderSnapshot := do
  let positive := (Table.rows BitVec.toNat replay.balances).filter fun row => 0 < row.2
  throwIf ((positive.map fun row => (row.2 : ℤ)).sum ≠ replay.supply)
    "holder supply does not reconcile"
  let rows := positive.map fun row =>
    ({ account := row.1, balanceRaw := row.2,
       excluded := decide (row.1 ∈ input.excludedAccounts) } : HolderBalance)
  return { totalSupplyRaw := replay.supply, positiveAddressCount := rows.length,
           includedAddressCount := (rows.filter fun row => !row.excluded).length,
           excludedAccounts := input.excludedAccounts.insertionSort fun a b => a.toNat ≤ b.toNat,
           balances := rows }

/-- **`rebuildHolderSnapshot`**: the holders after a whole history. -/
def rebuildHolderSnapshot (input : HolderInput) : Except JsError HolderSnapshot := do
  checkHolderInput input
  let state ← (orderedTransfers input.transfers).zipIdx.foldlM (replayTransfer input)
    ({ balances := ∅, supply := 0 }, [])
  finishSnapshot input state.1

/-! ### The incremental path -/

/-- A row of `holder_balances`, under its account. -/
structure HolderRow where
  balanceRaw : ℕ
  excluded : Bool
deriving DecidableEq

/-- `HolderState`: a row of `holder_snapshots`. -/
structure HolderState where
  totalSupplyRaw : ℤ
  positiveAddressCount : ℤ
  includedAddressCount : ℤ
  excludedAccounts : List Address
deriving DecidableEq

/-- The rows of one market. -/
structure StoredHolders where
  balances : Table Address HolderRow
  snapshot : Option HolderState

/-- A market, as far as its holders are concerned. -/
structure HolderMarket where
  memeToken : Address
  curve : Address
  gauge : Address
  hook : Address
  initialSupply : ℕ

/-- The accounts of the protocol that belong to no market. -/
structure Catalog where
  holderRewardsDistributor : Address
  protocolFeeVault : Address
  uniswapV4PoolManager : Address
  tickerGardenFactory : Address

/-- `uniqueAddresses`. -/
def uniqueAddresses (values : List Address) : List Address :=
  values.dedup.insertionSort fun a b => a.toNat ≤ b.toNat

/-- `marketExclusions`: the accounts that are not counted as holders. -/
def marketExclusions (catalog : Catalog) (market : HolderMarket) : List Address :=
  uniqueAddresses ([market.curve, market.gauge, market.memeToken, catalog.holderRewardsDistributor,
    catalog.protocolFeeVault, catalog.uniswapV4PoolManager, catalog.tickerGardenFactory,
    market.hook].filter fun account => account ≠ 0)

/-- `saveSnapshot`: the counts have to be exact numbers. -/
def saveSnapshot (supply positive included : ℤ) (exclusions : List Address) :
    Except JsError HolderState := do
  throwIf (positive > maxSafeInteger ∨ included > maxSafeInteger ∨ positive < 0 ∨ included < 0 ∨
    included > positive) "holder count exceeds safe range"
  return { totalSupplyRaw := supply, positiveAddressCount := positive,
           includedAddressCount := included, excludedAccounts := exclusions }

/-- The input of the rebuild of a market. -/
def holderInput (catalog : Catalog) (chainId : ℕ) (market : HolderMarket)
    (transfers : List HolderTransfer) : HolderInput where
  chainId
  token := market.memeToken
  initialHolder := market.curve
  burnAuthority := none
  allowSelfBurn := true
  initialSupplyRaw := market.initialSupply
  transfers
  excludedAccounts := marketExclusions catalog market

/-- The first batch of a market is rebuilt. -/
def loadHolders (catalog : Catalog) (chainId : ℕ) (market : HolderMarket) (stored : StoredHolders)
    (transfers : List HolderTransfer) : Except JsError StoredHolders := do
  throwIf (transfers.length = 0) "new market token history has no initial mint"
  let snapshot ← rebuildHolderSnapshot (holderInput catalog chainId market transfers)
  let state ← saveSnapshot snapshot.totalSupplyRaw snapshot.positiveAddressCount
    snapshot.includedAddressCount (marketExclusions catalog market)
  return { balances := snapshot.balances.foldl (fun rows balance =>
             rows.insert balance.account ⟨balance.balanceRaw, balance.excluded⟩) stored.balances,
           snapshot := some state }

/-- One round of the loop over the transfers of a later batch. -/
def advanceTransfer (state : Table Address ℕ × ℤ) (transfer : HolderTransfer) :
    Except JsError (Table Address ℕ × ℤ) := do
  let (after, supply) := state
  throwIf (transfer.fromAccount = 0) "unexpected mint in incremental holder history"
  let balance := balanceOf after transfer.fromAccount
  throwIf (balance < transfer.value) "incremental holder balance underflow"
  if transfer.fromAccount ≠ transfer.toAccount then
    let debited := after.insert transfer.fromAccount (balance - transfer.value)
    if transfer.toAccount = 0 then
      throwIf (transfer.value > supply) "burn exceeds supply"
      return (debited, supply - transfer.value)
    else
      return (debited.insert transfer.toAccount
        (balanceOf debited transfer.toAccount + transfer.value), supply)
  else return state

/-- What the loop over the touched accounts has written. -/
structure HolderWrites where
  rows : Table Address HolderRow
  saved : List (Address × HolderRow)
  positive : ℤ
  included : ℤ

/-- One round of that loop: the account is saved or deleted, and counted if that is new. -/
def settleAccount (exclusions : List Address) (before after : Table Address ℕ)
    (writes : HolderWrites) (account : Address) : HolderWrites :=
  let was := decide (0 < balanceOf before account)
  let now := decide (0 < balanceOf after account)
  let excluded := decide (account ∈ exclusions)
  let change : ℤ := if was ≠ now then if now then 1 else -1 else 0
  { rows := if now then writes.rows else writes.rows.erase account
    saved := if now then writes.saved ++ [(account, ⟨balanceOf after account, excluded⟩)]
      else writes.saved
    positive := writes.positive + change
    included := if excluded then writes.included else writes.included + change }

/-- The accounts a batch touches. -/
def touchedAccounts (transfers : List HolderTransfer) : List Address :=
  uniqueAddresses ((transfers.flatMap fun transfer =>
    [transfer.fromAccount, transfer.toAccount]).filter fun account => account ≠ 0)

/-- The stored balances of the touched accounts. -/
def balancesBefore (stored : StoredHolders) (touched : List Address) : Table Address ℕ :=
  touched.foldl (fun before account =>
    before.insert account ((stored.balances.lookup account).elim 0 HolderRow.balanceRaw)) ∅

/-- A later batch is applied to what is stored. -/
def updateHolders (exclusions : List Address) (initialSupply : ℕ) (stored : StoredHolders)
    (current : HolderState) (transfers : List HolderTransfer) : Except JsError StoredHolders := do
  throwIf (current.excludedAccounts ≠ exclusions ∨ current.totalSupplyRaw > initialSupply)
    "holder snapshot identity or exclusion policy changed"
  let touched := touchedAccounts transfers
  let before := balancesBefore stored touched
  let (after, supply) ← transfers.foldlM advanceTransfer (before, current.totalSupplyRaw)
  let writes := touched.foldl (settleAccount exclusions before after)
    { rows := stored.balances, saved := [], positive := current.positiveAddressCount,
      included := current.includedAddressCount }
  let state ← saveSnapshot supply writes.positive writes.included exclusions
  return { balances := writes.saved.foldl (fun rows row => rows.insert row.1 row.2) writes.rows,
           snapshot := some state }

/-- **`advanceHolders`**: the next batch of a market. -/
def advanceHolders (catalog : Catalog) (chainId : ℕ) (market : HolderMarket)
    (stored : StoredHolders) (observations : List EventObservation) :
    Except JsError StoredHolders := do
  let transfers ← observations.mapM fun observation => transferFromObservation observation chainId
  match stored.snapshot with
  | none => loadHolders catalog chainId market stored transfers
  | some current =>
    updateHolders (marketExclusions catalog market) market.initialSupply stored current transfers

end Analytics

end Backend

end TickerGarden
