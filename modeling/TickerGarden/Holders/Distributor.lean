import TickerGarden.Lib.Sums
import TickerGarden.Lib.Transition
import TickerGarden.Registry.MarketRegistry

/-!
# The holder rewards distributor

`HolderRewardsDistributorV1` holds what the fee vault funds for the holders of a market's
token. A publisher commits parts of it to *rounds*: a round is the root of a Merkle tree of
entitlements, with a budget for each of the two assets of the market. An account claims with a
proof, both assets at once or one after the other.

As with the launch locker, what the distributor calls is an interface over a state `W` of
everything outside: the two tokens and the recipient of a native payment may do anything in a
call but change the distributor's own storage, since every function that writes it is
`nonReentrant`.

| source function             | here                                                            |
|-----------------------------|-----------------------------------------------------------------|
| `registerFeeSharingMarket`  | `TickerGarden.HolderRewards.registerFeeSharingMarket`           |
| `fundQuoteRewards`          | `TickerGarden.HolderRewards.fundQuoteRewards`                   |
| `fundMemeFees`              | `TickerGarden.HolderRewards.fundMemeFees`                       |
| `_publish`                  | `TickerGarden.HolderRewards.publish`                            |
| `publishSnapshots`          | `TickerGarden.HolderRewards.publishSnapshots`                   |
| `claimSnapshot`             | `TickerGarden.HolderRewards.claimSnapshot`                      |
-/

namespace TickerGarden

open Checked Function

namespace HolderRewards

/-- A `uint64` that numbers the rounds of a market. -/
abbrev RoundId := BitVec 64

/-- The two assets of a market. -/
inductive Side
  | quote
  | meme
deriving DecidableEq

/-- A registered market: its assets, its vault, the rounds that were published, and what it still
has to share out. -/
structure Market where
  token : Address
  quote : Address
  vault : Address
  registeredBlock : ℕ
  lastRound : RoundId
  lastSnapshotBlock : ℕ
  unallocatedQuote : ℕ
  unallocatedMeme : ℕ
  burnMemeFees : Bool
deriving DecidableEq

/-- A market that is not registered. -/
def Market.empty : Market := ⟨0, 0, 0, 0, 0, 0, 0, 0, false⟩

/-- A round, as the publisher describes it. -/
structure Publication where
  marketId : Bytes32
  round : RoundId
  snapshotBlock : ℕ
  snapshotBlockHash : Bytes32
  root : Bytes32
  dataHash : Bytes32
  quoteBudget : ℕ
  memeBudget : ℕ
deriving DecidableEq

/-- A published round, and what is left of its budgets. -/
structure Round where
  root : Bytes32
  snapshotBlockHash : Bytes32
  dataHash : Bytes32
  snapshotBlock : ℕ
  quoteBudget : ℕ
  memeBudget : ℕ
  quoteRemaining : ℕ
  memeRemaining : ℕ
deriving DecidableEq

/-- A round that is not published. -/
def Round.empty : Round := ⟨0, 0, 0, 0, 0, 0, 0, 0⟩

/-- The events of the distributor. -/
inductive Event
  | snapshotPublisherChanged (previousPublisher newPublisher : Address)
  | holderSnapshotMarketRegistered (marketId : Bytes32) (token quote vault : Address)
  | holderAssetFunded (marketId : Bytes32) (asset : Address) (amount : ℕ)
  | holderSnapshotPublished (marketId : Bytes32) (round : RoundId) (snapshotBlock : ℕ)
      (snapshotBlockHash root dataHash : Bytes32) (quoteBudget memeBudget : ℕ)
  | holderSnapshotClaimed (marketId : Bytes32) (round : RoundId) (account : Address)
      (assets : BitVec 8) (quotePaid memePaid : ℕ)
deriving DecidableEq

/-- **What the distributor calls outside itself**, over a state `W` of everything else. A call
that reverts is a failure. -/
structure Externals (W : Type) where
  hasCode : W → Address → Bool
  /-- The balance of an account, in a token or the native currency. -/
  balance : W → (asset holder : Address) → ℕ
  /-- `CanonicalBlockClock.number`. -/
  blockNumber : W → Except Revert ℕ
  /-- `CanonicalBlockClock.hash`. -/
  blockHash : W → ℕ → Except Revert Bytes32
  /-- `IMarketRegistryV1.factory`. -/
  factory : W → Except Revert Address
  /-- `IMarketRegistryV1.market`. -/
  market : W → Bytes32 → Except Revert MarketView
  /-- `authority` of the stock registry of the market registry. -/
  authority : W → Except Revert Address
  /-- `AuthorityUtils.canCallWithDelay`, for a function of the distributor. -/
  canCall : W → (authority caller : Address) → (function : String) → Except Revert Bool
  /-- `IAccessManager.hasRole`. -/
  hasRole : W → (authority : Address) → (role : ℕ) → (account : Address) → Except Revert Bool
  /-- `protocolFeeVault` of a hook. -/
  protocolFeeVault : W → Address → Except Revert Address
  /-- `poolManager` of a hook. -/
  poolManager : W → Address → Except Revert Address
  /-- `marketId` of a token. -/
  tokenMarketId : W → Address → Except Revert Bytes32
  /-- `holderRewardsDistributor` of a token. -/
  holderRewardsDistributor : W → Address → Except Revert Address
  /-- `SafeERC20.safeTransferFrom` to the distributor. -/
  safeTransferFrom : W → (asset sender : Address) → (amount : ℕ) → Except Revert W
  /-- `SafeERC20.safeTransfer` by the distributor. -/
  safeTransfer : W → (asset recipient : Address) → (amount : ℕ) → Except Revert W
  /-- A payment in the native currency by the distributor; `none` if it fails. -/
  sendNative : W → (recipient : Address) → (amount : ℕ) → Option W

/-- The distributor in its surroundings. The log has the latest event first. -/
structure State (W : Type) where
  outside : W
  snapshotPublisher : Address
  /-- `_markets`. -/
  markets : Bytes32 → Market
  /-- `_rounds`. -/
  rounds : Bytes32 → RoundId → Round
  claimedAssets : Bytes32 → RoundId → Address → BitVec 8
  excluded : Bytes32 → Address → Bool
  /-- `_exclusions`. -/
  exclusions : Bytes32 → List Address
  totalLiability : Address → ℕ
  log : List Event

/-- `LEAF_DOMAIN`. -/
def leafDomain (platform : Platform) : Bytes32 :=
  platform.keccak256 (.text "TICKERGARDEN_HOLDER_WALLET_SNAPSHOT_LEAF_V1")

/-- `MAX_PUBLISH_BATCH`. -/
def maxPublishBatch : ℕ := 32

/-- `Hashes.commutativeKeccak256`: a node does not say which child is which. -/
def commutativeKeccak256 (platform : Platform) (a b : Bytes32) : Bytes32 :=
  if a < b then platform.keccak256 (.pair a b) else platform.keccak256 (.pair b a)

/-- `MerkleProof.verifyCalldata`. -/
def verifyProof (platform : Platform) (proof : List Bytes32) (root leaf : Bytes32) : Prop :=
  proof.foldl (commutativeKeccak256 platform) leaf = root

instance (platform : Platform) (proof : List Bytes32) (root leaf : Bytes32) :
    Decidable (verifyProof platform proof root leaf) :=
  inferInstanceAs (Decidable (_ = _))

section Contract

variable {W : Type} (platform : Platform) (calls : Externals W) (self : Address)

/-- `_market`. -/
def market (s : State W) (id : Bytes32) : Except Revert Market := do
  revertIf ((s.markets id).token = 0) (.holderRewards .invalidMarket)
  return s.markets id

/-- `_solvent`. -/
def solvent (w : W) (totalLiability : Address → ℕ) (asset : Address) : Except Revert Unit :=
  revertIf (calls.balance w asset self < totalLiability asset) (.holderRewards .insolvent)

/-- `_solvent`, of an asset that is moved. -/
def solventIf (w : W) (totalLiability : Address → ℕ) (asset : Address) (amount : ℕ) :
    Except Revert Unit :=
  if amount ≠ 0 then solvent calls self w totalLiability asset else .ok ()

/-- `_receiveToken`. -/
def receiveToken (w : W) (sender asset : Address) (amount : ℕ) : Except Revert W := do
  let beforeTo := calls.balance w asset self
  let beforeFrom := calls.balance w asset sender
  let after ← calls.safeTransferFrom w asset sender amount
  let expectedTo ← uadd beforeTo amount
  revertIf (calls.balance after asset self ≠ expectedTo) (.holderRewards .inexactTransfer)
  let givenFrom ← uadd (calls.balance after asset sender) amount
  revertIf (givenFrom ≠ beforeFrom) (.holderRewards .inexactTransfer)
  return after

/-- `_pay`: the liability is taken off before the asset is called. -/
def pay (w : W) (totalLiability : Address → ℕ) (asset recipient : Address) (amount : ℕ) :
    Except Revert (W × (Address → ℕ)) := do
  solvent calls self w totalLiability asset
  let totalLiability ← Sums.debit totalLiability asset amount
  if asset = 0 then
    let after ← orRevert (calls.sendNative w recipient amount) (.holderRewards .transferFailed)
    return (after, totalLiability)
  else
    let beforeFrom := calls.balance w asset self
    let beforeTo := calls.balance w asset recipient
    let after ← calls.safeTransfer w asset recipient amount
    let afterFrom := calls.balance after asset self
    let givenFrom ← uadd afterFrom amount
    revertIf (givenFrom ≠ beforeFrom) (.holderRewards .inexactTransfer)
    let expectedTo ← uadd beforeTo amount
    revertIf (calls.balance after asset recipient ≠ expectedTo) (.holderRewards .inexactTransfer)
    revertIf (afterFrom < totalLiability asset) (.holderRewards .insolvent)
    return (after, totalLiability)

/-- `setSnapshotPublisher`. -/
def setSnapshotPublisher (s : State W) (caller publisher : Address) : Except Revert (State W) := do
  let authority ← calls.authority s.outside
  let immediate ← calls.canCall s.outside authority caller "setSnapshotPublisher"
  revertIf (immediate = false) (.holderRewards .unauthorized)
  revertIf (publisher = 0) (.holderRewards .invalidPublisher)
  return { s with
    snapshotPublisher := publisher
    log := .snapshotPublisherChanged s.snapshotPublisher publisher :: s.log }

/-- `revokeSnapshotPublisher`, by a guardian. -/
def revokeSnapshotPublisher (s : State W) (caller expectedPublisher : Address) :
    Except Revert (State W) := do
  let authority ← calls.authority s.outside
  let guardian ← calls.hasRole s.outside authority 2 caller
  revertIf (guardian = false) (.holderRewards .unauthorized)
  revertIf (expectedPublisher = 0 ∨ s.snapshotPublisher ≠ expectedPublisher)
    (.holderRewards .invalidPublisher)
  return { s with
    snapshotPublisher := 0
    log := .snapshotPublisherChanged expectedPublisher 0 :: s.log }

/-- One turn of the loop over the excluded accounts. -/
def exclude (id : Bytes32) (s : State W) (account : Address) : State W :=
  if s.excluded id account then s
  else { s with
    excluded := update s.excluded id (update (s.excluded id) account true)
    exclusions := update s.exclusions id (s.exclusions id ++ [account]) }

/-- `registerFeeSharingMarket`. -/
def registerFeeSharingMarket (s : State W) (caller : Address) (id : Bytes32)
    (vault locker : Address) : Except Revert (State W) := do
  let w := s.outside
  let factory ← calls.factory w
  revertIf (caller ≠ factory) (.holderRewards .unauthorized)
  let v ← calls.market w id
  let token := v.config.memeToken
  let height ← calls.blockNumber w
  revertIf (id = 0 ∨ (s.markets id).token ≠ 0 ∨ calls.hasCode w token = false ∨
      v.config.creatorFeesToHolders = false ∨ locker = 0 ∨ calls.hasCode w vault = false)
    (.holderRewards .invalidMarket)
  let hookVault ← calls.protocolFeeVault w v.config.graduatedHook
  revertIf (hookVault ≠ vault) (.holderRewards .invalidMarket)
  let tokenMarketId ← calls.tokenMarketId w token
  revertIf (tokenMarketId ≠ id) (.holderRewards .invalidMarket)
  let distributor ← calls.holderRewardsDistributor w token
  revertIf (distributor ≠ self ∨ v.config.quoteAsset = token ∨ height > maxUint64)
    (.holderRewards .invalidMarket)
  let poolManager ← calls.poolManager w v.config.graduatedHook
  let list := [0, 0xdead, token, v.config.curve, poolManager, locker, self, vault,
    v.config.graduatedHook]
  let registered : State W := { s with
    markets := update s.markets id
      ⟨token, v.config.quoteAsset, vault, height, 0, 0, 0, 0, v.config.burnMemeFees⟩ }
  let excluding := list.foldl (exclude id) registered
  return { excluding with
    log := .holderSnapshotMarketRegistered id token v.config.quoteAsset vault :: excluding.log }

/-- How the quote asset arrives: a native amount has come with the call. -/
def receiveQuote (w : W) (caller quote : Address) (value amount : ℕ) : Except Revert W :=
  if quote = 0 then do
    revertIf (value ≠ amount) (.holderRewards .invalidFunding)
    return w
  else do
    revertIf (value ≠ 0) (.holderRewards .invalidFunding)
    receiveToken calls self w caller quote amount

/-- `fundQuoteRewards`. -/
def fundQuoteRewards (s : State W) (caller : Address) (value : ℕ) (id : Bytes32) (bucket : Epoch)
    (amount : ℕ) : Except Revert (State W) := do
  let m ← market s id
  revertIf (caller ≠ m.vault) (.holderRewards .unauthorized)
  revertIf (bucket ≠ 1 ∨ amount = 0) (.holderRewards .invalidFunding)
  let outside ← receiveQuote calls self s.outside caller m.quote value amount
  let unallocatedQuote ← uadd m.unallocatedQuote amount
  let totalLiability ← Sums.credit s.totalLiability m.quote amount
  solvent calls self outside totalLiability m.quote
  return { s with
    outside
    markets := update s.markets id { m with unallocatedQuote }
    totalLiability
    log := .holderAssetFunded id m.quote amount :: s.log }

/-- `fundMemeFees`. -/
def fundMemeFees (s : State W) (caller : Address) (id : Bytes32) (amount : ℕ) :
    Except Revert (State W) := do
  let m ← market s id
  revertIf (caller ≠ m.vault) (.holderRewards .unauthorized)
  revertIf (amount = 0 ∨ m.burnMemeFees) (.holderRewards .invalidFunding)
  let outside ← receiveToken calls self s.outside caller m.token amount
  let unallocatedMeme ← uadd m.unallocatedMeme amount
  let totalLiability ← Sums.credit s.totalLiability m.token amount
  solvent calls self outside totalLiability m.token
  return { s with
    outside
    markets := update s.markets id { m with unallocatedMeme }
    totalLiability
    log := .holderAssetFunded id m.token amount :: s.log }

/-- The identity of a recent block is checked; an older one is the publisher's word. -/
def checkRecentHash (w : W) (p : Publication) (height : ℕ) : Except Revert Unit :=
  if height - p.snapshotBlock ≤ 256 then do
    let recentHash ← calls.blockHash w p.snapshotBlock
    revertIf (recentHash = 0 ∨ recentHash ≠ p.snapshotBlockHash) (.holderRewards .invalidPublication)
  else .ok ()

/-- `_publish`. -/
def publish (height : ℕ) (s : State W) (p : Publication) : Except Revert (State W) := do
  let m ← market s p.marketId
  revertIf (m.burnMemeFees ∧ p.memeBudget ≠ 0) (.holderRewards .invalidPublication)
  revertIf (p.round = 0 ∨ p.round.toNat ≠ m.lastRound.toNat + 1 ∨
      p.snapshotBlock < m.registeredBlock ∨ p.snapshotBlock ≤ m.lastSnapshotBlock ∨
      p.snapshotBlock ≥ height ∨ p.snapshotBlockHash = 0 ∨ p.root = 0 ∨ p.dataHash = 0 ∨
      (p.quoteBudget = 0 ∧ p.memeBudget = 0)) (.holderRewards .invalidPublication)
  checkRecentHash calls s.outside p height
  revertIf (p.quoteBudget > m.unallocatedQuote ∨ p.memeBudget > m.unallocatedMeme)
    (.holderRewards .budgetExceeded)
  solventIf calls self s.outside s.totalLiability m.quote p.quoteBudget
  solventIf calls self s.outside s.totalLiability m.token p.memeBudget
  let unallocatedQuote ← usub m.unallocatedQuote p.quoteBudget
  let unallocatedMeme ← usub m.unallocatedMeme p.memeBudget
  return { s with
    markets := update s.markets p.marketId { m with
      unallocatedQuote, unallocatedMeme, lastRound := p.round, lastSnapshotBlock := p.snapshotBlock }
    rounds := update s.rounds p.marketId (update (s.rounds p.marketId) p.round
      ⟨p.root, p.snapshotBlockHash, p.dataHash, p.snapshotBlock, p.quoteBudget, p.memeBudget,
        p.quoteBudget, p.memeBudget⟩)
    log := .holderSnapshotPublished p.marketId p.round p.snapshotBlock p.snapshotBlockHash p.root
      p.dataHash p.quoteBudget p.memeBudget :: s.log }

/-- `publishSnapshots`: all of them, or none. -/
def publishSnapshots (s : State W) (caller : Address) (publications : List Publication) :
    Except Revert (State W) := do
  revertIf (caller ≠ s.snapshotPublisher ∨ s.snapshotPublisher = 0) (.holderRewards .unauthorized)
  revertIf (publications.length = 0 ∨ publications.length > maxPublishBatch)
    (.holderRewards .invalidPublication)
  let height ← calls.blockNumber s.outside
  publications.foldlM (publish calls self height) s

/-- `claimLeaf`. -/
def claimLeaf (id : Bytes32) (round : RoundId) (account : Address) (quoteAmount memeAmount : ℕ) :
    Bytes32 :=
  platform.keccak256 (.word (platform.keccak256 (.holderLeaf (leafDomain platform)
    platform.chainId self id round.toNat account quoteAmount memeAmount)))

/-- The payment of a selected asset, if there is something to pay. -/
def payIf (w : W) (totalLiability : Address → ℕ) (asset recipient : Address) (amount : ℕ) :
    Except Revert (W × (Address → ℕ)) :=
  if amount ≠ 0 then pay calls self w totalLiability asset recipient amount
  else .ok (w, totalLiability)

/-- `claimSnapshot`. -/
def claimSnapshot (s : State W) (caller : Address) (id : Bytes32) (round : RoundId)
    (quoteAmount memeAmount : ℕ) (assets : BitVec 8) (proof : List Bytes32) :
    Except Revert (State W × ℕ × ℕ) := do
  revertIf (assets = 0 ∨ assets > 3 ∨ s.excluded id caller ∨ (quoteAmount = 0 ∧ memeAmount = 0))
    (.holderRewards .invalidClaim)
  let leaf := claimLeaf platform self id round caller quoteAmount memeAmount
  revertIf (¬ verifyProof platform proof (s.rounds id round).root leaf)
    (.holderRewards .invalidClaim)
  let m ← market s id
  revertIf (m.burnMemeFees ∧ memeAmount ≠ 0) (.holderRewards .invalidClaim)
  let r := s.rounds id round
  revertIf (r.root = 0) (.holderRewards .invalidClaim)
  revertIf (s.claimedAssets id round caller &&& assets ≠ 0) (.holderRewards .alreadyClaimed)
  let quotePaid := if assets &&& 1 ≠ 0 then quoteAmount else 0
  let memePaid := if assets &&& 2 ≠ 0 then memeAmount else 0
  revertIf (quotePaid > r.quoteRemaining ∨ memePaid > r.memeRemaining)
    (.holderRewards .budgetExceeded)
  let claimed := s.claimedAssets id round caller ||| assets
  let quoteRemaining ← usub r.quoteRemaining quotePaid
  let memeRemaining ← usub r.memeRemaining memePaid
  let (w, totalLiability) ← payIf calls self s.outside s.totalLiability m.quote caller quotePaid
  let (w, totalLiability) ← payIf calls self w totalLiability m.token caller memePaid
  solventIf calls self w totalLiability m.quote quotePaid
  solventIf calls self w totalLiability m.token memePaid
  return ({ s with
    outside := w
    rounds := update s.rounds id (update (s.rounds id) round
      { r with quoteRemaining, memeRemaining })
    claimedAssets := update s.claimedAssets id (update (s.claimedAssets id) round
      (update (s.claimedAssets id round) caller claimed))
    totalLiability
    log := .holderSnapshotClaimed id round caller assets quotePaid memePaid :: s.log },
    quotePaid, memePaid)

/-! ### The distributor as a machine -/

/-- The distributor as deployed. -/
structure Init (s : State W) : Prop where
  publisher : s.snapshotPublisher = 0
  markets : ∀ id, s.markets id = Market.empty
  rounds : ∀ id round, s.rounds id round = Round.empty
  claimed : ∀ id round account, s.claimedAssets id round account = 0
  excluded : ∀ id account, s.excluded id account = false
  exclusions : ∀ id, s.exclusions id = []
  totalLiability : ∀ asset, s.totalLiability asset = 0
  log : s.log = []

/-- **One step**: a successful call of any function by anyone, or any change outside. -/
inductive Step : State W → Unit → State W → Prop
  | setSnapshotPublisher {s s' : State W} (caller publisher : Address)
      (h : setSnapshotPublisher calls s caller publisher = .ok s') : Step s () s'
  | revokeSnapshotPublisher {s s' : State W} (caller expectedPublisher : Address)
      (h : revokeSnapshotPublisher calls s caller expectedPublisher = .ok s') : Step s () s'
  | registerFeeSharingMarket {s s' : State W} (caller : Address) (id : Bytes32)
      (vault locker : Address)
      (h : registerFeeSharingMarket calls self s caller id vault locker = .ok s') : Step s () s'
  | fundQuoteRewards {s s' : State W} (caller : Address) (value : ℕ) (id : Bytes32) (bucket : Epoch)
      (amount : ℕ) (h : fundQuoteRewards calls self s caller value id bucket amount = .ok s') :
      Step s () s'
  | fundMemeFees {s s' : State W} (caller : Address) (id : Bytes32) (amount : ℕ)
      (h : fundMemeFees calls self s caller id amount = .ok s') : Step s () s'
  | publishSnapshots {s s' : State W} (caller : Address) (publications : List Publication)
      (h : publishSnapshots calls self s caller publications = .ok s') : Step s () s'
  | claimSnapshot {s s' : State W} (caller : Address) (id : Bytes32) (round : RoundId)
      (quoteAmount memeAmount : ℕ) (assets : BitVec 8) (proof : List Bytes32) (paid : ℕ × ℕ)
      (h : claimSnapshot platform calls self s caller id round quoteAmount memeAmount assets proof
        = .ok (s', paid)) : Step s () s'
  | outside {s : State W} (w : W) : Step s () { s with outside := w }

/-- The states of the distributor some run leads to. -/
abbrev Reachable (s : State W) : Prop :=
  Transition.Reachable (Step platform calls self) Init s

end Contract

end HolderRewards

end TickerGarden
