import TickerGarden.Fees.Claims

/-!
# Funding the holders, among strangers

What the vault owes to the holders of a market goes to the distributor of its token, at
anybody's request, and `fundHolderRewardsBatch` does it for many markets. On the way the vault
calls tokens and distributors, and these are strangers: they may fail, lie about a balance, use
up their gas, or call the vault back. In `TickerGarden.Fees.Claims` the same functions are
modelled for tokens that do as they say; here nothing is supposed about what is called beyond
what the machine enforces.

The state is the chain as the vault sees it, `TickerGarden.ProtocolFeeVault.Funding.Chain`: the
vault with its lock and its surroundings, what it has approved, and the storage of everybody
else, of which nothing is known. The strangers are functions on it,
`TickerGarden.ProtocolFeeVault.Funding.External`, one for each call the vault makes; what can
happen during such a call is `TickerGarden.ProtocolFeeVault.Funding.Foreign`: the rest of the
world moves, and the vault is called at any of its entries.

| source                       | here                                                          |
|------------------------------|---------------------------------------------------------------|
| `staticcall`                 | a function of the chain, which does not change it             |
| a call                       | a function to the next chain, or a revert                     |
| the self-call of the batch   | `selfCall`: the chain before the call, if the call reverts    |
| `gasleft()`                  | a number for each position, of which nothing is known         |
| `CREDIT_STATE_SLOT`          | the lock of `TickerGarden.ProtocolFeeVault.Session`           |

The proposals of a new treasury have storage of their own and are left out; the call that
replaces the treasury is among the entries.
-/

namespace TickerGarden

open Checked

namespace ProtocolFeeVault

namespace Funding

/-- The chain, as the vault sees it. -/
structure Chain (G E : Type) extends System G where
  /-- What the vault has approved, by asset and spender. -/
  allowance : Address → Address → ℕ
  /-- The storage of everybody else. -/
  rest : E

namespace Chain

variable {G E : Type} (x : Chain G E)

/-- The chain, with another state of the vault. -/
def withVault (s : State) : Chain G E := { x with vault := s }

/-- The chain, with another ledger of the vault. -/
def withLedger (l : Ledger) : Chain G E := x.withVault { x.vault with ledger := l }

/-- The chain after a call that returns the state and the balances. -/
def after (s : State) (b : Balances) : Chain G E := { x with toSystem := x.toSystem.after s b }

/-- What an account has approved a spender for is what it approved last. -/
def approve (asset spender : Address) (amount : ℕ) : Chain G E :=
  { x with
    allowance := Function.update x.allowance asset
      (Function.update (x.allowance asset) spender amount) }

/-- The chain with so much less of an asset. -/
def spend (self asset : Address) (amount : ℕ) : Chain G E :=
  { x with
    around := x.around.withBalances
      (x.around.balances.set asset self (x.around.balances asset self - amount)) }

/-- `_enterStandaloneOperation`. -/
def enter (operationId : Bytes32) : Except Revert (Chain G E) := do
  requireCreditIdle x.vault operationId
  return x.withVault (setCreditState x.vault .finalizing)

/-- `_exitStandaloneOperation`. -/
def exit : Chain G E := x.withVault (setCreditState x.vault .idle)

end Chain

/-- **What the vault calls**, as it comes: every call may fail. -/
structure External (G E : Type) where
  /-- Whether `balanceOf` fails, or returns something that is not a word. -/
  balanceUnavailable : Chain G E → (asset : Address) → Bool
  totalSupply : Chain G E → (token : Address) → Except Revert ℕ
  holderRewardsDistributor : Chain G E → (token : Address) → Except Revert Address
  /-- `SafeERC20.forceApprove`. -/
  forceApprove : (token spender : Address) → (amount : ℕ) → Chain G E → Except Revert (Chain G E)
  burn : (token : Address) → (amount : ℕ) → Chain G E → Except Revert (Chain G E)
  /-- `IHolderDistribution.fundQuoteRewards`, with the native currency sent along. -/
  fundQuoteRewards : (distributor : Address) → (native : ℕ) → (marketId : Bytes32) →
    (epochId : Epoch) → (amount : ℕ) → Chain G E → Except Revert (Chain G E)
  /-- `IUserHolderRewards.fundMemeFees`. -/
  fundMemeFees : (distributor : Address) → (marketId : Bytes32) → (amount : ℕ) → Chain G E →
    Except Revert (Chain G E)

/-! ### One funding -/

section One

variable {G E : Type} (v : Immutables) (ext : External G E) (x : Chain G E)

/-- `_assetBalance`. -/
def assetBalance (asset : Address) : Except Revert ℕ := do
  revertIf (asset ≠ 0 ∧ ext.balanceUnavailable x asset)
    (.feeVault (.feeAssetBalanceUnavailable asset))
  return x.around.balances asset v.self

/-- `_requireAssetSolvent`. -/
def requireAssetSolvent (asset : Address) : Except Revert Unit := do
  let balance ← assetBalance v ext x asset
  let required := x.vault.ledger.totalLiabilities asset
  revertIf (balance < required) (.feeVault (.feeVaultInsolvent asset balance required))

/-- `_holderDistributor`. -/
def holderDistributor (config : MarketConfig) : Except Revert Address := do
  revertIf (¬ config.creatorFeesToHolders) (.feeVault .creatorFeesAssignedToHolders)
  ext.holderRewardsDistributor x config.memeToken

/-- That an asset has gone down by an amount. -/
def requirePaid (asset : Address) (beforeBalance amount : ℕ) (e : FeeVaultError) :
    Except Revert Unit := do
  let balance ← assetBalance v ext x asset
  let total ← uadd balance amount
  revertIf (total ≠ beforeBalance) (.feeVault e)

/-- `_burnMemeFees`. -/
def burnMemeFees (marketId : Bytes32) (token beneficiary : Address) (role : ℕ) (epoch : Epoch)
    (amount : ℕ) : Except Revert (Chain G E) := do
  let beforeBalance ← assetBalance v ext x token
  let beforeSupply ← ext.totalSupply x token
  let x ← ext.burn token amount x
  requirePaid v ext x token beforeBalance amount .rewardBalanceMismatch
  let supply ← ext.totalSupply x token
  let totalSupply ← uadd supply amount
  revertIf (totalSupply ≠ beforeSupply) (.feeVault .rewardBalanceMismatch)
  requireAssetSolvent v ext x token
  return x.withLedger
    (x.vault.ledger.emit (.memeFeesBurned marketId beneficiary role epoch token amount))

/-- `_settleHolderMemeBurn`. -/
def settleHolderMemeBurn (marketId : Bytes32) (config : MarketConfig) :
    Except Revert (Chain G E × ℕ) :=
  let token := config.memeToken
  let amount := (x.vault.ledger.account marketId token).holderLiability 1
  if ¬ config.burnMemeFees ∨ amount = 0 then .ok (x, 0)
  else do
    requireAssetSolvent v ext x token
    let l ← debitHolderFee x.vault.ledger marketId token 1 amount
    let x ← burnMemeFees v ext (x.withLedger l) marketId token 0 2 0 amount
    return (x, amount)

/-- The approval of the quote, which the native currency needs none of. -/
def approveQuote (quote distributor : Address) (amount : ℕ) : Except Revert (Chain G E) :=
  if quote ≠ 0 then ext.forceApprove quote distributor amount x else .ok x

/-- The transfer of `fundHolderRewards`. -/
def fundHolderQuote (marketId : Bytes32) (epochId : Epoch) (quote distributor : Address)
    (amount : ℕ) : Except Revert (Chain G E) :=
  if amount = 0 then .ok x
  else do
    requireAssetSolvent v ext x quote
    let beforeBalance ← assetBalance v ext x quote
    let l ← debitHolderFee x.vault.ledger marketId quote epochId amount
    let x ← approveQuote ext (x.withLedger l) quote distributor amount
    let x ← ext.fundQuoteRewards distributor (if quote = 0 then amount else 0) marketId epochId
      amount x
    let x ← approveQuote ext x quote distributor 0
    requirePaid v ext x quote beforeBalance amount (.inexactFeePayment quote distributor amount 0 0)
    requireAssetSolvent v ext x quote
    return x

/-- `fundHolderRewards`. -/
def fundHolderRewards (marketId : Bytes32) (epochId : Epoch) : Except Revert (Chain G E × ℕ) := do
  let x ← x.enter (bytes32 "FUND_HOLDER_REWARDS")
  let value ← MarketRegistry.market x.around.registries marketId
  let config := value.config.toMarketConfig
  let distributor ← holderDistributor ext x config
  let (x, _) ← settleHolderMemeBurn v ext x marketId config
  let amount := (x.vault.ledger.account marketId config.quoteAsset).holderLiability epochId
  let x ← fundHolderQuote v ext x marketId epochId config.quoteAsset distributor amount
  if config.burnMemeFees then requireAssetSolvent v ext x config.memeToken
  return (x.exit, amount)

/-- The transfer of `fundHolderMemeRewards`. -/
def fundHolderMeme (marketId : Bytes32) (token distributor : Address) (amount : ℕ) :
    Except Revert (Chain G E) :=
  if amount = 0 then .ok x
  else do
    requireAssetSolvent v ext x token
    let beforeBalance ← assetBalance v ext x token
    let l ← debitHolderFee x.vault.ledger marketId token 1 amount
    let x ← ext.forceApprove token distributor amount (x.withLedger l)
    let x ← ext.fundMemeFees distributor marketId amount x
    let x ← ext.forceApprove token distributor 0 x
    requirePaid v ext x token beforeBalance amount .rewardBalanceMismatch
    return x

/-- `fundHolderMemeRewards`. -/
def fundHolderMemeRewards (marketId : Bytes32) : Except Revert (Chain G E × ℕ) := do
  let x ← x.enter (bytes32 "FUND_HOLDER_MEME")
  let value ← MarketRegistry.market x.around.registries marketId
  let config := value.config.toMarketConfig
  let distributor ← holderDistributor ext x config
  let token := config.memeToken
  if config.burnMemeFees then
    let (x, amount) ← settleHolderMemeBurn v ext x marketId config
    return (x.exit, amount)
  else
    let amount := (x.vault.ledger.account marketId token).holderLiability 1
    let x ← fundHolderMeme v ext x marketId token distributor amount
    return (x.exit, amount)

end One

/-! ### What a call returns -/

section Returndata

/-- A number in so many bytes, the highest first. -/
def bytesOf : ℕ → ℕ → List (BitVec 8)
  | 0, _ => []
  | k + 1, n => bytesOf k (n / 256) ++ [BitVec.ofNat 8 n]

/-- The encoding of one `uint256`. -/
def abiEncode (n : ℕ) : List (BitVec 8) := bytesOf 32 n

/-- One byte more of a number. -/
def readByte (n : ℕ) (b : BitVec 8) : ℕ := n * 256 + b.toNat

/-- The word in an output buffer of 32 bytes that was zero before the call. -/
def outputWord (returndata : List (BitVec 8)) : ℕ :=
  ((returndata ++ List.replicate 32 0).take 32).foldl readByte 0

theorem length_bytesOf (k n : ℕ) : (bytesOf k n).length = k := by
  induction k generalizing n with
  | zero => rfl
  | succ k ih => rw [bytesOf, List.length_append, ih, List.length_singleton]

theorem foldl_bytesOf (k n : ℕ) : (bytesOf k n).foldl readByte 0 = n % 256 ^ k := by
  induction k generalizing n with
  | zero => rw [bytesOf, List.foldl_nil, pow_zero, Nat.mod_one]
  | succ k ih =>
    have hlast : n % (256 * 256 ^ k) = n % 256 + 256 * (n / 256 % 256 ^ k) := Nat.mod_mul
    have hbyte : (BitVec.ofNat 8 n).toNat = n % 256 := BitVec.toNat_ofNat n 8
    rw [bytesOf, List.foldl_append, ih, List.foldl_cons, List.foldl_nil, readByte, hbyte, pow_succ',
      hlast]
    omega

/-- **What is returned is what is read.** -/
theorem outputWord_abiEncode {n : ℕ} (h : n ≤ maxUint256) : outputWord (abiEncode n) = n := by
  have htake : (abiEncode n ++ List.replicate 32 0).take 32 = abiEncode n :=
    List.take_left' (length_bytesOf 32 n)
  rw [outputWord, htake, abiEncode, foldl_bytesOf]
  exact Nat.mod_eq_of_lt (h.trans_lt (by decide))

end Returndata

/-! ### The batch -/

/-- `MAX_HOLDER_FUNDING_BATCH`. -/
def maxHolderFundingBatch : ℕ := 32

/-- `MIN_HOLDER_FUNDING_GAS`. -/
def minHolderFundingGas : ℕ := 100000

/-- `MAX_HOLDER_FUNDING_GAS`. -/
def maxHolderFundingGas : ℕ := 2000000

/-- `HOLDER_FUNDING_GAS_RESERVE`. -/
def holderFundingGasReserve : ℕ := 80000

/-- The events of a batch. -/
inductive FundingEvent
  | holderFundingResult (marketId : Bytes32) (asset status amount errorSelector : ℕ)
  | holderFundingBatchStopped (nextMarket nextAsset : ℕ)
deriving DecidableEq

/-- How it goes at a position of a batch: the gas that is left before it, whether the gas of
the child lasts, and what the child finds. -/
structure Attempt (G E : Type) where
  gasLeft : ℕ
  lasts : Bool
  external : External G E

/-- The result of a call: the chain after it, and what it returns. -/
structure CallResult (G E : Type) where
  chain : Chain G E
  success : Bool
  returndata : List (BitVec 8)

section Batches

variable {G E : Type} (v : Immutables) (encodeRevert : Revert → List (BitVec 8))

/-- The child of an item. -/
def fundItem (ext : External G E) (x : Chain G E) (marketId : Bytes32) (asset : ℕ) :
    Except Revert (Chain G E × ℕ) :=
  if asset = 1 then fundHolderRewards v ext x marketId 1
  else fundHolderMemeRewards v ext x marketId

/-- A call of the vault to itself: a child that reverts has changed nothing. -/
def selfCall (lasts : Bool) (x : Chain G E) (child : Except Revert (Chain G E × ℕ)) :
    CallResult G E :=
  match ifGas lasts child with
  | .ok (y, amount) => ⟨y, true, abiEncode amount⟩
  | .error e => ⟨x, false, encodeRevert e⟩

/-- The chain in a batch, with the events of the batch so far. -/
structure Progress (G E : Type) where
  chain : Chain G E
  events : List FundingEvent

/-- `_attemptHolderFunding`. -/
def attemptHolderFunding (a : Attempt G E) (marketId : Bytes32) (asset : ℕ) (p : Progress G E) :
    Except Revert (Progress G E) := do
  let call := selfCall encodeRevert a.lasts p.chain (fundItem v a.external p.chain marketId asset)
  let result := outputWord call.returndata
  let size := call.returndata.length
  if call.success then
    revertIf (size ≠ 32) (.feeVault .unexpectedHolderFundingReturn)
    return ⟨call.chain, p.events
      ++ [.holderFundingResult marketId asset (if result = 0 then 0 else 1) result 0]⟩
  else
    let errorSelector := if size ≥ 4 then result / 2 ^ 224 else 0
    return ⟨call.chain, p.events ++ [.holderFundingResult marketId asset 2 0 errorSelector]⟩

variable (attempts : ℕ → ℕ → Attempt G E) (assets : BitVec 8) (gasPerAsset : ℕ)

/-- `assets & asset != 0`. -/
def selected (asset : ℕ) : Bool := assets &&& BitVec.ofNat 8 asset ≠ 0

/-- `gasleft() <= gasPerAsset + gasPerAsset / 63 + HOLDER_FUNDING_GAS_RESERVE`. -/
def lowGas (i asset : ℕ) : Bool :=
  (attempts i asset).gasLeft ≤ gasPerAsset + gasPerAsset / 63 + holderFundingGasReserve

/-- The inner loop, over the assets that are left of a market, and where it stops. -/
def fundAssets (i : ℕ) (marketId : Bytes32) :
    List ℕ → Progress G E → Except Revert (Progress G E × Option (ℕ × ℕ))
  | [], p => .ok (p, none)
  | asset :: todo, p =>
    if ¬ selected assets asset then fundAssets i marketId todo p
    else if lowGas attempts gasPerAsset i asset then
      .ok (⟨p.chain, p.events ++ [.holderFundingBatchStopped i asset]⟩, some (i, asset))
    else do
      let p ← attemptHolderFunding v encodeRevert (attempts i asset) marketId asset p
      fundAssets i marketId todo p

/-- The outer loop, over the markets that are left, and the cursor it returns. -/
def fundMarkets : ℕ → List Bytes32 → Progress G E → Except Revert (Progress G E × ℕ × ℕ)
  | i, [], p => .ok (p, i, 0)
  | i, marketId :: todo, p => do
    let (p, stop) ← fundAssets v encodeRevert attempts assets gasPerAsset i marketId [1, 2] p
    match stop with
    | some cursor => return (p, cursor)
    | none => fundMarkets (i + 1) todo p

/-- `fundHolderRewardsBatch`: the chain and the events, and the position to resume at. -/
def fundHolderRewardsBatch (marketIds : List Bytes32) (x : Chain G E) :
    Except Revert (Progress G E × ℕ × ℕ) := do
  revertIf (marketIds.length = 0 ∨ marketIds.length > maxHolderFundingBatch ∨ assets = 0 ∨
      assets > 3 ∨ gasPerAsset < minHolderFundingGas ∨ gasPerAsset > maxHolderFundingGas)
    (.feeVault .invalidHolderFundingBatch)
  requireCreditIdle x.vault (bytes32 "FUND_HOLDER_BATCH")
  fundMarkets v encodeRevert attempts assets gasPerAsset 0 marketIds ⟨x, []⟩

end Batches

/-! ### What happens during a call -/

/-- The entries of the vault. -/
inductive Entry (G E : Type)
  | beginV4Credit (marketId : Bytes32) (feeAsset : Address) (amount sourceVersion : ℕ)
      (feeId : Bytes32)
  | finalizeV4Credit (gas : StakerGas) (marketId : Bytes32) (feeAsset : Address)
      (base totalFee lpAmount nonLpAmount feeNonce : ℕ) (feeId : Bytes32)
  | receive (value : ℕ)
  | beginCurveCredit (credit : Curve.CurveCredit)
  | finalizeCurveCredit (value : ℕ) (credit : Curve.CurveCredit)
  | coverAssetDeficit (value : ℕ) (asset : Address) (amount : ℕ)
  | claimPlatform (marketId : Bytes32) (feeAsset : Address)
  | recordForfeiture (marketId : Bytes32) (user : Address) (quoteAmount memeAmount : ℕ)
  | claimUserRewards (marketId : Bytes32) (role : ℕ) (epoch : Epoch) (assets : BitVec 8)
  | executePlatformTreasury (treasury : Address)
  | fundHolderRewards (ext : External G E) (marketId : Bytes32) (epochId : Epoch)
  | fundHolderMemeRewards (ext : External G E) (marketId : Bytes32)
  | fundHolderRewardsBatch (attempts : ℕ → ℕ → Attempt G E) (marketIds : List Bytes32)
      (assets : BitVec 8) (gasPerAsset : ℕ)

section Calls

variable {G E : Type} (calls : GaugeCalls G) (platform : Platform) (v : Immutables)
  (encodeRevert : Revert → List (BitVec 8))

/-- A call of an entry. -/
def runEntry (caller : Address) (x : Chain G E) : Entry G E → Except Revert (Chain G E)
  | .beginV4Credit marketId feeAsset amount sourceVersion feeId => do
    let s ← beginV4Credit v x.around.toWorld caller x.vault marketId feeAsset amount sourceVersion
      feeId
    return x.withVault s
  | .finalizeV4Credit gas marketId feeAsset base totalFee lpAmount nonLpAmount feeNonce feeId => do
    let (s, g) ← finalizeV4Credit calls platform v x.around gas caller x.vault x.gauges marketId
      feeAsset base totalFee lpAmount nonLpAmount feeNonce feeId
    return { x with vault := s, gauges := g }
  | .receive value => do
    receiveNative v x.vault caller value
    return x
  | .beginCurveCredit credit => do
    let s ← beginCurveCredit platform v x.around caller x.vault credit
    return x.withVault s
  | .finalizeCurveCredit value credit => do
    let s ← finalizeCurveCredit platform v x.around caller x.vault value credit
    return x.withVault s
  | .coverAssetDeficit value asset amount => do
    let (s, b) ← coverAssetDeficit v x.around x.vault caller value asset amount
    return x.after s b
  | .claimPlatform marketId feeAsset => do
    let (s, b) ← claimPlatform v x.around x.vault marketId feeAsset
    return x.after s b
  | .recordForfeiture marketId user quoteAmount memeAmount => do
    let s ← recordForfeiture v x.around x.vault caller marketId user quoteAmount memeAmount
    return x.withVault s
  | .claimUserRewards marketId role epoch assets => do
    let (s, b, g, _, _) ← claimUserRewards v x.around x.vault calls caller x.gauges marketId role
      epoch assets
    return { x.after s b with gauges := g }
  | .executePlatformTreasury treasury => do
    requireCreditIdle x.vault (bytes32 "TREASURY_CHANGE")
    return x.withVault { x.vault with feePlatformTreasury := treasury }
  | .fundHolderRewards ext marketId epochId => do
    let (x, _) ← fundHolderRewards v ext x marketId epochId
    return x
  | .fundHolderMemeRewards ext marketId => do
    let (x, _) ← fundHolderMemeRewards v ext x marketId
    return x
  | .fundHolderRewardsBatch attempts marketIds assets gasPerAsset => do
    let (p, _) ← fundHolderRewardsBatch v encodeRevert attempts assets gasPerAsset marketIds x
    return p.chain

/-- **The rest of the world moves.** The storage of the vault is its own. What is `exact` – the
native currency, a token that moves as a token should – leaves an account by its own call or by
a spender it has approved, and nobody approves for another. -/
structure Moves (exact : Address → Prop) (x y : Chain G E) : Prop where
  vault : y.vault = x.vault
  allowance_le : ∀ asset, exact asset → ∀ spender, y.allowance asset spender ≤ x.allowance asset spender
  balance_le : ∀ asset, exact asset → (∀ spender, x.allowance asset spender = 0) →
    x.around.balances asset v.self ≤ y.around.balances asset v.self

/-- **What can happen during a call to strangers**: the rest of the world moves, and calls the
vault. -/
inductive Foreign (exact : Address → Prop) : Chain G E → Chain G E → Prop
  | refl (x : Chain G E) : Foreign exact x x
  | moves {x y z : Chain G E} (h : Foreign exact x y) (hmove : Moves v exact y z) :
      Foreign exact x z
  | call {x y z : Chain G E} (caller : Address) (e : Entry G E) (hcaller : caller ≠ 0)
      (h : Foreign exact x y) (hrun : runEntry calls platform v encodeRevert caller y e = .ok z) :
      Foreign exact x z

/-- **The calls of the vault are calls**: what they leave is what can happen, after an approval
is noted and what is sent along has left. -/
structure External.Lawful (exact : Address → Prop) (ext : External G E) : Prop where
  forceApprove : ∀ {token spender amount x y}, ext.forceApprove token spender amount x = .ok y →
    Foreign calls platform v encodeRevert exact (x.approve token spender amount) y
  burn : ∀ {token amount x y}, ext.burn token amount x = .ok y →
    Foreign calls platform v encodeRevert exact (x.spend v.self token amount) y
  fundQuoteRewards : ∀ {distributor native marketId epochId amount x y},
    ext.fundQuoteRewards distributor native marketId epochId amount x = .ok y →
    Foreign calls platform v encodeRevert exact (x.spend v.self 0 native) y
  fundMemeFees : ∀ {distributor marketId amount x y},
    ext.fundMemeFees distributor marketId amount x = .ok y →
    Foreign calls platform v encodeRevert exact x y

/-- What an entry calls is lawful. -/
def Entry.Lawful (exact : Address → Prop) : Entry G E → Prop
  | .fundHolderRewards ext _ _ => ext.Lawful calls platform v encodeRevert exact
  | .fundHolderMemeRewards ext _ => ext.Lawful calls platform v encodeRevert exact
  | .fundHolderRewardsBatch attempts _ _ _ =>
    ∀ i asset, (attempts i asset).external.Lawful calls platform v encodeRevert exact
  | _ => True

/-- The chain with a vault as its constructor leaves it, which has approved nobody. -/
def Init (x : Chain G E) : Prop :=
  ProtocolFeeVault.Init v x.toSystem ∧ ∀ asset spender, x.allowance asset spender = 0

/-- **One step**: a successful call by an account other than the vault, a move of the rest of
the world, or the end of a transaction. -/
inductive Step (exact : Address → Prop) : Chain G E → Unit → Chain G E → Prop
  | call {x y : Chain G E} (caller : Address) (e : Entry G E) (hcaller : caller ≠ 0)
      (hlawful : e.Lawful calls platform v encodeRevert exact)
      (h : runEntry calls platform v encodeRevert caller x e = .ok y) : Step exact x () y
  | moves {x y : Chain G E} (h : Moves v exact x y) : Step exact x () y
  | endTransaction (x : Chain G E) :
      Step exact x () (x.withVault { x.vault with session := Session.start })

/-- The chains with a deployed vault. -/
abbrev Reachable (exact : Address → Prop) (x : Chain G E) : Prop :=
  Transition.Reachable (Step calls platform v encodeRevert exact) (Init v) x

end Calls

end Funding

end ProtocolFeeVault

end TickerGarden
