import TickerGarden.Fees.FeeVault

/-!
# The exits of the fee vault

How fees leave `ProtocolFeeVault`: the platform's to the treasury, the creator's and the
stakers' to whoever earned them, the holders' to the distributor of the token – or, for
a market that burns its token fees, nowhere. With the forfeitures that a gauge records,
and the donation that covers a deficit.

Each function returns the state and the balances it leaves. The machine of the vault is
at the end: `TickerGarden.ProtocolFeeVault.Step` is one successful call, the end of a
transaction, or a step of the rest of the world.
-/

namespace TickerGarden

open Checked

namespace ProtocolFeeVault

section Exits

variable (v : Immutables) (c : Surroundings) (s : State)

/-- `_validateFeeMarket`. -/
def validateFeeMarket (marketId : Bytes32) (feeAsset : Address) (config : MarketConfig) :
    Except Revert Unit := do
  revertIf (marketId = 0 ∨ config.memeToken = 0 ∨ (config.stakingEnabled ∧ config.gauge = 0))
    (.feeVault (.invalidFeeMarket marketId))
  revertIf (feeAsset ≠ config.quoteAsset ∧ feeAsset ≠ config.memeToken)
    (.feeVault (.feeAssetNotCanonical feeAsset))

/-- `_canonicalFeeMarket`. -/
def canonicalFeeMarket (marketId : Bytes32) (feeAsset : Address) : Except Revert MarketView := do
  let value ← MarketRegistry.market c.registries marketId
  validateFeeMarket marketId feeAsset value.config.toMarketConfig
  return value

/-! ### Deficits, the platform, and forfeitures -/

/-- The donation of `coverAssetDeficit` in a token. -/
def pullContribution (caller asset : Address) (amount : ℕ) (b : Balances) :
    Except Revert Balances :=
  if asset = 0 then .ok b
  else do
    let after ← orRevert (b.move asset caller v.self amount) .noReason
    revertIf (after asset v.self ≠ b asset v.self + amount ∨
        after asset caller + amount ≠ b asset caller)
      (.feeVault .invalidDeficitContribution)
    return after

/-- `coverAssetDeficit`: at most what is missing. -/
def coverAssetDeficit (caller : Address) (value : ℕ) (asset : Address) (amount : ℕ) :
    Except Revert (State × Balances) := do
  let b ← orRevert (c.balances.move 0 caller v.self value) .noReason
  requireCreditIdle s (bytes32 "COVER_DEFICIT")
  revertIf (amount = 0 ∨ value ≠ if asset = 0 then amount else 0)
    (.feeVault .invalidDeficitContribution)
  let beforeBalance ← usub (b asset v.self) value
  let required := s.ledger.totalLiabilities asset
  revertIf (beforeBalance ≥ required ∨ amount > required - beforeBalance)
    (.feeVault .invalidDeficitContribution)
  let b ← pullContribution v caller asset amount b
  let l := s.ledger.emit
    (.feeAssetDeficitCovered asset caller amount (required - beforeBalance - amount))
  return ({ s with ledger := l }, b)

/-- The payment of `claimPlatform`. -/
def payPlatform (l : Ledger) (marketId : Bytes32) (feeAsset : Address) :
    Except Revert (Ledger × Balances) :=
  let amount := (l.account marketId feeAsset).bucketLiabilities .platformRevenue
  if amount ≠ 0 then do
    let l ← debitLiability l marketId feeAsset .platformRevenue amount
    let b ← payFeeAsset v.self c.balances l feeAsset s.feePlatformTreasury amount
    return (l.emit (.feeClaimed 2 s.feePlatformTreasury marketId 0 feeAsset amount), b)
  else .ok (l, c.balances)

/-- What the platform has of an asset is paid to its treasury, with the reserve of forfeitures, as
long as the vault stays solvent. -/
def claimPlatform (marketId : Bytes32) (feeAsset : Address) : Except Revert (State × Balances) := do
  requireCreditIdle s (bytes32 "CLAIM_PLATFORM")
  let _ ← canonicalFeeMarket c marketId feeAsset
  let l ← convertForfeitureReserve s.ledger marketId feeAsset
  requireAssetSolvent v.self c.balances l feeAsset
  let (l, b) ← payPlatform v c s l marketId feeAsset
  return ({ s with ledger := l }, b)

/-- `recordForfeiture`, by the gauge of the market. -/
def recordForfeiture (caller : Address) (marketId : Bytes32) (user : Address)
    (quoteAmount memeAmount : ℕ) : Except Revert State := do
  requireCreditIdle s (bytes32 "RECORD_FORFEITURE")
  let value ← MarketRegistry.market c.registries marketId
  revertIf (marketId = 0 ∨ value.config.memeToken = 0 ∨ value.config.gauge = 0)
    (.feeVault (.invalidFeeMarket marketId))
  revertIf (caller ≠ value.config.gauge)
    (.feeVault (.unauthorizedForfeitureGauge caller value.config.gauge))
  revertIf (user = 0 ∨ (quoteAmount = 0 ∧ memeAmount = 0))
    (.feeVault (.invalidForfeiture user quoteAmount memeAmount))
  let l ← reserveForfeiture s.ledger marketId value.config.quoteAsset user quoteAmount
  let l ← reserveForfeiture l marketId value.config.memeToken user memeAmount
  requireAssetSolvent v.self c.balances l value.config.quoteAsset
  requireAssetSolvent v.self c.balances l value.config.memeToken
  return { s with ledger := l }

/-! ### Claims of users -/

/-- Whether a choice of assets has the quote in it. -/
def hasQuote (assets : BitVec 8) : Bool := assets &&& 1 ≠ 0

/-- Whether a choice of assets has the market's token in it. -/
def hasMeme (assets : BitVec 8) : Bool := assets &&& 2 ≠ 0

/-- The part of `_consumeUserRewards` that takes a creator's epoch, in one asset. -/
def takeCreator (l : Ledger) (marketId : Bytes32) (asset : Address) (epoch : Epoch)
    (selected : Bool) : Ledger × ℕ :=
  if selected then
    (deleteCreatorLiability l marketId asset epoch,
      (l.account marketId asset).creatorLiabilities epoch)
  else (l, 0)

/-- The part of `_consumeUserRewards` that debits a bucket, in one asset. -/
def debitSelected (l : Ledger) (marketId : Bytes32) (asset : Address) (bucket : Bucket)
    (selected : Bool) (amount : ℕ) : Except Revert Ledger :=
  if selected then debitLiability l marketId asset bucket amount else .ok l

variable {G : Type} (calls : GaugeCalls G)

/-- `_consumeUserRewards` of a creator. -/
def consumeCreatorRewards (caller : Address) (l : Ledger) (marketId : Bytes32)
    (config : MarketConfig) (epoch : Epoch) (assets : BitVec 8) : Except Revert (Ledger × ℕ × ℕ) := do
  revertIf (epoch = 0 ∨ c.creatorBeneficiaryAt marketId epoch ≠ caller)
    (.feeVault .invalidUserClaim)
  let (l, q) := takeCreator l marketId config.quoteAsset epoch (hasQuote assets)
  let (l, m) := takeCreator l marketId config.memeToken epoch (hasMeme assets)
  let l ← debitSelected l marketId config.quoteAsset .creatorRevenue (hasQuote assets) q
  let l ← debitSelected l marketId config.memeToken .creatorRevenue (hasMeme assets) m
  return (l, q, m)

/-- `_consumeUserRewards` of a staker. -/
def consumeStakerRewards (caller : Address) (l : Ledger) (g : G) (marketId : Bytes32)
    (config : MarketConfig) (assets : BitVec 8) : Except Revert (Ledger × G × ℕ × ℕ) := do
  revertIf (¬ config.stakingEnabled) (.feeVault .invalidUserClaim)
  let (g, q, m) ← calls.consumeClaimableAssets marketId caller assets g
  let l ← debitSelected l marketId config.quoteAsset .stakerReward (hasQuote assets) q
  let l ← debitSelected l marketId config.memeToken .stakerReward (hasMeme assets) m
  return (l, g, q, m)

/-- `_consumeUserRewards`: what is due in the quote and in the token. -/
def consumeUserRewards (caller : Address) (l : Ledger) (g : G) (marketId : Bytes32)
    (config : MarketConfig) (role : ℕ) (epoch : Epoch) (assets : BitVec 8) :
    Except Revert (Ledger × G × ℕ × ℕ) :=
  if role = 0 then do
    let (l, q, m) ← consumeCreatorRewards c caller l marketId config epoch assets
    return (l, g, q, m)
  else consumeStakerRewards calls caller l g marketId config assets

/-- The payment of a claim in the quote. -/
def payQuote (caller : Address) (l : Ledger) (b : Balances) (asset : Address) (amount : ℕ) :
    Except Revert Balances :=
  if amount ≠ 0 then payFeeAsset v.self b l asset caller amount else .ok b

/-- The payment of a claim in the token, or its burning, with what was paid. -/
def payMeme (caller : Address) (l : Ledger) (b : Balances) (marketId : Bytes32)
    (config : MarketConfig) (role : ℕ) (epoch : Epoch) (amount : ℕ) :
    Except Revert (Ledger × Balances × ℕ) :=
  if amount = 0 then .ok (l, b, 0)
  else if config.burnMemeFees then do
    let (l, b) ← burnMemeFees v.self b l marketId config.memeToken caller role epoch amount
    return (l, b, 0)
  else do
    let b ← payFeeAsset v.self b l config.memeToken caller amount
    return (l, b, amount)

/-- The solvency of the selected assets. -/
def requireSelectedSolvent (b : Balances) (l : Ledger) (config : MarketConfig)
    (assets : BitVec 8) : Except Revert Unit := do
  if hasQuote assets then requireAssetSolvent v.self b l config.quoteAsset
  if hasMeme assets then requireAssetSolvent v.self b l config.memeToken

/-- The events of a claim. -/
def emitClaims (l : Ledger) (caller : Address) (marketId : Bytes32) (config : MarketConfig)
    (role : ℕ) (epoch : Epoch) (quotePaid memePaid : ℕ) : Ledger :=
  let l := if quotePaid ≠ 0
    then l.emit (.feeClaimed role caller marketId epoch config.quoteAsset quotePaid) else l
  let l := if memePaid ≠ 0
    then l.emit (.feeClaimed role caller marketId epoch config.memeToken memePaid) else l
  l.emit (.userRewardsClaimed marketId caller role epoch quotePaid memePaid)

/-- `_claimUserRewards`: `claimUserRewardAssets`, and `claimUserRewards` with both assets. -/
def claimUserRewards (caller : Address) (g : G) (marketId : Bytes32) (role : ℕ) (epoch : Epoch)
    (assets : BitVec 8) : Except Revert (State × Balances × G × ℕ × ℕ) := do
  revertIf (assets = 0 ∨ assets > 3 ∨ role > 2 ∨ (role ≠ 0 ∧ epoch ≠ 0))
    (.feeVault .invalidUserClaim)
  revertIf (role = 2) (.feeVault .holderSnapshotProofRequired)
  requireCreditIdle s (bytes32 "USER_CLAIM")
  let value ← MarketRegistry.market c.registries marketId
  let config := value.config.toMarketConfig
  validateFeeMarket marketId config.memeToken config
  let assets := if config.burnMemeFees then assets ||| 2 else assets
  requireSelectedSolvent v c.balances s.ledger config assets
  let (l, g, q, m) ← consumeUserRewards c calls caller s.ledger g marketId config role epoch assets
  let b ← payQuote v caller l c.balances config.quoteAsset q
  let (l, b, memePaid) ← payMeme v caller l b marketId config role epoch m
  requireSelectedSolvent v b l config assets
  let l := emitClaims l caller marketId config role epoch q memePaid
  return ({ s with ledger := l }, b, g, q, memePaid)

/-! ### The holders -/

/-- `_holderDistributor`. -/
def holderDistributor (config : MarketConfig) : Except Revert Address := do
  revertIf (¬ config.creatorFeesToHolders) (.feeVault .creatorFeesAssignedToHolders)
  return c.holderRewardsDistributor config.memeToken

/-- `_settleHolderMemeBurn`. -/
def settleHolderMemeBurn (l : Ledger) (b : Balances) (marketId : Bytes32) (config : MarketConfig) :
    Except Revert (Ledger × Balances × ℕ) :=
  let token := config.memeToken
  let amount := (l.account marketId token).holderLiability 1
  if ¬ config.burnMemeFees ∨ amount = 0 then .ok (l, b, 0)
  else do
    requireAssetSolvent v.self b l token
    let l ← debitHolderFee l marketId token 1 amount
    let (l, b) ← burnMemeFees v.self b l marketId token 0 2 0 amount
    return (l, b, amount)

/-- The transfer of `fundHolderRewards`: the distributor takes exactly the amount, by its
allowance or with the call. -/
def fundHolderQuote (l : Ledger) (b : Balances) (marketId : Bytes32) (epochId : Epoch)
    (quote distributor : Address) (amount : ℕ) : Except Revert (Ledger × Balances) :=
  if amount = 0 then .ok (l, b)
  else do
    requireAssetSolvent v.self b l quote
    let l ← debitHolderFee l marketId quote epochId amount
    let after ← orRevert (b.move quote v.self distributor amount) .noReason
    revertIf (after quote v.self + amount ≠ b quote v.self)
      (.feeVault (.inexactFeePayment quote distributor amount 0 0))
    requireAssetSolvent v.self after l quote
    return (l, after)

/-- `fundHolderRewards`. -/
def fundHolderRewards (marketId : Bytes32) (epochId : Epoch) :
    Except Revert (State × Balances × ℕ) := do
  requireCreditIdle s (bytes32 "FUND_HOLDER_REWARDS")
  let value ← MarketRegistry.market c.registries marketId
  let config := value.config.toMarketConfig
  let distributor ← holderDistributor c config
  let (l, b, _) ← settleHolderMemeBurn v s.ledger c.balances marketId config
  let amount := (l.account marketId config.quoteAsset).holderLiability epochId
  let (l, b) ← fundHolderQuote v l b marketId epochId config.quoteAsset distributor amount
  if config.burnMemeFees then requireAssetSolvent v.self b l config.memeToken
  return ({ s with ledger := l }, b, amount)

/-- The transfer of `fundHolderMemeRewards`. -/
def fundHolderMeme (l : Ledger) (b : Balances) (marketId : Bytes32) (token distributor : Address)
    (amount : ℕ) : Except Revert (Ledger × Balances) :=
  if amount = 0 then .ok (l, b)
  else do
    requireAssetSolvent v.self b l token
    let l ← debitHolderFee l marketId token 1 amount
    let after ← orRevert (b.move token v.self distributor amount) .noReason
    revertIf (after token v.self + amount ≠ b token v.self) (.feeVault .rewardBalanceMismatch)
    return (l, after)

/-- `fundHolderMemeRewards`. -/
def fundHolderMemeRewards (marketId : Bytes32) : Except Revert (State × Balances × ℕ) := do
  requireCreditIdle s (bytes32 "FUND_HOLDER_MEME")
  let value ← MarketRegistry.market c.registries marketId
  let config := value.config.toMarketConfig
  let distributor ← holderDistributor c config
  let token := config.memeToken
  if config.burnMemeFees then
    let (l, b, amount) ← settleHolderMemeBurn v s.ledger c.balances marketId config
    return ({ s with ledger := l }, b, amount)
  else
    let amount := (s.ledger.account marketId token).holderLiability 1
    let (l, b) ← fundHolderMeme v s.ledger c.balances marketId token distributor amount
    return ({ s with ledger := l }, b, amount)

/-- How the gas of a batch lasts: for an item to be attempted, and for it to end. -/
structure FundingGas where
  enough : Bool
  attempt : Bool

/-- An event is written to the log of the ledger. -/
def State.emit (s : State) (e : Event) : State := { s with ledger := s.ledger.emit e }

/-- `_attemptHolderFunding`: an attempt that fails leaves only its event. -/
def attemptHolderFunding (enough : Bool) (b : Balances) (marketId : Bytes32) (asset : ℕ) :
    State × Balances :=
  let c := c.withBalances b
  match ifGas enough (if asset = 1 then fundHolderRewards v c s marketId 1
    else fundHolderMemeRewards v c s marketId) with
  | .ok (s, b, amount) =>
    (s.emit (.holderFundingResult marketId asset (if amount = 0 then 0 else 1) amount), b)
  | .error _ => (s.emit (.holderFundingResult marketId asset 2 0), b)

/-- The items of a batch: an asset of a market, with the index of the market. -/
def fundingItems (marketIds : List Bytes32) (assets : BitVec 8) : List (ℕ × Bytes32 × ℕ) :=
  marketIds.zipIdx.flatMap fun (marketId, i) =>
    (if hasQuote assets then [(i, marketId, 1)] else [])
      ++ if hasMeme assets then [(i, marketId, 2)] else []

/-- The loop of `fundHolderRewardsBatch`, and where it stops: at an item, or at the end,
which is `length`. -/
def fundItems (gas : ℕ → ℕ → FundingGas) (length : ℕ) :
    List (ℕ × Bytes32 × ℕ) → State → Balances → (State × Balances) × ℕ × ℕ
  | [], s, b => ((s, b), length, 0)
  | (i, marketId, asset) :: items, s, b =>
    if (gas i asset).enough then
      let (s, b) := attemptHolderFunding v c s (gas i asset).attempt b marketId asset
      fundItems gas length items s b
    else ((s.emit (.holderFundingBatchStopped i asset), b), i, asset)

/-- `fundHolderRewardsBatch`. -/
def fundHolderRewardsBatch (gas : ℕ → ℕ → FundingGas) (marketIds : List Bytes32)
    (assets : BitVec 8) (gasPerAsset : ℕ) : Except Revert ((State × Balances) × ℕ × ℕ) := do
  revertIf (marketIds.length = 0 ∨ marketIds.length > 32 ∨ assets = 0 ∨ assets > 3 ∨
      gasPerAsset < 100000 ∨ gasPerAsset > 2000000)
    (.feeVault .invalidHolderFundingBatch)
  requireCreditIdle s (bytes32 "FUND_HOLDER_BATCH")
  return fundItems v c gas marketIds.length (fundingItems marketIds assets) s c.balances

end Exits

/-! ### The machine -/

/-- The vault, the gauges, and what is around them. -/
structure System (G : Type) where
  around : Surroundings
  gauges : G
  vault : State

section Machine

variable {G : Type} (platform : Platform) (bindings : MarketRegistry.Bindings) (v : Immutables)
  (calls : GaugeCalls G)

/-- The vault as its constructor leaves it. -/
def Init (y : System G) : Prop :=
  y.vault.ledger = Ledger.empty ∧ y.vault.feePlatformTreasury ≠ v.self ∧
    (∀ feeId, y.vault.consumedFeeIds feeId = false) ∧
    (∀ id, y.vault.lastCurveSweepNonces id = 0) ∧ (∀ id, y.vault.lastV4FeeNonces id = 0) ∧
    y.vault.session = Session.start

/-- The system after a call that returns the state and the balances. -/
def System.after (y : System G) (s : State) (b : Balances) : System G :=
  { y with vault := s, around := y.around.withBalances b }

/-- **One step**: a successful call by an account other than the vault, the end of a
transaction, or a step of the rest of the world. The rest of the world cannot take what
the vault holds, and the treasury is never the vault itself. -/
inductive Step : System G → Unit → System G → Prop
  | beginV4Credit {y : System G} {s : State} (caller : Address) (marketId : Bytes32)
      (feeAsset : Address) (amount sourceVersion : ℕ) (feeId : Bytes32)
      (h : beginV4Credit v y.around.toWorld caller y.vault marketId feeAsset amount sourceVersion
        feeId = .ok s) :
      Step y () { y with vault := s }
  | finalizeV4Credit {y : System G} {s : State} {g : G} (gas : StakerGas) (caller : Address)
      (marketId : Bytes32) (feeAsset : Address) (base totalFee lpAmount nonLpAmount feeNonce : ℕ)
      (feeId : Bytes32)
      (h : finalizeV4Credit calls platform v y.around gas caller y.vault y.gauges marketId feeAsset
        base totalFee lpAmount nonLpAmount feeNonce feeId = .ok (s, g)) :
      Step y () { y with vault := s, gauges := g }
  | beginCurveCredit {y : System G} {s : State} (caller : Address) (credit : Curve.CurveCredit)
      (h : beginCurveCredit platform v y.around caller y.vault credit = .ok s) :
      Step y () { y with vault := s }
  | finalizeCurveCredit {y : System G} {s : State} (caller : Address) (value : ℕ)
      (credit : Curve.CurveCredit)
      (h : finalizeCurveCredit platform v y.around caller y.vault value credit = .ok s) :
      Step y () { y with vault := s }
  | coverAssetDeficit {y : System G} {s : State} {b : Balances} (caller : Address) (value : ℕ)
      (asset : Address) (amount : ℕ) (hcaller : caller ≠ v.self)
      (h : coverAssetDeficit v y.around y.vault caller value asset amount = .ok (s, b)) :
      Step y () (y.after s b)
  | claimPlatform {y : System G} {s : State} {b : Balances} (marketId : Bytes32)
      (feeAsset : Address)
      (h : claimPlatform v y.around y.vault marketId feeAsset = .ok (s, b)) :
      Step y () (y.after s b)
  | recordForfeiture {y : System G} {s : State} (caller : Address) (marketId : Bytes32)
      (user : Address) (quoteAmount memeAmount : ℕ)
      (h : recordForfeiture v y.around y.vault caller marketId user quoteAmount memeAmount
        = .ok s) :
      Step y () { y with vault := s }
  | claimUserRewards {y : System G} {s : State} {b : Balances} {g : G} {q m : ℕ} (caller : Address)
      (marketId : Bytes32) (role : ℕ) (epoch : Epoch) (assets : BitVec 8) (hcaller : caller ≠ v.self)
      (h : claimUserRewards v y.around y.vault calls caller y.gauges marketId role epoch assets
        = .ok (s, b, g, q, m)) :
      Step y () { y.after s b with gauges := g }
  | fundHolderRewards {y : System G} {s : State} {b : Balances} {amount : ℕ} (marketId : Bytes32)
      (epochId : Epoch)
      (h : fundHolderRewards v y.around y.vault marketId epochId = .ok (s, b, amount)) :
      Step y () (y.after s b)
  | fundHolderMemeRewards {y : System G} {s : State} {b : Balances} {amount : ℕ}
      (marketId : Bytes32)
      (h : fundHolderMemeRewards v y.around y.vault marketId = .ok (s, b, amount)) :
      Step y () (y.after s b)
  | fundHolderRewardsBatch {y : System G} {s : State} {b : Balances} {stop : ℕ × ℕ}
      (gas : ℕ → ℕ → FundingGas) (marketIds : List Bytes32) (assets : BitVec 8) (gasPerAsset : ℕ)
      (h : fundHolderRewardsBatch v y.around y.vault gas marketIds assets gasPerAsset
        = .ok ((s, b), stop)) :
      Step y () (y.after s b)
  | treasury (y : System G) (treasury : Address) (h : treasury ≠ v.self) :
      Step y () { y with vault := { y.vault with feePlatformTreasury := treasury } }
  | endTransaction (y : System G) :
      Step y () { y with vault := { y.vault with session := Session.start } }
  | environment {y : System G} (c : Surroundings) (g : G)
      (h : World.Evolves platform bindings (· = v.self) y.around.toWorld c.toWorld) :
      Step y () { y with around := c, gauges := g }

/-- The states of a deployed vault. -/
abbrev Reachable (y : System G) : Prop :=
  Transition.Reachable (Step platform bindings v calls) (Init v) y

end Machine

end ProtocolFeeVault

end TickerGarden
