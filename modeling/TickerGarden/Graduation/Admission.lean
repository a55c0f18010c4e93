import TickerGarden.Curve.Collateral
import TickerGarden.Registry.Frozen

/-!
# From admission to graduation

The economics of a market is looked at four times. The factory *admits* it,
`TickerGarden.EconomicDomain.validate`, on synthetic currencies; the curve checks its
own plan when the inventory runs out, `validateActualGraduationPlan`; the executor
recomputes the amounts from the registries, `graduationAssetPlan`; and the pool is
derived from those amounts, `PoolMath.derive`. Between the first and the others lies
the whole life of the market, in which the registries go on changing.

`TickerGarden.Graduation.admission_implies_graduation` says that the four agree. What
carries it is that all of them read the same frozen numbers: the entries of the
registries are append-only (`TickerGarden.Registries.Frozen`), the curve holds at least
the canonical quote (`TickerGarden.Curve.requireCollateral_of_trade`), and a derivation
depends on its key by the tick spacing and the order of the currencies only.
-/

namespace TickerGarden

open Checked

/-! ### What the factory makes of a request -/

namespace Factory

/-- `CreateMarketParams`, without the texts of the token. -/
structure CreateMarketParams where
  assetUid : Bytes32
  tickerGardenBaselineId : Bytes32
  quoteAssetConfigId : Bytes32
  launchTemplateId : Bytes32
  expectedEconomics : Bytes32
  creatorRevenueBeneficiary : Address
  creatorTaxBps : ℕ
  creatorFeesToHolders : Bool
  stakingEnabled : Bool
  burnMemeFees : Bool
  lpFeePips : ℕ

/-- The entries of the registries a market is made from. -/
structure Snapshot where
  quote : QuoteAssetConfig
  baseline : TickerGardenBaseline
  template : LaunchTemplate

/-- The entries `resolve` looks up. -/
def snapshot (r : Registries) (params : CreateMarketParams) : Snapshot where
  quote := r.quoteConfig params.quoteAssetConfigId
  baseline := r.baseline params.tickerGardenBaselineId
  template := r.launchTemplate params.launchTemplateId

/-- The accounts of the components of one market, and its identifier. -/
structure Components where
  marketId : Bytes32
  creator : Address
  memeToken : Address
  curve : Address
  gauge : Address

/-- The immutable fields of the factory. -/
structure Bindings where
  protocolFeeVault : Address
  launchRouter : Address
  feePolicyId : Bytes32
  /-- `EXECUTION_SPEC_ID`. -/
  executionSpecId : Bytes32

variable (factory : Bindings) (c : Components) (params : CreateMarketParams) (entries : Snapshot)

/-- `_prepareCurveInitialization`: what the curve is constructed with, at the timestamp of
the creation. -/
def curveInitialization (launchTimestamp : ℕ) : Curve.Immutables where
  self := c.curve
  marketId := c.marketId
  tickerGardenBaselineId := params.tickerGardenBaselineId
  quoteAssetConfigId := params.quoteAssetConfigId
  protocolFeeVault := factory.protocolFeeVault
  graduationExecutor := entries.template.graduationExecutor
  launchRouter := factory.launchRouter
  creator := c.creator
  beneficiaryAtCreation := params.creatorRevenueBeneficiary
  memeToken := c.memeToken
  quoteAsset := entries.quote.quoteAsset
  phantomQuote := entries.quote.phantomQuote
  graduationThreshold := entries.quote.graduationThreshold
  initialSupply := entries.baseline.supply
  curveFeeBps := entries.baseline.curveFeeBps
  creatorTaxBps := params.creatorTaxBps
  launchTimestamp

/-- The configuration `_registerAndFinalize` registers. The expected economics has been
compared with the computed one. -/
def marketConfig : MarketConfig where
  assetUid := params.assetUid
  tickerGardenBaselineId := params.tickerGardenBaselineId
  quoteAssetConfigId := params.quoteAssetConfigId
  launchTemplateId := params.launchTemplateId
  feePolicyId := factory.feePolicyId
  executionSpecId := factory.executionSpecId
  expectedEconomics := params.expectedEconomics
  launchConfigId := entries.baseline.launchConfigId
  creatorRevenueBeneficiaryAtCreation := params.creatorRevenueBeneficiary
  memeToken := c.memeToken
  curve := c.curve
  gauge := c.gauge
  quoteAsset := entries.quote.quoteAsset
  graduatedHook := entries.template.graduatedHook
  creatorTaxBps := params.creatorTaxBps
  creatorFeesToHolders := params.creatorFeesToHolders
  stakingEnabled := params.stakingEnabled
  burnMemeFees := params.burnMemeFees
  lpFeePips := params.lpFeePips

end Factory

namespace Graduation

open SupplyMath PoolMath EconomicDomain MarketRegistry

/-! ### The executor -/

/-- `GraduationAssetPlan`: what was swept, what enters the pool, and what is locked. -/
structure GraduationAssetPlan where
  quoteAsset : Address
  memeToken : Address
  sweptQuote : ℕ
  sweptTokens : ℕ
  poolQuoteAmount : ℕ
  poolMemeAmount : ℕ
  lockedExcessQuote : ℕ
  lockedExcessMeme : ℕ

/-- `_graduationAssetPlan`: recompute the amounts from the registries, for the quote and
the tokens that were handed over. -/
def graduationAssetPlan (hasCode : Address → Bool) (r : Registries) (marketId : Bytes32)
    (view : MarketView) (quoteAmount memeAmount : ℕ) : Except Revert GraduationAssetPlan := do
  let mismatch := Revert.graduationExecutor (.graduationMarketAssetMismatch marketId)
  let config := view.config
  let quote := r.quoteConfig config.quoteAssetConfigId
  let baseline := r.baseline config.tickerGardenBaselineId
  revertIf (quoteAmount = 0 ∨ memeAmount = 0 ∨ ¬ hasCode config.memeToken ∨
      config.memeToken = config.quoteAsset ∨ quote.quoteAsset ≠ config.quoteAsset ∨
      quote.tickerGardenBaselineId ≠ config.tickerGardenBaselineId ∨
      quote.economicsHash ≠ config.quoteAssetConfigId ∨ quote.phantomQuote = 0 ∨
      baseline.supply = 0) mismatch
  let (reservedTokens, _) ←
    supplyPartition baseline.supply quote.phantomQuote quote.graduationThreshold
  let poolQuoteAmount ←
    canonicalGraduationQuote baseline.supply quote.phantomQuote quote.graduationThreshold
  revertIf (memeAmount ≠ reservedTokens ∨ quoteAmount < poolQuoteAmount) mismatch
  let lockedExcessQuote ← usub quoteAmount poolQuoteAmount
  let (poolMemeAmount, lockedExcessMeme) ←
    graduationPartition memeAmount poolQuoteAmount quote.phantomQuote
  return { quoteAsset := config.quoteAsset, memeToken := config.memeToken,
           sweptQuote := quoteAmount, sweptTokens := memeAmount, poolQuoteAmount, poolMemeAmount,
           lockedExcessQuote, lockedExcessMeme }

/-- The minted amounts of a plan, quote first. -/
def mintAmounts (key : PoolKey) (plan : PoolPlan) (quoteAsset : Address) : ℕ × ℕ :=
  if key.currency0 = quoteAsset then (plan.mintAmount0, plan.mintAmount1)
  else (plan.mintAmount1, plan.mintAmount0)

/-- `_routeDust`: what is left of each currency after the mint goes to the locker; at
least the locked excess must be left. -/
def routeDust (key : PoolKey) (plan : PoolPlan) (assets : GraduationAssetPlan) :
    Except Revert (ℕ × ℕ) := do
  let (quoteMint, memeMint) := mintAmounts key plan assets.quoteAsset
  let quoteDust ← usub assets.sweptQuote quoteMint
  let memeRemainder ← usub assets.sweptTokens memeMint
  revertIf (quoteDust < assets.lockedExcessQuote ∨ memeRemainder < assets.lockedExcessMeme)
    (.graduationExecutor (.invalidGraduationDust quoteDust memeRemainder assets.lockedExcessQuote
      assets.lockedExcessMeme))
  return (quoteDust, memeRemainder)

/-! ### The four computations agree -/

section Agreement

variable {platform : Platform} {baseline : TickerGardenBaseline} {quote : QuoteAssetConfig}
  {reserved poolQuote poolMeme locked : ℕ} {quoteFirst memeFirst : PoolPlan}

/-- The plan admission derived, as it applies to two currencies. -/
def admittedPlan (quoteFirst memeFirst : PoolPlan) (quoteAsset memeToken : Address)
    (poolId : Bytes32) : PoolPlan :=
  { if quoteAsset < memeToken then quoteFirst else memeFirst with poolId }

/-- The amounts admission derived, as they apply to two currencies and what was swept. -/
def admittedAssets (poolQuote poolMeme locked : ℕ) (quoteAsset memeToken : Address)
    (sweptQuote sweptTokens : ℕ) : GraduationAssetPlan where
  quoteAsset := quoteAsset
  memeToken := memeToken
  sweptQuote := sweptQuote
  sweptTokens := sweptTokens
  poolQuoteAmount := poolQuote
  poolMemeAmount := poolMeme
  lockedExcessQuote := sweptQuote - poolQuote
  lockedExcessMeme := locked

/-- **A valid key has the admitted plan**, for either order of the currencies. -/
theorem derive_of_admitted {key : PoolKey} {quoteAsset memeToken : Address}
    (h : Admitted platform baseline quote reserved poolQuote poolMeme locked quoteFirst memeFirst)
    (hkey : ValidKey key quoteAsset memeToken) (hspacing : key.tickSpacing = baseline.tickSpacing) :
    derive platform key quoteAsset memeToken poolQuote poolMeme
      = .ok (admittedPlan quoteFirst memeFirst quoteAsset memeToken
          (platform.keccak256 (.poolKey key))) := by
  refine derive_eq_ok.mpr ⟨hkey, ?_⟩
  rw [hspacing]
  by_cases hlt : quoteAsset < memeToken
  · have hplan := (derive_eq_ok.mp h.quoteFirst_eq).2
    rw [if_pos (by decide), if_pos (by decide)] at hplan
    rw [if_pos hlt, if_pos hlt, admittedPlan, if_pos hlt]
    exact deriveAmounts_poolId hplan
  · have hplan := (derive_eq_ok.mp h.memeFirst_eq).2
    rw [if_neg (by decide), if_neg (by decide)] at hplan
    rw [if_neg hlt, if_neg hlt, admittedPlan, if_neg hlt]
    exact deriveAmounts_poolId hplan

/-- **The minted amounts are within the amounts of the pool.** -/
theorem mintAmounts_le {key : PoolKey} {plan : PoolPlan} {quoteAsset memeToken : Address}
    {quoteAmount memeAmount : ℕ}
    (h : derive platform key quoteAsset memeToken quoteAmount memeAmount = .ok plan) :
    (mintAmounts key plan quoteAsset).1 ≤ quoteAmount ∧
      (mintAmounts key plan quoteAsset).2 ≤ memeAmount ∧
      plan.mintAmount0 ≤ plan.amount0 ∧ plan.mintAmount1 ≤ plan.amount1 := by
  obtain ⟨⟨-, hne, h0, -⟩, hplan⟩ := derive_eq_ok.mp h
  have hsound := deriveAmounts_sound hplan
  have hmint0 := hsound.mintAmount0_le
  have hmint1 := hsound.mintAmount1_le
  rw [hsound.amount0_eq, hsound.amount1_eq]
  refine ⟨?_, ?_, hmint0, hmint1⟩ <;> unfold mintAmounts
  all_goals
    by_cases hlt : quoteAsset < memeToken
    · rw [if_pos hlt] at h0 hmint0 hmint1
      rw [if_pos h0]
      assumption
    · rw [if_neg hlt] at h0 hmint0 hmint1
      rw [if_neg fun heq => hne (heq.symm.trans h0)]
      assumption

/-- Admission does not look at the status of the two entries. -/
theorem admitted_of_frozen {r r' : Registries} {baselineId configId : Bytes32}
    (hfrozen : Registries.Frozen r r') (hb : (r.baseline baselineId).status ≠ 0)
    (hq : (r.quoteConfig configId).status ≠ 0)
    (h : Admitted platform (r.baseline baselineId) (r.quoteConfig configId) reserved poolQuote
      poolMeme locked quoteFirst memeFirst) :
    Admitted platform (r'.baseline baselineId) (r'.quoteConfig configId) reserved poolQuote
      poolMeme locked quoteFirst memeFirst := by
  rw [(hfrozen.baseline _ hb).2, (hfrozen.quoteConfig _ hq).2]
  exact ⟨h.supply_le, h.phantomQuote_le, h.graduationThreshold_le, h.poolQuote_le, h.partition_eq,
    h.poolQuote_eq, h.poolMeme_eq, h.tickSpacing_pos, h.tickSpacing_le, h.quoteFirst_eq,
    h.memeFirst_eq⟩

/-- **The executor recomputes the admitted amounts**, from a market that is consistent
with the registries. -/
theorem graduationAssetPlan_of_admitted {hasCode : Address → Bool} {r : Registries}
    {view : MarketView} {sweptQuote : ℕ} (marketId : Bytes32)
    (hc : ConsistentMarket r view.config.toMarketConfig)
    (h : Admitted platform (r.baseline view.config.tickerGardenBaselineId)
      (r.quoteConfig view.config.quoteAssetConfigId) reserved poolQuote poolMeme locked quoteFirst
      memeFirst)
    (hcode : hasCode view.config.memeToken = true) (hle : poolQuote ≤ sweptQuote) :
    graduationAssetPlan hasCode r marketId view sweptQuote reserved
      = .ok (admittedAssets poolQuote poolMeme locked view.config.quoteAsset view.config.memeToken
          sweptQuote reserved) := by
  obtain ⟨sellable, hpart⟩ := h.partition_eq
  have hfacts := partition_of_supplyPartition hpart
  have hpool := (graduationPartition_eq_ok.mp h.poolMeme_eq).1
  have hdistinct := view.config.quoteAsset_ne_memeToken
  have hguard : ¬(sweptQuote = 0 ∨ reserved = 0 ∨ ¬ hasCode view.config.memeToken ∨
      view.config.memeToken = view.config.quoteAsset ∨
      (r.quoteConfig view.config.quoteAssetConfigId).quoteAsset ≠ view.config.quoteAsset ∨
      (r.quoteConfig view.config.quoteAssetConfigId).tickerGardenBaselineId
        ≠ view.config.tickerGardenBaselineId ∨
      (r.quoteConfig view.config.quoteAssetConfigId).economicsHash
        ≠ view.config.quoteAssetConfigId ∨
      (r.quoteConfig view.config.quoteAssetConfigId).phantomQuote = 0 ∨
      (r.baseline view.config.tickerGardenBaselineId).supply = 0) := by
    rintro (h0 | h0 | h0 | h0 | h0 | h0 | h0 | h0 | h0)
    · omega
    · omega
    · exact h0 hcode
    · exact hdistinct h0.symm
    · exact h0 hc.quote_asset
    · exact h0 hc.quote_baseline
    · exact h0 hc.quote_hash
    · exact hfacts.phantomQuote_pos.ne' h0
    · exact hfacts.supply_pos.ne' h0
  simp only [graduationAssetPlan, revertIf_neg hguard, hpart, h.poolQuote_eq, h.poolMeme_eq,
    ok_bind, bind_eq_ok, revertIf_eq_ok, usub_eq_ok, pure_eq_ok, Except.ok.injEq]
  exact ⟨(), by omega, _, ⟨hle, rfl⟩, rfl⟩

/-- **The dust covers the locked excess**, and what is minted and what is left make up
what was swept. -/
theorem routeDust_of_plan {key : PoolKey} {plan : PoolPlan} (assets : GraduationAssetPlan)
    (hplan : derive platform key assets.quoteAsset assets.memeToken assets.poolQuoteAmount
      assets.poolMemeAmount = .ok plan)
    (hquote : assets.poolQuoteAmount + assets.lockedExcessQuote = assets.sweptQuote)
    (hmeme : assets.poolMemeAmount + assets.lockedExcessMeme = assets.sweptTokens) :
    ∃ quoteDust memeRemainder, routeDust key plan assets = .ok (quoteDust, memeRemainder) ∧
      (mintAmounts key plan assets.quoteAsset).1 + quoteDust = assets.sweptQuote ∧
      (mintAmounts key plan assets.quoteAsset).2 + memeRemainder = assets.sweptTokens ∧
      assets.lockedExcessMeme ≤ memeRemainder := by
  obtain ⟨hmintQuote, hmintMeme, -, -⟩ := mintAmounts_le hplan
  refine ⟨assets.sweptQuote - (mintAmounts key plan assets.quoteAsset).1,
    assets.sweptTokens - (mintAmounts key plan assets.quoteAsset).2, ?_, by omega, by omega,
    by omega⟩
  simp only [routeDust, bind_eq_ok, usub_eq_ok, revertIf_eq_ok, pure_eq_ok, Except.ok.injEq]
  exact ⟨_, ⟨by omega, rfl⟩, _, ⟨by omega, rfl⟩, (), by omega, rfl⟩

end Agreement

/-! ### Every admitted market graduates -/

section Theorem

variable {W : Type} {platform : Platform} {calls : Curve.Externals W}
  {bindings : MarketRegistry.Bindings} {factory : Factory.Bindings} {c : Factory.Components}
  {params : Factory.CreateMarketParams} {reg : W → Registries} {r₀ r₁ : Registries}
  {launchTimestamp : ℕ}

/-- The registries the curve calls are a component of its surroundings. -/
structure ReadsRegistries (calls : Curve.Externals W) (reg : W → Registries) : Prop where
  market : ∀ w id, calls.market w id = MarketRegistry.market (reg w) id
  canonicalPoolKey : ∀ w id, calls.canonicalPoolKey w id = MarketRegistry.canonicalPoolKey (reg w) id

/-- **A launch**: the economics is admitted, and the market registered. -/
structure Launch (platform : Platform) (bindings : MarketRegistry.Bindings)
    (factory : Factory.Bindings) (c : Factory.Components) (params : Factory.CreateMarketParams)
    (r₀ r₁ : Registries) : Prop where
  admitted : validate platform (Factory.snapshot r₀ params).baseline
    (Factory.snapshot r₀ params).quote = .ok ()
  registered : ∃ caller, registerMarket bindings caller r₀ c.marketId
    (Factory.marketConfig factory c params (Factory.snapshot r₀ params)) = .ok r₁

/-- **A launched market stays on record**, however the registries go on: with its
configuration, and consistent with entries whose contents are those it was launched
from. -/
theorem market_of_launch {r : Registries} {es : List Unit}
    (hlaunch : Launch platform bindings factory c params r₀ r₁)
    (hrun : Transition.Run (Registries.Step platform bindings) r₁ es r) :
    ∃ view : MarketView, r.markets c.marketId = some view ∧
      view.config.toMarketConfig
        = Factory.marketConfig factory c params (Factory.snapshot r₀ params) ∧
      Registries.Frozen r₀ r ∧ ConsistentMarket r₀ view.config.toMarketConfig := by
  obtain ⟨caller, hreg⟩ := hlaunch.registered
  have hfirst : Registries.Step platform bindings r₀ () r₁ :=
    .market (.registerMarket caller _ _ hreg)
  have hlater := Registries.frozen_of_run hrun
  obtain ⟨-, hcons, view, hconfig, -, rfl⟩ := registerMarket_eq_ok hreg
  obtain ⟨runtime, hmarket⟩ := hlater.markets c.marketId view (Function.update_self ..)
  refine ⟨⟨view.config, runtime⟩, hmarket, hconfig,
    (Registries.frozen_of_step hfirst).trans hlater, ?_⟩
  rw [hconfig]
  exact hcons

/-- What the curve hands over once it is sold out: the reserved tokens, and at least the
canonical quote. -/
theorem swept_of_trade {imm : Curve.Immutables} {s traded swept : Curve.System W}
    {call : Curve.Call} {quoteIn minTokensOut : ℕ} {recipient : Address}
    {bought more : List Curve.Event} {view : MarketView} {reserved sellable poolQuote : ℕ}
    (hs : Curve.Reachable platform calls imm s)
    (htrade : Curve.buyTrade calls imm call s quoteIn minTokensOut recipient = .ok (traded, bought))
    (hdone : traded.curve.completed = true)
    (hsweep : Curve.sweepFees platform calls imm view traded = .ok (swept, more))
    (hpart : supplyPartition imm.initialSupply imm.phantomQuote imm.graduationThreshold
      = .ok (reserved, sellable))
    (hquote : canonicalGraduationQuote imm.initialSupply imm.phantomQuote imm.graduationThreshold
      = .ok poolQuote) :
    swept.curve.reserves.trackedTokens = reserved ∧
      poolQuote ≤ swept.curve.reserves.trackedQuote ∧
      Curve.requireCollateral imm swept.curve swept.curve.reserves.trackedQuote
        swept.curve.reserves.trackedTokens = .ok poolQuote := by
  have hcollateral := Curve.collateralised_of_reachable hs
  obtain ⟨q, hq, -, hcheck⟩ := Curve.requireCollateral_of_trade hcollateral htrade hdone hsweep
  obtain rfl : q = poolQuote := Except.ok.inj (hq.symm.trans hquote)
  obtain ⟨htraded, -⟩ := Curve.buyTrade_collateral hcollateral htrade
  obtain ⟨n, hn⟩ := (Curve.sweepFees_collateral htraded hsweep).1.partition_eq
  have hreserved : swept.curve.reserves.reservedTokens = reserved :=
    (Prod.mk.inj (Except.ok.inj (hn.symm.trans hpart))).1
  have hguard := hcheck
  simp only [Curve.requireCollateral, bind_eq_ok, revertIf_eq_ok, not_or, not_not, not_lt,
    pure_eq_ok, Except.ok.injEq] at hguard
  obtain ⟨_, -, -, ⟨htokens, hle⟩, rfl⟩ := hguard
  exact ⟨htokens.trans hreserved, hle, hcheck⟩

/-- The curve's own check succeeds with the plan of its canonical key. -/
theorem validateActualGraduationPlan_of_derive {imm : Curve.Immutables} {rest : W}
    {st : Curve.State} {quoteAmount tokens poolQuote poolMeme locked : ℕ} {key : PoolKey}
    {plan : PoolPlan}
    (hcheck : Curve.requireCollateral imm st quoteAmount tokens = .ok poolQuote)
    (hmeme : graduationPartition tokens poolQuote imm.phantomQuote = .ok (poolMeme, locked))
    (hkey : calls.canonicalPoolKey rest imm.marketId = .ok key)
    (hplan : derive platform key imm.quoteAsset imm.memeToken poolQuote poolMeme = .ok plan) :
    Curve.validateActualGraduationPlan platform calls imm rest st quoteAmount tokens
      = .ok plan := by
  simp only [Curve.validateActualGraduationPlan, bind_eq_ok, Prod.exists]
  exact ⟨poolQuote, hcheck, poolMeme, locked, hmeme, key, hkey, hplan⟩

/-- **The plans of a completed market agree.** At the state after the fees are swept: the
curve's check, the executor's asset plan and the derivation of the pool succeed, on the
admitted amounts and with the admitted plan; the minted amounts are within the amounts
of the pool; and what is minted and what goes to the locker make up what was swept. -/
structure PlansAgree (platform : Platform) (calls : Curve.Externals W) (imm : Curve.Immutables)
    (hasCode : Address → Bool) (r : Registries) (swept : Curve.System W)
    (poolQuote poolMeme locked : ℕ) (quoteFirst memeFirst : PoolPlan) (view : MarketView)
    (key : PoolKey) (plan : PoolPlan) (assets : GraduationAssetPlan)
    (quoteDust memeRemainder : ℕ) : Prop where
  market_eq : MarketRegistry.market r imm.marketId = .ok view
  key_eq : canonicalPoolKey r imm.marketId = .ok key
  curve : Curve.validateActualGraduationPlan platform calls imm swept.rest swept.curve
    swept.curve.reserves.trackedQuote swept.curve.reserves.trackedTokens = .ok plan
  executor : graduationAssetPlan hasCode r imm.marketId view swept.curve.reserves.trackedQuote
    swept.curve.reserves.trackedTokens = .ok assets
  poolQuote_eq : assets.poolQuoteAmount = poolQuote
  poolMeme_eq : assets.poolMemeAmount = poolMeme
  locked_eq : assets.lockedExcessMeme = locked
  derived : derive platform key assets.quoteAsset assets.memeToken assets.poolQuoteAmount
    assets.poolMemeAmount = .ok plan
  admitted : plan = admittedPlan quoteFirst memeFirst imm.quoteAsset imm.memeToken
    (platform.keccak256 (.poolKey key))
  mintAmount0_le : plan.mintAmount0 ≤ plan.amount0
  mintAmount1_le : plan.mintAmount1 ≤ plan.amount1
  dust : routeDust key plan assets = .ok (quoteDust, memeRemainder)
  quote_sum : (mintAmounts key plan imm.quoteAsset).1 + quoteDust
    = swept.curve.reserves.trackedQuote
  meme_sum : (mintAmounts key plan imm.quoteAsset).2 + memeRemainder
    = swept.curve.reserves.trackedTokens
  locked_le : locked ≤ memeRemainder

/-- **Admission implies graduation.** Take a market launched from an admitted economics, a
reachable state of its curve, and a buy that exhausts the inventory; let `swept` be the
state after the fees are swept, at which the registries may have gone on in any way.
Then its plans agree with each other and with the plan admission derived for the order
of its two currencies. -/
theorem admission_implies_graduation {imm : Curve.Immutables} {hasCode : Address → Bool}
    {s traded swept : Curve.System W} {call : Curve.Call} {quoteIn minTokensOut : ℕ}
    {recipient : Address} {bought more : List Curve.Event} {curveView : MarketView}
    {es : List Unit}
    (hlaunch : Launch platform bindings factory c params r₀ r₁)
    (himm : imm
      = Factory.curveInitialization factory c params (Factory.snapshot r₀ params) launchTimestamp)
    (hcalls : ReadsRegistries calls reg)
    (hs : Curve.Reachable platform calls imm s)
    (htrade : Curve.buyTrade calls imm call s quoteIn minTokensOut recipient = .ok (traded, bought))
    (hdone : traded.curve.completed = true)
    (hsweep : Curve.sweepFees platform calls imm curveView traded = .ok (swept, more))
    (hrun : Transition.Run (Registries.Step platform bindings) r₁ es (reg swept.rest))
    (hcode : hasCode imm.memeToken = true) :
    ∃ reserved poolQuote poolMeme locked quoteFirst memeFirst,
      Admitted platform (Factory.snapshot r₀ params).baseline (Factory.snapshot r₀ params).quote
        reserved poolQuote poolMeme locked quoteFirst memeFirst ∧
      ∃ view key plan assets quoteDust memeRemainder,
        PlansAgree platform calls imm hasCode (reg swept.rest) swept poolQuote poolMeme locked
          quoteFirst memeFirst view key plan assets quoteDust memeRemainder := by
  obtain ⟨reserved, poolQuote, poolMeme, locked, quoteFirst, memeFirst, hadmit⟩ :=
    admitted_of_validate hlaunch.admitted
  refine ⟨reserved, poolQuote, poolMeme, locked, quoteFirst, memeFirst, hadmit, ?_⟩
  -- the market as the registries have it by now
  obtain ⟨view, hview, hconfig, hfrozen, hcons⟩ := market_of_launch hlaunch hrun
  have hnow := Registries.consistentMarket_of_frozen hfrozen hcons
  have hquoteAsset : view.config.quoteAsset = imm.quoteAsset := by rw [hconfig, himm]; rfl
  have hmemeToken : view.config.memeToken = imm.memeToken := by rw [hconfig, himm]; rfl
  have hmarketId : imm.marketId = c.marketId := by rw [himm]; rfl
  obtain ⟨key, hkey⟩ := canonicalPoolKey_of_consistent hview hnow
  rw [← hmarketId] at hview hkey
  -- the plan of its key
  obtain ⟨hvalid, hspacing, -⟩ := validKey_of_canonicalPoolKey hkey hview
  have hadmitNow : Admitted platform
      ((reg swept.rest).baseline view.config.tickerGardenBaselineId)
      ((reg swept.rest).quoteConfig view.config.quoteAssetConfigId) reserved poolQuote poolMeme
      locked quoteFirst memeFirst := by
    refine admitted_of_frozen hfrozen hcons.baseline_set hcons.quote_set ?_
    rw [hconfig]
    exact hadmit
  have hplan := derive_of_admitted hadmitNow hvalid hspacing
  -- what the curve has swept
  obtain ⟨sellable, hpart⟩ := hadmit.partition_eq
  obtain ⟨htokens, hle, hcheck⟩ := swept_of_trade hs htrade hdone hsweep
    (by rw [himm]; exact hpart) (by rw [himm]; exact hadmit.poolQuote_eq)
  have hassets := graduationAssetPlan_of_admitted imm.marketId hnow hadmitNow
    (by rw [hmemeToken]; exact hcode) hle
  rw [← htokens] at hassets
  rw [hquoteAsset, hmemeToken] at hplan hassets
  have hcurve := validateActualGraduationPlan_of_derive (W := W) hcheck
    (by rw [htokens, himm]; exact hadmit.poolMeme_eq)
    (by rw [hcalls.canonicalPoolKey]; exact hkey) hplan
  obtain ⟨-, -, hmint0, hmint1⟩ := mintAmounts_le hplan
  obtain ⟨-, -, -, -, hpool, hlocked⟩ := graduationPartition_eq_ok.mp hadmit.poolMeme_eq
  obtain ⟨quoteDust, memeRemainder, hdust, hquoteSum, hmemeSum, hcovers⟩ :=
    routeDust_of_plan (admittedAssets poolQuote poolMeme locked imm.quoteAsset imm.memeToken
      swept.curve.reserves.trackedQuote swept.curve.reserves.trackedTokens) hplan
      (by simp only [admittedAssets]; omega) (by simp only [admittedAssets]; omega)
  exact ⟨view, key, _, _, quoteDust, memeRemainder,
    { market_eq := by rw [MarketRegistry.market, hview]; rfl
      key_eq := hkey
      curve := hcurve
      executor := hassets
      poolQuote_eq := rfl
      poolMeme_eq := rfl
      locked_eq := rfl
      derived := hplan
      admitted := rfl
      mintAmount0_le := hmint0
      mintAmount1_le := hmint1
      dust := hdust
      quote_sum := hquoteSum
      meme_sum := hmemeSum
      locked_le := hcovers }⟩

end Theorem

/-! ### The small market

The market of the sample curve, launched from registries that hold its baseline and its
quote configuration. -/

namespace Sample

/-- The identifiers of the sample curve. -/
def params : Factory.CreateMarketParams where
  assetUid := 0
  tickerGardenBaselineId := 2
  quoteAssetConfigId := 3
  launchTemplateId := 4
  expectedEconomics := 7
  creatorRevenueBeneficiary := 12
  creatorTaxBps := 0
  creatorFeesToHolders := false
  stakingEnabled := false
  burnMemeFees := false
  lpFeePips := 0

/-- Its components. -/
def components : Factory.Components where
  marketId := 1
  creator := 11
  memeToken := 5
  curve := 7
  gauge := 0

/-- The factory. -/
def factory : Factory.Bindings where
  protocolFeeVault := 8
  launchRouter := 10
  feePolicyId := 5
  executionSpecId := 6

/-- The market registry. -/
def bindings : MarketRegistry.Bindings where
  factory := 20
  graduationExecutor := 9
  executionSpecId := 6

/-- The registries before the launch. -/
def before : Registries where
  asset := fun _ => { stockToken := 0, userStockVault := 0, tokenDecimals := 0, status := 0 }
  assetIdentityCurrent := fun _ => false
  minimumAllocation := fun _ => 0
  assetUidByStockToken := fun _ => 0
  assetPausedAt := fun _ => 0
  quoteConfig := fun id => {
    tickerGardenBaselineId := 2, quoteAsset := 0, quoteDecimals := 18, phantomQuote := 100,
    graduationThreshold := 100, economicsHash := id, status := configStatusActive }
  quoteIdentityCurrent := fun _ => true
  quotePausedAt := fun _ => 0
  baseline := fun _ => {
    referenceChainId := 1, referenceFactory := 1, referenceFactoryCodeHash := 1,
    launchConfigId := 0, supply := 400, curveFeeBps := 100, poolFee := 0, tickSpacing := 1,
    behaviorVectorRoot := 1, status := configStatusActive }
  baselinePausedAt := fun _ => 0
  launchTemplate := fun _ => {
    graduatedHook := 0x2044, graduationExecutor := 9, feePolicyId := 5, executionSpecId := 6,
    status := configStatusActive }
  markets := fun _ => none
  marketIdsByToken := fun _ => 0

/-- The registration. -/
def registration : Except Revert Registries :=
  registerMarket bindings 20 before 1
    (Factory.marketConfig factory components params (Factory.snapshot before params))

theorem registration_isOk : registration.isOk = true := by decide +kernel

/-- The registries after the launch. -/
def launched : Registries := value registration registration_isOk

theorem launch :
    Launch DocumentedV4.platform bindings factory components params before launched :=
  ⟨by decide +kernel, 20, eq_ok_value registration_isOk⟩

/-- The contracts around the curve: the registries, and a fee vault that takes anything. -/
def calls : Curve.Externals Unit where
  market := fun _ id => MarketRegistry.market launched id
  canonicalPoolKey := fun _ id => MarketRegistry.canonicalPoolKey launched id
  beginCurveCredit := fun _ _ _ _ => .ok ()
  finalizeCurveCredit := fun _ _ _ _ _ => .ok ()
  graduateFromCurve := fun _ _ _ _ _ _ _ => .ok ((), [])

/-- The deployed curve. -/
def start : Curve.System Unit :=
  { rest := (), balances := Curve.Sample.start.balances, curve := Curve.Sample.start.curve }

/-- The trade of the buy of the whole inventory. -/
def trade : Except Revert (Curve.System Unit × List Curve.Event) :=
  Curve.buyTrade calls Curve.Sample.imm Curve.Sample.call start 200 1 20

theorem trade_isOk : trade.isOk = true := by decide +kernel

/-- The state after the trade. -/
def traded : Curve.System Unit := (value trade trade_isOk).1

/-- The registration as a view. -/
def view : MarketView := ⟨Curve.Sample.config, ⟨0, 1, launchPhaseNotGraduated⟩⟩

/-- The sweep of its fees. -/
def sweep : Except Revert (Curve.System Unit × List Curve.Event) :=
  Curve.sweepFees DocumentedV4.platform calls Curve.Sample.imm view traded

theorem sweep_isOk : sweep.isOk = true := by decide +kernel

end Sample

/-- The plans of the small market. -/
theorem admission_implies_graduation_sample :
    ∃ reserved poolQuote poolMeme locked quoteFirst memeFirst,
      Admitted DocumentedV4.platform (Factory.snapshot Sample.before Sample.params).baseline
        (Factory.snapshot Sample.before Sample.params).quote reserved poolQuote poolMeme locked
        quoteFirst memeFirst ∧
      ∃ view key plan assets quoteDust memeRemainder,
        PlansAgree DocumentedV4.platform Sample.calls Curve.Sample.imm (fun _ => true)
          Sample.launched (value Sample.sweep Sample.sweep_isOk).1 poolQuote poolMeme locked
          quoteFirst memeFirst view key plan assets quoteDust memeRemainder := by
  have hs : Curve.Reachable DocumentedV4.platform Sample.calls Curve.Sample.imm Sample.start :=
    Transition.Reachable.of_init Curve.Sample.init_start
  have hcalls : ReadsRegistries Sample.calls fun _ => Sample.launched :=
    ⟨fun _ _ => rfl, fun _ _ => rfl⟩
  exact admission_implies_graduation Sample.launch rfl hcalls hs (eq_ok_value Sample.trade_isOk) (by decide +kernel)
    (eq_ok_value Sample.sweep_isOk) (Transition.Run.refl _) rfl

end Graduation

end TickerGarden
