import TickerGarden.Curve.Curve

/-!
# Collateral of the curve

The constant product of a curve, `TickerGarden.Curve.product`, prices with the phantom
quote and without the accrued fees. This file shows that no trade decreases it, so
that it never falls below its initial value `phantomQuote * supply` while the curve
trades, and draws the consequence for the end: once the inventory is sold out, the
reserved tokens are what is left, and the quote left after sweeping the fees covers
the canonical graduation quote.

The argument is in three layers.

* Each change of storage has a specification over plain numbers: `applyBuy_spec`,
  `applySell_spec`, `applySweep_spec`.
* `TickerGarden.Curve.Collateralised` is the invariant. Every entry point preserves it,
  `collateralised_step`, hence every run, `collateralised_of_reachable`.
* `TickerGarden.Curve.graduationQuote_le` turns the bound on the product into the bound
  on the quote.

A completed curve has handed its whole reserve over in the very call that completed
it, so its product is zero from then on; the bound is about the curve as it trades, up
to and including the reserves the completing buy graduates with.
-/

namespace TickerGarden

open Checked

namespace Curve

/-- The quote the curve holds beyond the accrued fees. -/
def State.netQuote (st : State) : ℕ := st.reserves.trackedQuote - st.reserves.accruedQuoteFees

/-- **The constant product**: pricing quote times tracked tokens. -/
def product (imm : Immutables) (st : State) : ℕ :=
  (imm.phantomQuote + st.reserves.trackedQuote - st.reserves.accruedQuoteFees)
    * st.reserves.trackedTokens

/-- The books of a curve are in order: the tax is part of the fees, the fees are part of
the tracked quote, and the reserved tokens are those of the supply partition. -/
structure Accounted (imm : Immutables) (st : State) : Prop where
  tax_le : st.accruedCreatorTax ≤ st.reserves.accruedQuoteFees
  fees_le : st.reserves.accruedQuoteFees ≤ st.reserves.trackedQuote
  quote_le : st.reserves.trackedQuote ≤ maxUint256
  partition_eq : ∃ sellable, SupplyMath.supplyPartition imm.initialSupply imm.phantomQuote
    imm.graduationThreshold = .ok (st.reserves.reservedTokens, sellable)

section Curve

variable {imm : Immutables} {st st' : State}

theorem product_eq (h : Accounted imm st) :
    product imm st = (imm.phantomQuote + st.netQuote) * st.reserves.trackedTokens := by
  rw [product, State.netQuote, Nat.add_sub_assoc h.fees_le]

theorem pricingReserves_of_accounted {x y : ℕ}
    (h : SupplyMath.pricingReserves st.reserves imm.phantomQuote = .ok (x, y)) :
    x = imm.phantomQuote + st.netQuote ∧ y = st.reserves.trackedTokens := by
  obtain ⟨-, -, -, rfl, rfl⟩ := SupplyMath.pricingReserves_eq_ok.mp h
  exact ⟨rfl, rfl⟩

/-! ### The changes of storage -/

/-- A buy quote is sound on the reserves it was made from. -/
theorem buyQuote_sound {timestamp quoteIn minOut : ℕ} {recipient caller : Address}
    {q : AntiSnipe.AntiSnipeBuyQuote}
    (h : buyQuote imm st timestamp quoteIn minOut recipient caller = .ok q) :
    q.curveQuote.Sound quoteIn (imm.phantomQuote + st.netQuote) st.reserves.trackedTokens
      st.reserves.reservedTokens := by
  simp only [buyQuote, bind_eq_ok, pure_eq_ok, Except.ok.injEq, Prod.exists] at h
  obtain ⟨x, y, hxy, -, -, -, -, -, -, -, snipe, -, quote, hquote, rfl⟩ := h
  obtain ⟨rfl, rfl⟩ := pricingReserves_of_accounted hxy
  exact CurveMath.quoteBuyWithCreatorTax_sound hquote

/-- A sell quote is sound on the reserves it was made from. -/
theorem sellQuote_sound {tokensIn minOut : ℕ} {q : CurveMath.SellQuote}
    (h : sellQuote imm st tokensIn minOut = .ok q) :
    q.Sound tokensIn (imm.phantomQuote + st.netQuote) st.reserves.trackedTokens := by
  simp only [sellQuote, bind_eq_ok, Prod.exists] at h
  obtain ⟨x, y, hxy, hquote⟩ := h
  obtain ⟨rfl, rfl⟩ := pricingReserves_of_accounted hxy
  exact CurveMath.quoteSell_sound hquote

/-- **What a buy does to the storage.** The net quote grows by the net quote of the
trade, the tokens shrink by its output, and the curve is complete exactly when only
the reserved tokens are left. -/
theorem applyBuy_spec {q : CurveMath.BuyQuote} {quoteIn : ℕ} (hst : Accounted imm st)
    (hq : q.Sound quoteIn (imm.phantomQuote + st.netQuote) st.reserves.trackedTokens
      st.reserves.reservedTokens)
    (h : applyBuy st q = .ok st') :
    Accounted imm st' ∧ st'.netQuote = st.netQuote + q.netQuote ∧
      st'.reserves.trackedTokens + q.tokensOut = st.reserves.trackedTokens ∧
      st'.reserves.reservedTokens = st.reserves.reservedTokens ∧
      st'.reserves.reservedTokens ≤ st'.reserves.trackedTokens ∧
      st'.reserves.trackedQuote = st.reserves.trackedQuote + q.quoteSpent ∧
      (st'.completed = true ↔
        st'.reserves.trackedTokens = st.reserves.reservedTokens ∨ st.completed = true) := by
  simp only [applyBuy, bind_eq_ok, uadd_eq_ok, usub_eq_ok, SupplyMath.sellableTokens_eq_ok,
    pure_eq_ok, Except.ok.injEq] at h
  obtain ⟨_, ⟨hmax, rfl⟩, _, ⟨-, rfl⟩, _, ⟨-, rfl⟩, _, ⟨-, rfl⟩, _, ⟨-, rfl⟩, _, ⟨hout, rfl⟩, n,
    ⟨hres, rfl⟩, rfl⟩ := h
  have htax := hst.tax_le
  have hfees := hst.fees_le
  have hspent := hq.spent_eq
  refine ⟨⟨?_, ?_, hmax, hst.partition_eq⟩, ?_, ?_, rfl, hres, rfl, ?_⟩
  · dsimp only; omega
  · dsimp only; omega
  · simp only [State.netQuote]; omega
  · dsimp only; omega
  · dsimp only at hres ⊢
    split
    · simp only [true_iff]; left; omega
    · simp only [iff_or_self]; intro; omega

/-- **What a sell does to the storage.** The gross quote leaves the net quote, part of
it as fees that stay tracked. -/
theorem applySell_spec {q : CurveMath.SellQuote} {tokensIn : ℕ} {x y : ℕ}
    (hst : Accounted imm st) (hq : q.Sound tokensIn x y)
    (hreal : q.grossQuoteOut ≤ st.netQuote) (h : applySell st q = .ok st') :
    Accounted imm st' ∧ st'.netQuote + q.grossQuoteOut = st.netQuote ∧
      st'.reserves.trackedTokens = st.reserves.trackedTokens + tokensIn ∧
      st'.reserves.reservedTokens = st.reserves.reservedTokens ∧
      st'.reserves.trackedQuote + q.quoteOut = st.reserves.trackedQuote ∧
      st'.completed = st.completed := by
  simp only [applySell, bind_eq_ok, uadd_eq_ok, usub_eq_ok, pure_eq_ok, Except.ok.injEq] at h
  obtain ⟨_, ⟨-, rfl⟩, _, ⟨hout, rfl⟩, _, ⟨-, rfl⟩, _, ⟨-, rfl⟩, _, ⟨-, rfl⟩, rfl⟩ := h
  have htax := hst.tax_le
  have hfees := hst.fees_le
  have hmax := hst.quote_le
  have hgross := hq.gross_eq
  simp only [State.netQuote] at hreal
  refine ⟨⟨?_, ?_, ?_, hst.partition_eq⟩, ?_, ?_, rfl, ?_, rfl⟩
  · dsimp only; omega
  · dsimp only; omega
  · dsimp only; omega
  · simp only [State.netQuote]; omega
  · dsimp only; rw [hq.tokensIn_eq]
  · dsimp only; omega

/-- **What a sweep does to the storage**, the reset of the tax included: the net quote
is what is left of the tracked quote. -/
theorem applySweep_spec {nonce : ℕ} (hst : Accounted imm st) (h : applySweep st nonce = .ok st') :
    Accounted imm { st' with accruedCreatorTax := 0 } ∧ st'.netQuote = st.netQuote ∧
      st'.reserves.trackedQuote = st.netQuote ∧ st'.reserves.accruedQuoteFees = 0 ∧
      st'.reserves.trackedTokens = st.reserves.trackedTokens ∧
      st'.reserves.reservedTokens = st.reserves.reservedTokens ∧
      st'.completed = st.completed := by
  simp only [applySweep, bind_eq_ok, usub_eq_ok, pure_eq_ok, Except.ok.injEq] at h
  obtain ⟨_, ⟨hle, rfl⟩, rfl⟩ := h
  have hmax := hst.quote_le
  refine ⟨⟨le_rfl, Nat.zero_le _, ?_, hst.partition_eq⟩, ?_, rfl, rfl, rfl, rfl, rfl⟩
  · dsimp only; omega
  · simp only [State.netQuote]; omega

/-- A buy does not decrease the constant product. -/
theorem product_le_of_buy {x net y out : ℕ} (hle : out ≤ y) (hcovers : out * x ≤ net * (y - out)) :
    x * y ≤ (x + net) * (y - out) := by
  calc x * y = x * (y - out) + out * x := by
        rw [Nat.mul_comm out x, ← Nat.mul_add, Nat.sub_add_cancel hle]
    _ ≤ x * (y - out) + net * (y - out) := Nat.add_le_add_left hcovers _
    _ = (x + net) * (y - out) := (Nat.add_mul _ _ _).symm

/-- A sell does not decrease the constant product. -/
theorem product_le_of_sell {x gross y tokensIn : ℕ} (hle : gross ≤ x)
    (hcovered : gross * (y + tokensIn) ≤ tokensIn * x) : x * y ≤ (x - gross) * (y + tokensIn) := by
  have hsplit : (x - gross) * (y + tokensIn) + gross * (y + tokensIn)
      = x * y + tokensIn * x := by
    rw [← Nat.add_mul, Nat.sub_add_cancel hle, Nat.mul_add, Nat.mul_comm x tokensIn]
  omega

/-! ### The invariant -/

/-- **The collateral invariant.** While the curve trades, tokens are left to sell and the
product is at least its initial value; a completed curve has handed everything over. -/
structure Collateralised (imm : Immutables) (st : State) : Prop extends Accounted imm st where
  unsold : st.completed = false → st.reserves.reservedTokens < st.reserves.trackedTokens
  product_ge : st.completed = false → imm.phantomQuote * imm.initialSupply ≤ product imm st
  cleared : st.completed = true → st.reserves.trackedQuote = 0 ∧ st.reserves.trackedTokens = 0

section Contract

variable {W : Type} {platform : Platform} {calls : Externals W} {s s' : System W}
  {events : List Event}

theorem not_completed_of_tradable {view : MarketView} (h : requireTradable calls imm s = .ok view) :
    s.curve.completed = false := by
  simp only [requireTradable, bind_eq_ok, revertIf_eq_ok, pure_eq_ok, not_or] at h
  obtain ⟨-, -, -, ⟨-, hcompleted⟩, -⟩ := h
  simpa using hcompleted

/-- The storage change of a trade that goes through. -/
theorem buyTrade_curve {call : Call} {quoteIn minOut : ℕ} {recipient : Address}
    (h : buyTrade calls imm call s quoteIn minOut recipient = .ok (s', events)) :
    s.curve.completed = false ∧ ∃ q,
      buyQuote imm s.curve call.timestamp quoteIn minOut recipient call.caller = .ok q ∧
      applyBuy s.curve q.curveQuote = .ok s'.curve := by
  simp only [buyTrade, bind_eq_ok, uadd_eq_ok] at h
  obtain ⟨_, -, view, hview, -, -, q, hq, -, -, _, -, curve, hcurve, _, -, _, -, h⟩ := h
  refine ⟨not_completed_of_tradable hview, q, hq, ?_⟩
  split at h
  · simp only [bind_eq_ok, pure_eq_ok, Except.ok.injEq, Prod.mk.injEq] at h
    obtain ⟨_, -, rfl, -⟩ := h
    exact hcurve
  · simp only [pure_eq_ok, Except.ok.injEq, Prod.mk.injEq] at h
    obtain ⟨rfl, -⟩ := h
    exact hcurve

/-- **A trade keeps the collateral.** After a buy, its possible graduation aside, the books
are in order, the product has not decreased, and the curve is complete exactly when
only the reserved tokens are left. -/
theorem buyTrade_collateral {call : Call} {quoteIn minOut : ℕ} {recipient : Address}
    (hs : Collateralised imm s.curve)
    (h : buyTrade calls imm call s quoteIn minOut recipient = .ok (s', events)) :
    Accounted imm s'.curve ∧ product imm s.curve ≤ product imm s'.curve ∧
      s'.curve.reserves.reservedTokens = s.curve.reserves.reservedTokens ∧
      s'.curve.reserves.reservedTokens ≤ s'.curve.reserves.trackedTokens ∧
      (s'.curve.completed = true ↔
        s'.curve.reserves.trackedTokens = s'.curve.reserves.reservedTokens) := by
  obtain ⟨hopen, q, hq, hcurve⟩ := buyTrade_curve h
  have hsound := buyQuote_sound hq
  obtain ⟨hacc, hnet, htokens, hreserved, hle, -, hcompleted⟩ :=
    applyBuy_spec hs.toAccounted hsound hcurve
  refine ⟨hacc, ?_, hreserved, hle, ?_⟩
  · rw [product_eq hs.toAccounted, product_eq hacc, hnet, ← Nat.add_assoc,
      show s'.curve.reserves.trackedTokens
        = s.curve.reserves.trackedTokens - q.curveQuote.tokensOut by omega]
    exact product_le_of_buy (by omega) hsound.covers
  · rw [hcompleted, hopen, hreserved]
    simp

/-- What crediting a sweep does to the curve's own storage: nothing. -/
theorem creditSweep_curve {credit : CurveCredit} (h : creditSweep calls imm s credit = .ok s') :
    s'.curve = s.curve := by
  simp only [creditSweep, bind_eq_ok] at h
  obtain ⟨_, -, h⟩ := h
  split at h
  · simp only [bind_eq_ok, pure_eq_ok, Except.ok.injEq] at h
    obtain ⟨_, -, _, -, rfl⟩ := h
    rfl
  · simp only [bind_eq_ok, pure_eq_ok, Except.ok.injEq] at h
    obtain ⟨_, -, _, -, rfl⟩ := h
    rfl

/-- **A sweep keeps the collateral**: the net quote stays, and becomes all of the
tracked quote. -/
theorem sweepFees_collateral {view : MarketView} (hs : Accounted imm s.curve)
    (h : sweepFees platform calls imm view s = .ok (s', events)) :
    Accounted imm s'.curve ∧ s'.curve.netQuote = s.curve.netQuote ∧
      s'.curve.reserves.trackedQuote = s.curve.netQuote ∧
      s'.curve.reserves.trackedTokens = s.curve.reserves.trackedTokens ∧
      s'.curve.reserves.reservedTokens = s.curve.reserves.reservedTokens ∧
      s'.curve.completed = s.curve.completed := by
  unfold sweepFees at h
  dsimp only at h
  split at h
  · rename_i hzero
    simp only [pure_eq_ok, Except.ok.injEq, Prod.mk.injEq] at h
    obtain ⟨rfl, -⟩ := h
    refine ⟨hs, rfl, ?_, rfl, rfl, rfl⟩
    rw [State.netQuote, hzero, Nat.sub_zero]
  · simp only [bind_eq_ok, pure_eq_ok, Except.ok.injEq, Prod.mk.injEq] at h
    obtain ⟨-, -, swept, hswept, t, ht, rfl, -⟩ := h
    obtain ⟨hacc, hnet, hquote, -, htokens, hreserved, hcompleted⟩ := applySweep_spec hs hswept
    have hcurve := creditSweep_curve ht
    dsimp only at hcurve ⊢
    rw [hcurve]
    exact ⟨hacc, hnet, hquote, htokens, hreserved, hcompleted⟩

/-- The executor has no access to the curve's storage. -/
theorem transferToExecutor_curve {sweptQuote sweptTokens : ℕ}
    (h : transferToExecutor calls imm s sweptQuote sweptTokens = .ok s') : s'.curve = s.curve := by
  simp only [transferToExecutor, bind_eq_ok, pure_eq_ok, Except.ok.injEq, Prod.exists] at h
  obtain ⟨_, -, _, _, -, _, _, -, _, -, rfl⟩ := h
  rfl

/-- What graduating leaves of the storage. -/
theorem finalizeLaunch_curve (h : finalizeLaunch platform calls imm s = .ok (s', events)) :
    ∃ view swept, sweepFees platform calls imm view s = .ok (swept, events) ∧
      s'.curve = { swept.curve with
        reserves := { swept.curve.reserves with trackedQuote := 0, trackedTokens := 0 } } := by
  simp only [finalizeLaunch, bind_eq_ok, pure_eq_ok, Except.ok.injEq, Prod.mk.injEq,
    Prod.exists] at h
  obtain ⟨view, -, -, -, swept, ev, hsweep, -, -, t, htransfer, -, -, -, -, rfl, rfl⟩ := h
  exact ⟨view, swept, hsweep, transferToExecutor_curve htransfer⟩

/-- A curve that has swept and cleared its reserves keeps its books in order. -/
theorem accounted_cleared {view : MarketView} {swept : System W} (hs : Accounted imm s.curve)
    (h : sweepFees platform calls imm view s = .ok (swept, events)) :
    Accounted imm { swept.curve with
      reserves := { swept.curve.reserves with trackedQuote := 0, trackedTokens := 0 } } := by
  obtain ⟨hacc, hnet, hquote, -, -, -⟩ := sweepFees_collateral hs h
  have hfees : swept.curve.reserves.accruedQuoteFees = 0 := by
    have := hacc.fees_le
    simp only [State.netQuote] at hnet hquote
    omega
  have htax := hacc.tax_le
  exact ⟨htax, by dsimp only; omega, Nat.zero_le _, hacc.partition_eq⟩

/-- A buy that goes through either leaves the curve trading, or completes it. -/
theorem buy_cases {call : Call} {quoteIn minOut : ℕ} {recipient : Address}
    (h : buy platform calls imm call s quoteIn minOut recipient = .ok (s', events)) :
    ∃ traded bought, buyTrade calls imm call s quoteIn minOut recipient = .ok (traded, bought) ∧
      ((traded.curve.completed = false ∧ s' = traded ∧ events = bought) ∨
        (traded.curve.completed = true ∧ ∃ more,
          finalizeLaunch platform calls imm traded = .ok (s', more) ∧
          events = bought ++ more ++ [.curveCompleted imm.marketId])) := by
  simp only [buy, bind_eq_ok, Prod.exists] at h
  obtain ⟨traded, bought, htrade, h⟩ := h
  refine ⟨traded, bought, htrade, ?_⟩
  split at h
  · rename_i hcompleted
    simp only [bind_eq_ok, pure_eq_ok, Except.ok.injEq, Prod.mk.injEq, Prod.exists] at h
    obtain ⟨_, more, hfinal, rfl, rfl⟩ := h
    exact Or.inr ⟨hcompleted, more, hfinal, rfl⟩
  · rename_i hopen
    simp only [pure_eq_ok, Except.ok.injEq, Prod.mk.injEq] at h
    obtain ⟨rfl, rfl⟩ := h
    exact Or.inl ⟨by simpa using hopen, rfl, rfl⟩

/-- The storage change of a sell that goes through. -/
theorem sell_curve {call : Call} {tokensIn minOut : ℕ} {recipient : Address}
    (h : sell calls imm call s tokensIn minOut recipient = .ok (s', events)) :
    s.curve.completed = false ∧ ∃ q, sellQuote imm s.curve tokensIn minOut = .ok q ∧
      q.grossQuoteOut ≤ s.curve.netQuote ∧ applySell s.curve q = .ok s'.curve := by
  simp only [sell, realQuoteReserve, bind_eq_ok, revertIf_eq_ok, usub_eq_ok, pure_eq_ok,
    Except.ok.injEq, Prod.mk.injEq, not_lt] at h
  obtain ⟨-, -, view, hview, -, -, q, hq, -, -, _, ⟨-, rfl⟩, -, hreal, _, -, curve, hcurve, _, -, rfl,
    -⟩ := h
  exact ⟨not_completed_of_tradable hview, q, hq, hreal, hcurve⟩

/-- The books stay in order, and the product does not decrease, in a sell. -/
theorem sell_collateral {call : Call} {tokensIn minOut : ℕ} {recipient : Address}
    (hs : Collateralised imm s.curve)
    (h : sell calls imm call s tokensIn minOut recipient = .ok (s', events)) :
    Collateralised imm s'.curve ∧ product imm s.curve ≤ product imm s'.curve := by
  obtain ⟨hopen, q, hq, hreal, hcurve⟩ := sell_curve h
  have hsound := sellQuote_sound hq
  obtain ⟨hacc, hnet, htokens, hreserved, -, hcompleted⟩ :=
    applySell_spec hs.toAccounted hsound hreal hcurve
  have hproduct : product imm s.curve ≤ product imm s'.curve := by
    rw [product_eq hs.toAccounted, product_eq hacc, htokens,
      show imm.phantomQuote + s'.curve.netQuote
        = imm.phantomQuote + s.curve.netQuote - q.grossQuoteOut by omega]
    exact product_le_of_sell (by omega) hsound.covered
  have hunsold := hs.unsold hopen
  refine ⟨⟨hacc, fun _ => by omega, fun _ => (hs.product_ge hopen).trans hproduct, ?_⟩, hproduct⟩
  rw [hcompleted, hopen]
  exact fun h => absurd h (by decide)

/-- The books stay in order, and the product is unchanged, in a sweep. -/
theorem sweep_collateral {call : Call} (hs : Collateralised imm s.curve)
    (h : sweepCurveFees platform calls imm call s = .ok (s', events)) :
    Collateralised imm s'.curve ∧ product imm s'.curve = product imm s.curve := by
  simp only [sweepCurveFees, bind_eq_ok] at h
  obtain ⟨-, -, view, -, -, -, hsweep⟩ := h
  obtain ⟨hacc, hnet, hquote, htokens, hreserved, hcompleted⟩ :=
    sweepFees_collateral hs.toAccounted hsweep
  have hproduct : product imm s'.curve = product imm s.curve := by
    rw [product_eq hs.toAccounted, product_eq hacc, hnet, htokens]
  refine ⟨⟨hacc, ?_, ?_, ?_⟩, hproduct⟩
  · rw [hcompleted, htokens, hreserved]; exact hs.unsold
  · rw [hcompleted, hproduct]; exact hs.product_ge
  · rw [hcompleted, htokens]
    intro hdone
    obtain ⟨hq, ht⟩ := hs.cleared hdone
    refine ⟨?_, ht⟩
    rw [hquote, State.netQuote, hq, Nat.zero_sub]

/-- The books stay in order in a buy; the product does not decrease, unless the buy
completes the curve. -/
theorem buy_collateral {call : Call} {quoteIn minOut : ℕ} {recipient : Address}
    (hs : Collateralised imm s.curve)
    (h : buy platform calls imm call s quoteIn minOut recipient = .ok (s', events)) :
    Collateralised imm s'.curve ∧
      (s'.curve.completed = false → product imm s.curve ≤ product imm s'.curve) := by
  obtain ⟨traded, bought, htrade, ⟨hopen', rfl, -⟩ | ⟨hdone, more, hfinal, -⟩⟩ := buy_cases h
  · obtain ⟨hacc, hproduct, -, hle, hcompleted⟩ := buyTrade_collateral hs htrade
    have hopen := (buyTrade_curve htrade).1
    refine ⟨⟨hacc, fun _ => ?_, fun _ => (hs.product_ge hopen).trans hproduct, ?_⟩,
      fun _ => hproduct⟩
    · rw [hopen'] at hcompleted
      have : s'.curve.reserves.trackedTokens ≠ s'.curve.reserves.reservedTokens := by
        simpa using hcompleted
      omega
    · rw [hopen']
      exact fun h => absurd h (by decide)
  · obtain ⟨hacc, -, -, -, -⟩ := buyTrade_collateral hs htrade
    obtain ⟨view, swept, hsweep, hcurve⟩ := finalizeLaunch_curve hfinal
    obtain ⟨-, -, -, -, -, hcompleted⟩ := sweepFees_collateral hacc hsweep
    have hcleared := accounted_cleared hacc hsweep
    rw [← hcurve] at hcleared
    have hdone' : s'.curve.completed = true := by rw [hcurve]; exact hcompleted.trans hdone
    refine ⟨⟨hcleared, ?_, ?_, fun _ => by rw [hcurve]; exact ⟨rfl, rfl⟩⟩, ?_⟩ <;>
      · rw [hdone']
        exact fun h => absurd h (by decide)

/-- An initial curve is collateralised, with equality. -/
theorem collateralised_init (h : Init imm s) : Collateralised imm s.curve := by
  obtain ⟨reserves, hreserves, hcurve, -⟩ := h
  obtain ⟨R, sellable, hpart, rfl⟩ := SupplyMath.initializeReserves_eq_ok hreserves
  have hfacts := SupplyMath.partition_of_supplyPartition hpart
  rw [hcurve]
  exact ⟨⟨le_rfl, le_rfl, Nat.zero_le _, sellable, hpart⟩, fun _ => hfacts.reserved_lt,
    fun _ => by simp [product], fun h => absurd h Bool.false_ne_true⟩

/-- **One step preserves the collateral.** -/
theorem collateralised_step (hs : Collateralised imm s.curve)
    (h : Step platform calls imm s events s') : Collateralised imm s'.curve := by
  cases h with
  | buy call quoteIn minOut recipient hcaller h => exact (buy_collateral hs h).1
  | sell call tokensIn minOut recipient hcaller h => exact (sell_collateral hs h).1
  | sweep call h => exact (sweep_collateral hs h).1
  | environment rest balances h => exact hs

/-- **Every reachable curve is collateralised.** -/
theorem collateralised_of_reachable (h : Reachable platform calls imm s) :
    Collateralised imm s.curve :=
  h.invariant (I := fun s => Collateralised imm s.curve) (fun _ => collateralised_init)
    fun _ _ _ => collateralised_step

/-- The product does not decrease in a step that leaves the curve trading. -/
theorem product_le_of_step (hs : Collateralised imm s.curve)
    (h : Step platform calls imm s events s') (hopen : s'.curve.completed = false) :
    product imm s.curve ≤ product imm s'.curve := by
  cases h with
  | buy call quoteIn minOut recipient hcaller h => exact (buy_collateral hs h).2 hopen
  | sell call tokensIn minOut recipient hcaller h => exact (sell_collateral hs h).2
  | sweep call h => exact (sweep_collateral hs h).2.ge
  | environment rest balances h => exact le_rfl

/-- A curve that trades after a step was trading before it. -/
theorem open_of_step (hs : Collateralised imm s.curve) (h : Step platform calls imm s events s')
    (hopen : s'.curve.completed = false) : s.curve.completed = false := by
  cases h with
  | buy call quoteIn minOut recipient hcaller h =>
    obtain ⟨traded, bought, htrade, -⟩ := buy_cases h
    exact (buyTrade_curve htrade).1
  | sell call tokensIn minOut recipient hcaller h => exact (sell_curve h).1
  | sweep call h =>
    simp only [sweepCurveFees, bind_eq_ok] at h
    obtain ⟨-, -, view, -, -, -, hsweep⟩ := h
    rw [← (sweepFees_collateral hs.toAccounted hsweep).2.2.2.2.2]
    exact hopen
  | environment rest balances h => exact hopen

/-- **The product does not decrease in a run that leaves the curve trading.** -/
theorem product_le_of_run {es : List (List Event)} (hs : Collateralised imm s.curve)
    (h : Transition.Run (Step platform calls imm) s es s') (hopen : s'.curve.completed = false) :
    product imm s.curve ≤ product imm s'.curve := by
  induction h with
  | refl => exact le_rfl
  | snoc hrun hstep ih =>
    have hmid := hrun.invariant (I := fun s => Collateralised imm s.curve)
      (fun _ _ _ => collateralised_step) hs
    exact (ih (open_of_step hmid hstep hopen)).trans (product_le_of_step hmid hstep hopen)

/-! ### The end of the curve -/

/-- **The net quote of a sold-out curve covers the graduation quote**, and the graduation
quote is representable. From `P * S ≤ (P + q) * R` the quote `q` times the reserved
tokens `R` is at least `P * (S - R)`, and the graduation quote is the least such. -/
theorem graduationQuote_le (hst : Accounted imm st)
    (hproduct : imm.phantomQuote * imm.initialSupply ≤ product imm st)
    (hsold : st.reserves.trackedTokens = st.reserves.reservedTokens) :
    ∃ poolQuote, SupplyMath.canonicalGraduationQuote imm.initialSupply imm.phantomQuote
      imm.graduationThreshold = .ok poolQuote ∧ poolQuote ≤ st.netQuote := by
  obtain ⟨sellable, hpart⟩ := hst.partition_eq
  have hfacts := SupplyMath.partition_of_supplyPartition hpart
  rw [product_eq hst, hsold] at hproduct
  have hsplit : imm.phantomQuote * imm.initialSupply
      = imm.phantomQuote * st.reserves.reservedTokens + sellable * imm.phantomQuote := by
    rw [hfacts.sellable_eq, Nat.mul_comm _ imm.phantomQuote, ← Nat.mul_add,
      Nat.add_sub_cancel' hfacts.reserved_lt.le]
  have hcover : sellable * imm.phantomQuote ≤ st.netQuote * st.reserves.reservedTokens := by
    rw [Nat.add_mul] at hproduct
    omega
  have hne : st.reserves.reservedTokens ≠ 0 := hfacts.reserved_pos.ne'
  have hle := ceil_le hne hcover
  have hmax : st.netQuote ≤ maxUint256 := (Nat.sub_le _ _).trans hst.quote_le
  refine ⟨_, ?_, hle⟩
  simp only [SupplyMath.canonicalGraduationQuote, bind_eq_ok, mulDivUp_eq_ok, Prod.exists]
  exact ⟨_, _, hpart, hne, hle.trans hmax, rfl⟩

/-- **The collateral check of a completing buy passes**, whatever the sweep before it
did. -/
theorem requireCollateral_of_trade {call : Call} {quoteIn minOut : ℕ} {recipient : Address}
    {bought swept_events : List Event} {traded swept : System W} {view : MarketView}
    (hs : Collateralised imm s.curve)
    (htrade : buyTrade calls imm call s quoteIn minOut recipient = .ok (traded, bought))
    (hdone : traded.curve.completed = true)
    (hsweep : sweepFees platform calls imm view traded = .ok (swept, swept_events)) :
    ∃ poolQuote, SupplyMath.canonicalGraduationQuote imm.initialSupply imm.phantomQuote
        imm.graduationThreshold = .ok poolQuote ∧ poolQuote ≤ traded.curve.netQuote ∧
      requireCollateral imm swept.curve swept.curve.reserves.trackedQuote
        swept.curve.reserves.trackedTokens = .ok poolQuote := by
  obtain ⟨hacc, hproduct, -, -, hcompleted⟩ := buyTrade_collateral hs htrade
  have hsold := hcompleted.mp hdone
  have hopen := (buyTrade_curve htrade).1
  obtain ⟨poolQuote, hquote, hle⟩ :=
    graduationQuote_le hacc ((hs.product_ge hopen).trans hproduct) hsold
  obtain ⟨-, -, hsweptQuote, hsweptTokens, hreserved, -⟩ := sweepFees_collateral hacc hsweep
  refine ⟨poolQuote, hquote, hle, ?_⟩
  simp only [requireCollateral, bind_eq_ok, revertIf_eq_ok, pure_eq_ok, Except.ok.injEq]
  refine ⟨poolQuote, hquote, (), ?_, rfl⟩
  rw [hsweptQuote, hsweptTokens, hreserved, hsold]
  omega

/-- **The collateral of a curve.** In every reachable state:

* as long as the curve has not completed, tokens are left to sell, the product is at
  least its initial value, and no further run decreases it;
* a buy does not decrease the product either, as far as the state goes it would
  graduate with: if it exhausts the inventory, the tokens left are exactly the reserved
  ones, the net quote covers the canonical graduation quote, and the collateral check
  of the graduation passes;
* once completed, the curve has handed over everything. -/
theorem curve_collateral (h : Reachable platform calls imm s) :
    (s.curve.completed = false →
      s.curve.reserves.reservedTokens < s.curve.reserves.trackedTokens ∧
      imm.phantomQuote * imm.initialSupply ≤ product imm s.curve) ∧
    (∀ es s', Transition.Run (Step platform calls imm) s es s' → s'.curve.completed = false →
      product imm s.curve ≤ product imm s'.curve) ∧
    (∀ call quoteIn minOut recipient traded bought,
      buyTrade calls imm call s quoteIn minOut recipient = .ok (traded, bought) →
      product imm s.curve ≤ product imm traded.curve ∧
      (traded.curve.completed = true ↔
        traded.curve.reserves.trackedTokens = traded.curve.reserves.reservedTokens) ∧
      (traded.curve.completed = true → ∃ poolQuote,
        SupplyMath.canonicalGraduationQuote imm.initialSupply imm.phantomQuote
          imm.graduationThreshold = .ok poolQuote ∧
        poolQuote ≤ traded.curve.netQuote ∧
        ∀ view swept more, sweepFees platform calls imm view traded = .ok (swept, more) →
          requireCollateral imm swept.curve swept.curve.reserves.trackedQuote
            swept.curve.reserves.trackedTokens = .ok poolQuote)) ∧
    (s.curve.completed = true →
      s.curve.reserves.trackedQuote = 0 ∧ s.curve.reserves.trackedTokens = 0) := by
  have hs := collateralised_of_reachable h
  refine ⟨fun hopen => ⟨hs.unsold hopen, hs.product_ge hopen⟩,
    fun es s' hrun hopen => product_le_of_run hs hrun hopen, ?_, hs.cleared⟩
  intro call quoteIn minOut recipient traded bought htrade
  obtain ⟨hacc, hproduct, -, -, hcompleted⟩ := buyTrade_collateral hs htrade
  refine ⟨hproduct, hcompleted, fun hdone => ?_⟩
  have hopen := (buyTrade_curve htrade).1
  obtain ⟨poolQuote, hquote, hle⟩ :=
    graduationQuote_le hacc ((hs.product_ge hopen).trans hproduct) (hcompleted.mp hdone)
  refine ⟨poolQuote, hquote, hle, fun view swept more hsweep => ?_⟩
  obtain ⟨q, hq, -, hcheck⟩ := requireCollateral_of_trade hs htrade hdone hsweep
  rw [Except.ok.inj (hquote.symm.trans hq)]
  exact hcheck

end Contract

end Curve

/-! ### A small market

A curve of supply 400 with phantom quote and threshold 100 – so that 200 tokens are
reserved, and the pool opens at price one – in the native currency, with nothing
around it but a registry that records the graduation. -/

namespace Sample

/-- The curve. -/
def imm : Immutables where
  self := 7
  marketId := 1
  tickerGardenBaselineId := 2
  quoteAssetConfigId := 3
  protocolFeeVault := 8
  graduationExecutor := 9
  launchRouter := 10
  creator := 11
  beneficiaryAtCreation := 12
  memeToken := 5
  quoteAsset := 0
  phantomQuote := 100
  graduationThreshold := 100
  initialSupply := 400
  curveFeeBps := 100
  creatorTaxBps := 0
  launchTimestamp := 0

/-- Its registration. -/
def config : RegisteredConfig where
  assetUid := 0
  tickerGardenBaselineId := 2
  quoteAssetConfigId := 3
  launchTemplateId := 4
  feePolicyId := 5
  executionSpecId := 6
  expectedEconomics := 7
  launchConfigId := 0
  creatorRevenueBeneficiaryAtCreation := 12
  memeToken := 5
  curve := 7
  gauge := 0
  quoteAsset := 0
  graduatedHook := 0x2044
  creatorTaxBps := 0
  creatorFeesToHolders := false
  stakingEnabled := false
  burnMemeFees := false
  lpFeePips := 0
  identified := by decide
  quoteAsset_ne_memeToken := by decide
  hook_permissions := by decide
  stakingShape := by decide
  lpFee_allowed := by decide

/-- The contracts around it: whether the market has graduated is all they remember. -/
def calls : Externals Bool where
  market := fun graduated _ => .ok ⟨config,
    if graduated then { poolId := 1, sourceVersion := 2, launchPhase := launchPhasePoolCreated }
    else { poolId := 0, sourceVersion := 1, launchPhase := launchPhaseNotGraduated }⟩
  canonicalPoolKey := fun _ _ => .ok
    { currency0 := 0, currency1 := 5, fee := 0, tickSpacing := 1, hooks := 0x2044 }
  beginCurveCredit := fun graduated _ _ _ => .ok graduated
  finalizeCurveCredit := fun graduated _ _ _ _ => .ok graduated
  graduateFromCurve := fun _ _ _ _ _ _ _ => .ok (true, [])

/-- The deployed curve; account 20 has 1000 of the native currency. -/
def start : System Bool where
  rest := false
  balances := fun asset holder =>
    if asset = 5 ∧ holder = 7 then 400 else if asset = 0 ∧ holder = 20 then 1000 else 0
  curve := {
    reserves := { trackedQuote := 0, trackedTokens := 400, accruedQuoteFees := 0,
                  reservedTokens := 200 }
    accruedCreatorTax := 0, sweepNonce := 0, hasExecutedTrade := false, completed := false }

/-- What its constructor reads: every account but zero has code. -/
def deployment : Deployment where
  hasCode := fun account => account != 0
  marketRegistry := 21
  registryGraduationExecutor := 9
  factory := 22
  tokenMarketId := 1
  tokenCreator := 11
  tokenFactory := 22
  tokenInitialSupply := 400
  tokenTotalSupply := 400

theorem init_start : Init imm start :=
  have hdeploy : deploy imm deployment start.balances = .ok start.curve := by rfl
  init_of_deploy _ hdeploy

/-- Account 20 offers 200, of which the clipped buy spends 103. -/
def call : Call := { caller := 20, value := 200, timestamp := 100 }

/-- The buy of the whole inventory. -/
def completingBuy : Except Revert (System Bool × List Event) :=
  buy DocumentedV4.platform calls imm call start 200 1 20

theorem completingBuy_isOk : completingBuy.isOk = true := by decide +kernel

/-- The state after the completing buy. -/
def graduated : System Bool := (value completingBuy completingBuy_isOk).1

theorem reachable_start : Reachable DocumentedV4.platform calls imm start :=
  Transition.Reachable.of_init init_start

theorem reachable_graduated : Reachable DocumentedV4.platform calls imm graduated :=
  reachable_start.next (Step.buy call 200 1 20 (by decide) (eq_ok_value completingBuy_isOk))

end Sample

/-- **The completing buy itself ends below the bound**: it hands the whole reserve over, so
that after it the product is zero, and the tokens left are not the reserved ones. -/
theorem curve_collateral_fails_after_completion :
    ¬ ∀ s : System Bool, Reachable DocumentedV4.platform Sample.calls Sample.imm s →
      Sample.imm.phantomQuote * Sample.imm.initialSupply ≤ product Sample.imm s.curve ∧
      (s.curve.completed = true →
        s.curve.reserves.trackedTokens = s.curve.reserves.reservedTokens) := by
  intro h
  obtain ⟨hproduct, -⟩ := h Sample.graduated Sample.reachable_graduated
  revert hproduct
  decide +kernel

/-- The collateral of the small market, as deployed and as graduated. -/
theorem curve_collateral_sample :
    (200 < 400 ∧ 100 * 400 ≤ product Sample.imm Sample.start.curve) ∧
      Sample.graduated.curve.reserves.trackedQuote = 0 ∧
      Sample.graduated.curve.reserves.trackedTokens = 0 :=
  ⟨(curve_collateral Sample.reachable_start).1 rfl,
    (curve_collateral Sample.reachable_graduated).2.2.2 (by decide +kernel)⟩

end Curve

end TickerGarden
