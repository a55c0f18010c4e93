import TickerGarden.Curve.Collateral

/-!
# Solvency of the curve

What a curve has tracked, it holds: `TickerGarden.Curve.Backed` says that the tracked quote
and the tracked tokens are within the curve's balances, and every step preserves it –
each payment of a call is exact, nobody else can take the curve's assets, and the
registry never records a market whose two currencies are the same asset.

On top of the collateral bound of `TickerGarden.Curve.Collateralised` this gives:

* a sell of tokens that are in circulation can always be paid, `gross_le_netQuote`:
  the product bound leaves at least the phantom quote in the price;
* over a whole run, the traders are paid no more than they paid in,
  `TickerGarden.Curve.paidOut_le_paidIn`: both totals are read off the emitted events,
  and the difference is what the curve holds beyond its fees.
-/

namespace TickerGarden

open Checked

namespace Curve

section Curve

variable {imm : Immutables}

/-! ### Payments of a call -/

section Payments

variable {self token payer recipient asset : Address} {amount : ℕ} {b b' : Balances} {call : Call}

theorem collectTokenExact_spec (h : collectTokenExact self token payer amount b = .ok b') :
    b' token self = b token self + amount ∧ ∀ a, a ≠ token → b' a self = b a self := by
  simp only [collectTokenExact, bind_eq_ok, orRevert_eq_ok, revertIf_eq_ok, pure_eq_ok,
    Except.ok.injEq, not_not] at h
  obtain ⟨_, hmove, -, hactual, rfl⟩ := h
  refine ⟨?_, fun a ha => Balances.move_other hmove ha self⟩
  by_cases hself : payer = self
  · subst hself
    obtain rfl := Balances.move_self hmove
    have : 0 = amount := by simpa using hactual
    omega
  · exact Balances.move_recipient hmove hself

theorem transferTokenExact_spec (h : transferTokenExact self token recipient amount b = .ok b') :
    b token self ≤ b' token self + amount ∧ ∀ a, a ≠ token → b' a self = b a self := by
  simp only [transferTokenExact, bind_eq_ok, orRevert_eq_ok, revertIf_eq_ok, pure_eq_ok,
    Except.ok.injEq] at h
  obtain ⟨_, hmove, -, -, -, -, rfl⟩ := h
  exact ⟨Balances.le_of_move_sender hmove, fun a ha => Balances.move_other hmove ha self⟩

theorem transferQuoteExact_spec {quote : Address}
    (h : transferQuoteExact self quote recipient amount b = .ok b') :
    b quote self ≤ b' quote self + amount ∧ ∀ a, a ≠ quote → b' a self = b a self := by
  unfold transferQuoteExact at h
  split at h
  · rename_i hnative
    subst hnative
    rw [orRevert_eq_ok] at h
    exact ⟨Balances.le_of_move_sender h, fun a ha => Balances.move_other h ha self⟩
  · exact transferTokenExact_spec h

/-- **What comes in with a buy**: exactly the offered quote, and nothing else. -/
theorem collectQuote_spec {quote : Address} {received : Balances} (hcaller : call.caller ≠ self)
    (hvalue : receiveValue self call b = .ok received)
    (h : collectQuote self quote call amount received = .ok b') :
    b' quote self = b quote self + amount ∧ ∀ a, a ≠ quote → b' a self = b a self := by
  rw [receiveValue, orRevert_eq_ok] at hvalue
  unfold collectQuote at h
  split at h
  · rename_i hnative
    subst hnative
    simp only [bind_eq_ok, revertIf_eq_ok, pure_eq_ok, Except.ok.injEq, not_not] at h
    obtain ⟨-, rfl, rfl⟩ := h
    exact ⟨Balances.move_recipient hvalue hcaller, fun a ha => Balances.move_other hvalue ha self⟩
  · simp only [bind_eq_ok, revertIf_eq_ok, not_not] at h
    obtain ⟨-, hzero, hcollect⟩ := h
    rw [hzero] at hvalue
    have hsame : ∀ a, received a self = b a self := fun a => Balances.move_zero hvalue a self
    obtain ⟨hin, hother⟩ := collectTokenExact_spec hcollect
    exact ⟨by rw [hin, hsame], fun a ha => by rw [hother a ha, hsame]⟩

end Payments

/-! ### Backing -/

/-- **What the curve tracks, it holds.** -/
structure Backed {W : Type} (imm : Immutables) (s : System W) : Prop where
  quote_le : s.curve.reserves.trackedQuote ≤ s.balances imm.quoteAsset imm.self
  tokens_le : s.curve.reserves.trackedTokens ≤ s.balances imm.memeToken imm.self

section Contract

variable {W : Type} {platform : Platform} {calls : Externals W} {s s' : System W}
  {events : List Event}

/-- The curve of a registered market trades two different assets. -/
theorem quote_ne_meme {rest : W} {view : MarketView}
    (h : requireRegisteredCurve calls imm rest = .ok view) : imm.quoteAsset ≠ imm.memeToken := by
  simp only [requireRegisteredCurve, bind_eq_ok, revertIf_eq_ok, not_or, not_not] at h
  obtain ⟨v, -, -, ⟨-, hmeme, hquote, -⟩, -⟩ := h
  rw [← hmeme, ← hquote]
  exact v.config.quoteAsset_ne_memeToken

theorem quote_ne_meme_of_tradable {view : MarketView}
    (h : requireTradable calls imm s = .ok view) : imm.quoteAsset ≠ imm.memeToken := by
  simp only [requireTradable, bind_eq_ok] at h
  obtain ⟨v, hv, -⟩ := h
  exact quote_ne_meme hv

/-- What a trade of a buy does to the balances: the spent quote stays, the bought
tokens leave. -/
theorem buyTrade_backed {call : Call} {quoteIn minOut : ℕ} {recipient : Address}
    (hcaller : call.caller ≠ imm.self) (hs : Collateralised imm s.curve) (hb : Backed imm s)
    (h : buyTrade calls imm call s quoteIn minOut recipient = .ok (s', events)) :
    Backed imm s' := by
  obtain ⟨-, q, hq, hcurve⟩ := buyTrade_curve h
  have hsound := buyQuote_sound hq
  obtain ⟨-, -, htokens, -, -, hquote, -⟩ := applyBuy_spec hs.toAccounted hsound hcurve
  have hrefund := hsound.refund_eq
  have hbq := hb.quote_le
  have hbt := hb.tokens_le
  simp only [buyTrade, bind_eq_ok] at h
  obtain ⟨received, hvalue, view, hview, -, -, q', hq', -, -, collected, hcollect, curve, -,
    delivered, hdeliver, _, -, h⟩ := h
  obtain rfl : q = q' := Except.ok.inj (hq.symm.trans hq')
  have hne := quote_ne_meme_of_tradable hview
  obtain ⟨hin, hinOther⟩ := collectQuote_spec hcaller hvalue hcollect
  obtain ⟨hout, houtOther⟩ := transferTokenExact_spec hdeliver
  rw [hinOther _ hne.symm] at hout
  have hquoteNow := houtOther _ hne
  split at h
  · simp only [bind_eq_ok, pure_eq_ok, Except.ok.injEq, Prod.mk.injEq] at h
    obtain ⟨paid, hpaid, rfl, -⟩ := h
    obtain ⟨hback, hbackOther⟩ := transferQuoteExact_spec hpaid
    refine ⟨?_, ?_⟩
    · dsimp only at hquote ⊢; omega
    · dsimp only at htokens ⊢; rw [hbackOther _ hne.symm]; omega
  · rename_i hzero
    simp only [pure_eq_ok, Except.ok.injEq, Prod.mk.injEq] at h
    obtain ⟨rfl, -⟩ := h
    refine ⟨?_, ?_⟩
    · dsimp only at hquote ⊢; omega
    · dsimp only at htokens ⊢; omega

/-- What crediting a sweep does to the balances: exactly the swept quote leaves. -/
theorem creditSweep_balances {credit : CurveCredit} (h : creditSweep calls imm s credit = .ok s') :
    s.balances imm.quoteAsset imm.self ≤ s'.balances imm.quoteAsset imm.self + credit.amount ∧
      ∀ a, a ≠ imm.quoteAsset → s'.balances a imm.self = s.balances a imm.self := by
  simp only [creditSweep, bind_eq_ok] at h
  obtain ⟨_, -, h⟩ := h
  split at h
  · rename_i hnative
    simp only [bind_eq_ok, orRevert_eq_ok, pure_eq_ok, Except.ok.injEq] at h
    obtain ⟨paid, hpaid, _, -, rfl⟩ := h
    rw [hnative]
    exact ⟨Balances.le_of_move_sender hpaid, fun a ha => Balances.move_other hpaid ha imm.self⟩
  · simp only [bind_eq_ok, pure_eq_ok, Except.ok.injEq] at h
    obtain ⟨paid, hpaid, _, -, rfl⟩ := h
    exact transferTokenExact_spec hpaid

/-- A sweep keeps the curve backed. -/
theorem sweepFees_backed {view : MarketView} (hne : imm.quoteAsset ≠ imm.memeToken)
    (hs : Accounted imm s.curve) (hb : Backed imm s)
    (h : sweepFees platform calls imm view s = .ok (s', events)) : Backed imm s' := by
  have hsame := sweepFees_collateral hs h
  obtain ⟨-, -, hquote, htokens, -⟩ := hsame
  have hbq := hb.quote_le
  have hbt := hb.tokens_le
  have hfees := hs.fees_le
  simp only [State.netQuote] at hquote
  unfold sweepFees at h
  dsimp only at h
  split at h
  · simp only [pure_eq_ok, Except.ok.injEq, Prod.mk.injEq] at h
    obtain ⟨rfl, -⟩ := h
    exact hb
  · simp only [bind_eq_ok, pure_eq_ok, Except.ok.injEq, Prod.mk.injEq] at h
    obtain ⟨-, -, swept, -, t, ht, rfl, -⟩ := h
    obtain ⟨hpaid, hother⟩ := creditSweep_balances ht
    dsimp only at hpaid hother hquote htokens
    refine ⟨?_, ?_⟩
    · dsimp only; omega
    · dsimp only; rw [hother _ hne.symm]; omega

/-- **One step keeps the curve backed.** -/
theorem backed_step (hs : Collateralised imm s.curve) (hb : Backed imm s)
    (h : Step platform calls imm s events s') : Backed imm s' := by
  cases h with
  | buy call quoteIn minOut recipient hcaller h =>
    obtain ⟨traded, bought, htrade, ⟨-, rfl, -⟩ | ⟨-, more, hfinal, -⟩⟩ := buy_cases h
    · exact buyTrade_backed hcaller hs hb htrade
    · -- A completed curve tracks nothing, and so needs no backing.
      obtain ⟨view, swept, -, hcurve⟩ := finalizeLaunch_curve hfinal
      refine ⟨?_, ?_⟩ <;> rw [hcurve] <;> exact Nat.zero_le _
  | sell call tokensIn minOut recipient hcaller h =>
    obtain ⟨-, q, hq, hreal, hcurve⟩ := sell_curve h
    have hsound := sellQuote_sound hq
    obtain ⟨-, -, htokens, -, hquote, -⟩ := applySell_spec hs.toAccounted hsound hreal hcurve
    have hbq := hb.quote_le
    have hbt := hb.tokens_le
    simp only [sell, bind_eq_ok, pure_eq_ok, Except.ok.injEq, Prod.mk.injEq] at h
    obtain ⟨-, -, view, hview, -, -, q', hq', -, -, _, -, -, -, collected, hcollect, curve, -, paid,
      hpaid, rfl, -⟩ := h
    obtain rfl : q = q' := Except.ok.inj (hq.symm.trans hq')
    have hne := quote_ne_meme_of_tradable hview
    obtain ⟨hin, hinOther⟩ := collectTokenExact_spec hcollect
    obtain ⟨hout, houtOther⟩ := transferQuoteExact_spec hpaid
    rw [hinOther _ hne] at hout
    refine ⟨?_, ?_⟩
    · dsimp only at hquote ⊢; omega
    · dsimp only at htokens ⊢; rw [houtOther _ hne.symm]; omega
  | sweep call h =>
    simp only [sweepCurveFees, bind_eq_ok] at h
    obtain ⟨-, -, view, hview, -, -, hsweep⟩ := h
    exact sweepFees_backed (quote_ne_meme hview) hs.toAccounted hb hsweep
  | environment rest balances h => exact ⟨hb.quote_le.trans (h _), hb.tokens_le.trans (h _)⟩

theorem backed_init (h : Init imm s) : Backed imm s := by
  obtain ⟨reserves, hreserves, hcurve, hbalance⟩ := h
  obtain ⟨R, sellable, -, rfl⟩ := SupplyMath.initializeReserves_eq_ok hreserves
  refine ⟨?_, ?_⟩
  · rw [hcurve]; exact Nat.zero_le _
  · rw [hcurve]; exact hbalance.ge

/-- **Every reachable curve is backed.** -/
theorem backed_of_reachable (h : Reachable platform calls imm s) : Backed imm s :=
  (h.invariant (I := fun s => Collateralised imm s.curve ∧ Backed imm s)
    (fun _ h => ⟨collateralised_init h, backed_init h⟩)
    fun _ _ _ h hstep => ⟨collateralised_step h.1 hstep, backed_step h.1 h.2 hstep⟩).2

/-! ### Sells are payable -/

/-- **The gross quote of a sell is within the net quote**, whenever the tokens sold and
the tokens tracked are within the supply: the product bound leaves the phantom quote
in the price, so that what the sell takes is real. -/
theorem gross_le_netQuote {tokensIn minOut : ℕ} {q : CurveMath.SellQuote}
    (hs : Collateralised imm s.curve) (hopen : s.curve.completed = false)
    (hin : tokensIn ≤ imm.initialSupply - s.curve.reserves.trackedTokens)
    (hq : sellQuote imm s.curve tokensIn minOut = .ok q) : q.grossQuoteOut ≤ s.curve.netQuote := by
  have hsound := sellQuote_sound hq
  have hproduct := hs.product_ge hopen
  rw [product_eq hs.toAccounted] at hproduct
  have hcovered := hsound.covered
  have hpos := hsound.tokensIn_pos
  set x := imm.phantomQuote + s.curve.netQuote with hx
  set y := s.curve.reserves.trackedTokens
  have hsupply : y + tokensIn ≤ imm.initialSupply := by omega
  have hgross : q.grossQuoteOut ≤ x := by
    refine Nat.le_of_mul_le_mul_right (hcovered.trans ?_) (by omega : 0 < y + tokensIn)
    rw [Nat.mul_comm x]
    exact Nat.mul_le_mul_right _ (by omega)
  have hafter : imm.phantomQuote * (y + tokensIn) ≤ (x - q.grossQuoteOut) * (y + tokensIn) :=
    calc imm.phantomQuote * (y + tokensIn) ≤ imm.phantomQuote * imm.initialSupply :=
          Nat.mul_le_mul_left _ hsupply
      _ ≤ x * y := hproduct
      _ ≤ (x - q.grossQuoteOut) * (y + tokensIn) := product_le_of_sell hgross hcovered
  have := Nat.le_of_mul_le_mul_right hafter (by omega : 0 < y + tokensIn)
  omega

/-- A completed curve quotes no sell: it has no tokens to price with. -/
theorem open_of_sellQuote {tokensIn minOut : ℕ} {q : CurveMath.SellQuote}
    (hs : Collateralised imm s.curve) (hq : sellQuote imm s.curve tokensIn minOut = .ok q) :
    s.curve.completed = false := by
  by_contra hdone
  obtain ⟨-, hzero⟩ := hs.cleared (by simpa using hdone)
  simp only [sellQuote, CurveMath.quoteSell, bind_eq_ok, Prod.exists] at hq
  obtain ⟨x, y, hxy, -, -, gross, hgross, -⟩ := hq
  obtain ⟨-, rfl⟩ := pricingReserves_of_accounted hxy
  have := (CurveMath.amountOut_eq_ok hgross).2.1
  omega

/-- Pricing a sell fails with an error of the libraries or a panic, never with one of the
curve. -/
theorem sellQuote_failsOnly {st : State} {tokensIn minOut : ℕ} :
    FailsOnly (sellQuote imm st tokensIn minOut) fun e => ∀ c, e ≠ .curve c := by
  simp [sellQuote, SupplyMath.pricingReserves, CurveMath.quoteSell, CurveMath.validatedTotalFee,
    CurveMath.amountOut, CurveMath.netAfterFees, CurveMath.checkedAdd, CurveMath.checkedMul,
    failsOnly_uadd, failsOnly_usub, failsOnly_umul, failsOnly_mulDiv]

/-- Paying out quote fails with a failed or an inexact transfer. -/
theorem transferQuoteExact_failsOnly {self quote recipient : Address} {amount : ℕ}
    {b : Balances} {P : Revert → Prop}
    (hcall : ∀ token, P (.curve (.transferCallFailed token)))
    (hnative : ∀ holder n, P (.curve (.nativeTransferFailed holder n)))
    (hinexact : ∀ token n n', P (.curve (.inexactBalanceDelta token n n'))) :
    FailsOnly (transferQuoteExact self quote recipient amount b) P := by
  simp [transferQuoteExact, transferTokenExact, hcall, hnative, hinexact]

/-- **The reserve guard of a sell is unreachable**: a sell of tokens in circulation can
fail with its error only if the registry has failed with it. -/
theorem sell_failsOnly {call : Call} {tokensIn minOut available required : ℕ}
    {recipient : Address} (hs : Collateralised imm s.curve)
    (hin : tokensIn ≤ imm.initialSupply - s.curve.reserves.trackedTokens) :
    FailsOnly (sell calls imm call s tokensIn minOut recipient) fun e =>
      e = .curve (.insufficientTrackedQuote available required) →
        calls.market s.rest imm.marketId = .error e := by
  unfold sell
  simp only [failsOnly_bind, failsOnly_revertIf]
  refine ⟨by simp, fun _ _ => ⟨?_, fun view _ => ⟨?_, fun _ _ => ⟨?_, fun q hq => ?_⟩⟩⟩⟩
  · simp only [requireTradable, requireRegisteredCurve, failsOnly_bind]
    exact ⟨⟨fun e he _ => he, by simp⟩, by simp⟩
  · simp [requireRecipient]
  · exact sellQuote_failsOnly.mono fun e he hc => absurd hc (he _)
  refine ⟨by simp, fun _ _ => ⟨failsOnly_usub (by simp), fun real hreal => ⟨?_, fun _ _ => ?_⟩⟩⟩
  · -- The guard itself: the gross quote is within the real reserve.
    obtain ⟨-, rfl⟩ := usub_eq_ok.mp hreal
    exact fun h => absurd h (gross_le_netQuote hs (open_of_sellQuote hs hq) hin hq).not_gt
  refine ⟨by simp [collectTokenExact], fun _ _ => ⟨?_, fun _ _ => ⟨?_, fun _ _ => by simp⟩⟩⟩
  · simp [applySell, failsOnly_uadd, failsOnly_usub]
  · exact transferQuoteExact_failsOnly (by simp) (by simp) (by simp)

/-! ### What the traders pay and are paid -/

/-- The quote a buy adds to the price: what was spent, without the fees. -/
def Event.netQuoteIn : Event → ℕ
  | .curveBuy _ _ quoteSpent _ fee surcharge => quoteSpent - fee - surcharge
  | _ => 0

/-- The quote a sell pays out. -/
def Event.quoteOut : Event → ℕ
  | .curveSell _ _ _ quoteOut _ _ => quoteOut
  | _ => 0

/-- The net quote traders have paid in, according to a list of events. -/
def paidIn (events : List Event) : ℕ := (events.map Event.netQuoteIn).sum

/-- The quote traders have been paid, according to a list of events. -/
def paidOut (events : List Event) : ℕ := (events.map Event.quoteOut).sum

@[simp] theorem paidIn_append (l l' : List Event) : paidIn (l ++ l') = paidIn l + paidIn l' := by
  simp [paidIn]

@[simp] theorem paidOut_append (l l' : List Event) :
    paidOut (l ++ l') = paidOut l + paidOut l' := by
  simp [paidOut]

/-- The events of a sweep are no payments of traders. -/
theorem sweepFees_events {view : MarketView}
    (h : sweepFees platform calls imm view s = .ok (s', events)) :
    paidIn events = 0 ∧ paidOut events = 0 := by
  unfold sweepFees at h
  dsimp only at h
  split at h
  · simp only [pure_eq_ok, Except.ok.injEq, Prod.mk.injEq] at h
    obtain ⟨-, rfl⟩ := h
    exact ⟨rfl, rfl⟩
  · simp only [bind_eq_ok, pure_eq_ok, Except.ok.injEq, Prod.mk.injEq] at h
    obtain ⟨-, -, swept, -, t, -, -, rfl⟩ := h
    exact ⟨rfl, rfl⟩

/-- The events of a trade are the buy, and before it the refund if there is one. -/
theorem events_of_buyTrade {call : Call} {quoteIn minOut : ℕ} {recipient : Address}
    {q : AntiSnipe.AntiSnipeBuyQuote}
    (hq : buyQuote imm s.curve call.timestamp quoteIn minOut recipient call.caller = .ok q)
    (h : buyTrade calls imm call s quoteIn minOut recipient = .ok (s', events)) :
    ∃ refunds, (refunds = [] ∨ refunds = [Event.curveBuyRefunded call.caller q.curveQuote.refund]) ∧
      events = refunds ++ [.curveBuy call.caller recipient q.curveQuote.quoteSpent
        q.curveQuote.tokensOut q.curveQuote.fee
        (q.curveQuote.additionalQuoteFee + q.curveQuote.creatorTaxFee)] := by
  simp only [buyTrade, bind_eq_ok, uadd_eq_ok] at h
  obtain ⟨_, -, _, -, -, -, q', hq', -, -, _, -, _, -, _, -, _, ⟨-, rfl⟩, h⟩ := h
  obtain rfl : q = q' := Except.ok.inj (hq.symm.trans hq')
  split at h
  · simp only [bind_eq_ok, pure_eq_ok, Except.ok.injEq, Prod.mk.injEq] at h
    obtain ⟨_, -, -, rfl⟩ := h
    exact ⟨_, Or.inr rfl, rfl⟩
  · simp only [pure_eq_ok, Except.ok.injEq, Prod.mk.injEq] at h
    obtain ⟨-, rfl⟩ := h
    exact ⟨[], Or.inl rfl, rfl⟩

/-- The events of a trade record what it added to the net quote. -/
theorem buyTrade_events {call : Call} {quoteIn minOut : ℕ} {recipient : Address}
    (hs : Collateralised imm s.curve)
    (h : buyTrade calls imm call s quoteIn minOut recipient = .ok (s', events)) :
    s'.curve.netQuote = s.curve.netQuote + paidIn events ∧ paidOut events = 0 := by
  obtain ⟨-, q, hq, hcurve⟩ := buyTrade_curve h
  have hsound := buyQuote_sound hq
  obtain ⟨-, hnet, -⟩ := applyBuy_spec hs.toAccounted hsound hcurve
  have hspent := hsound.spent_eq
  obtain ⟨refunds, hrefunds, rfl⟩ := events_of_buyTrade hq h
  rcases hrefunds with rfl | rfl <;>
  · simp only [hnet, paidIn, paidOut, List.map_append, List.map_cons, List.map_nil, List.sum_append,
      List.sum_cons, List.sum_nil, Event.netQuoteIn, Event.quoteOut]
    omega

/-- **One step keeps the account of the traders**: what they are paid, with what the
curve holds beyond its fees, grows by no more than what they pay in. -/
theorem paid_step (hs : Collateralised imm s.curve) (h : Step platform calls imm s events s') :
    paidOut events + s'.curve.netQuote ≤ paidIn events + s.curve.netQuote := by
  cases h with
  | buy call quoteIn minOut recipient hcaller h =>
    obtain ⟨traded, bought, htrade, ⟨-, rfl, rfl⟩ | ⟨-, more, hfinal, rfl⟩⟩ := buy_cases h
    · obtain ⟨hnet, hout⟩ := buyTrade_events hs htrade
      omega
    · obtain ⟨hnet, hout⟩ := buyTrade_events hs htrade
      obtain ⟨view, swept, hsweep, hcurve⟩ := finalizeLaunch_curve hfinal
      obtain ⟨hmoreIn, hmoreOut⟩ := sweepFees_events hsweep
      have hcompleted : paidIn [Event.curveCompleted imm.marketId] = 0 ∧
        paidOut [Event.curveCompleted imm.marketId] = 0 := ⟨rfl, rfl⟩
      have hzero : s'.curve.netQuote = 0 := by rw [hcurve]; simp [State.netQuote]
      simp only [paidIn_append, paidOut_append]
      omega
  | sell call tokensIn minOut recipient hcaller h =>
    obtain ⟨-, q, hq, hreal, hcurve⟩ := sell_curve h
    have hsound := sellQuote_sound hq
    obtain ⟨-, hnet, -⟩ := applySell_spec hs.toAccounted hsound hreal hcurve
    have hgross := hsound.gross_eq
    simp only [sell, bind_eq_ok, pure_eq_ok, Except.ok.injEq, Prod.mk.injEq] at h
    obtain ⟨-, -, _, -, -, -, q', hq', -, -, _, -, -, -, _, -, _, -, _, -, -, rfl⟩ := h
    obtain rfl : q = q' := Except.ok.inj (hq.symm.trans hq')
    simp only [paidIn, paidOut, List.map_cons, List.map_nil, List.sum_cons, List.sum_nil,
      Event.netQuoteIn, Event.quoteOut]
    omega
  | sweep call h =>
    simp only [sweepCurveFees, bind_eq_ok] at h
    obtain ⟨-, -, view, -, -, -, hsweep⟩ := h
    obtain ⟨hin, hout⟩ := sweepFees_events hsweep
    obtain ⟨-, hnet, -⟩ := sweepFees_collateral hs.toAccounted hsweep
    omega
  | environment rest balances h => exact le_rfl

/-- **Over a run, the traders are paid no more than they paid in.** -/
theorem paidOut_le_paidIn {es : List (List Event)} (hinit : Init imm s)
    (h : Transition.Run (Step platform calls imm) s es s') :
    paidOut es.flatten ≤ paidIn es.flatten := by
  have hrun := h.invariant_history
    (I := fun es t => Collateralised imm t.curve ∧
      paidOut es.flatten + t.curve.netQuote ≤ paidIn es.flatten)
    (fun es t e u ⟨ht, hpaid⟩ hstep => by
      refine ⟨collateralised_step ht hstep, ?_⟩
      have hone := paid_step ht hstep
      simp only [List.flatten_append, List.flatten_singleton, paidIn_append, paidOut_append]
      omega)
    ⟨collateralised_init hinit, by
      obtain ⟨reserves, hreserves, hcurve, -⟩ := hinit
      obtain ⟨R, sellable, -, rfl⟩ := SupplyMath.initializeReserves_eq_ok hreserves
      rw [hcurve]
      exact le_rfl⟩
  exact (Nat.le_add_right _ _).trans hrun.2

/-- **The curve is solvent, and no cycle of trades is profitable.** At the end of any run
from a deployment: the creator tax is part of the accrued fees, these of the tracked
quote, and this of the quote balance, as the tracked tokens are of the token balance;
every sell of tokens in circulation is payable from the net quote, so that the guard of
`sell` does not fire; and the traders have been paid no more than they paid in. -/
theorem curve_solvent {es : List (List Event)} (hinit : Init imm s)
    (h : Transition.Run (Step platform calls imm) s es s') :
    s'.curve.accruedCreatorTax ≤ s'.curve.reserves.accruedQuoteFees ∧
    s'.curve.reserves.accruedQuoteFees ≤ s'.curve.reserves.trackedQuote ∧
    s'.curve.reserves.trackedQuote ≤ s'.balances imm.quoteAsset imm.self ∧
    s'.curve.reserves.trackedTokens ≤ s'.balances imm.memeToken imm.self ∧
    (∀ tokensIn minOut, tokensIn ≤ imm.initialSupply - s'.curve.reserves.trackedTokens →
      (∀ q, sellQuote imm s'.curve tokensIn minOut = .ok q →
        q.grossQuoteOut ≤ s'.curve.reserves.trackedQuote - s'.curve.reserves.accruedQuoteFees) ∧
      ∀ call recipient available required,
        sell calls imm call s' tokensIn minOut recipient
            = .error (.curve (.insufficientTrackedQuote available required)) →
          calls.market s'.rest imm.marketId
            = .error (.curve (.insufficientTrackedQuote available required))) ∧
    paidOut es.flatten ≤ paidIn es.flatten := by
  have hreach : Reachable platform calls imm s' := ⟨s, es, hinit, h⟩
  have hs := collateralised_of_reachable hreach
  have hb := backed_of_reachable hreach
  refine ⟨hs.tax_le, hs.fees_le, hb.quote_le, hb.tokens_le, fun tokensIn minOut hin => ⟨?_, ?_⟩,
    paidOut_le_paidIn hinit h⟩
  · exact fun q hq => gross_le_netQuote hs (open_of_sellQuote hs hq) hin hq
  · exact fun call recipient available required herr => sell_failsOnly hs hin _ herr rfl

end Contract

end Curve

/-! ### The small market trades -/

namespace Sample

/-- A buy of 60 by account 20, which leaves the curve trading. -/
def firstBuy : Except Revert (System Bool × List Event) :=
  buy DocumentedV4.platform calls imm { caller := 20, value := 60, timestamp := 100 } start 60 1 20

theorem firstBuy_isOk : firstBuy.isOk = true := by decide +kernel

/-- The state after the first buy. -/
def bought : System Bool := (value firstBuy firstBuy_isOk).1

/-- Account 20 sells 100 tokens back. -/
def thenSell : Except Revert (System Bool × List Event) :=
  sell calls imm { caller := 20, value := 0, timestamp := 101 } bought 100 1 20

theorem thenSell_isOk : thenSell.isOk = true := by decide +kernel

/-- The run of the two trades. -/
theorem run_trades : Transition.Run (Step DocumentedV4.platform calls imm) start
    [(value firstBuy firstBuy_isOk).2, (value thenSell thenSell_isOk).2]
    (value thenSell thenSell_isOk).1 :=
  (Transition.Run.single (Step.buy _ 60 1 20 (by decide) (eq_ok_value firstBuy_isOk))).snoc
    (Step.sell _ 100 1 20 (by decide) (eq_ok_value thenSell_isOk))

end Sample

/-- The small market, after a buy and a sell, has paid out no more than it was paid. -/
theorem curve_solvent_sample :
    paidOut [(value Sample.firstBuy Sample.firstBuy_isOk).2,
        (value Sample.thenSell Sample.thenSell_isOk).2].flatten ≤
      paidIn [(value Sample.firstBuy Sample.firstBuy_isOk).2,
        (value Sample.thenSell Sample.thenSell_isOk).2].flatten :=
  (curve_solvent Sample.init_start Sample.run_trades).2.2.2.2.2

end Curve

end TickerGarden
