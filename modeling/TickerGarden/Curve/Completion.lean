import TickerGarden.Curve.Collateral
import TickerGarden.Curve.QuoteLaws
import TickerGarden.Graduation.PoolMath

/-!
# Every curve can be completed

A curve graduates in the buy that takes the last sellable token, so a state whose remaining
inventory no buy could take would be a dead end. This file shows that there is none, as long
as the arithmetic has room: a payment large enough to price *one token more* than the inventory
makes the quote a clipped one.

Everything a quote computes is then bounded by the payment. The inventory costs no more than
the payment (`TickerGarden.CurveMath.need_le_payment`), and the gross-up of that cost is at
most a hundredfold, since no combination of fees leaves less than a hundredth – this is what
the cap of the surcharge is for, `TickerGarden.AntiSnipe.total_le_of_effective`. At least two
tokens are reserved, because one reserved token would leave no token for the pool.
-/

namespace TickerGarden

open Checked

namespace CurveMath

section Quote

variable {n x y r f g t : ℕ}

/-! ### The parts of a clipped quote -/

/-- The fee legs of an amount that fits a word. -/
theorem buyFees_isOk (hn : n ≤ maxUint256) (hrates : f + (g + t) < bpsDenominator) :
    ∃ fees, buyFees n f g t = .ok fees := by
  have hleg : ∀ rate, n * rate / bpsDenominator * bpsDenominator ≤ n * rate :=
    fun rate => div_mul_le _ _
  have hrate : n * (f + (g + t)) ≤ n * bpsDenominator := Nat.mul_le_mul_left n hrates.le
  have hsplit : n * (f + (g + t)) = n * f + (n * g + n * t) := by ring
  have hf := hleg f
  have hg := hleg g
  have ht := hleg t
  -- together the legs are at most the amount, so that no subtraction fails
  have hsum : n * f / bpsDenominator + n * g / bpsDenominator + n * t / bpsDenominator ≤ n := by
    refine Nat.le_of_mul_le_mul_right ?_ (by decide : 0 < bpsDenominator)
    rw [Nat.add_mul, Nat.add_mul]
    omega
  simp only [buyFees, netAfterFees, bind_eq_ok, mulDiv_eq_ok, usub_eq_ok, pure_eq_ok,
    Except.ok.injEq, Prod.exists, Prod.mk.injEq]
  generalize n * f / bpsDenominator = fee at hsum ⊢
  generalize n * g / bpsDenominator = additional at hsum ⊢
  generalize n * t / bpsDenominator = tax at hsum ⊢
  have hbps : bpsDenominator ≠ 0 := by decide
  exact ⟨_, fee, additional, n - fee - additional,
    ⟨fee, ⟨hbps, by omega, rfl⟩, additional, ⟨hbps, by omega, rfl⟩, n - fee, ⟨by omega, rfl⟩,
      n - fee - additional, ⟨by omega, rfl⟩, rfl, rfl, rfl⟩,
    tax, ⟨hbps, by omega, rfl⟩, n - fee - additional - tax, ⟨by omega, rfl⟩, rfl⟩

/-- The cost of an output of which the rest of the reserve is positive. -/
theorem amountIn_isOk {out : ℕ} (hout : 0 < out) (hx : 0 < x) (hlt : out < y)
    (hxs : x * bpsDenominator ≤ maxUint256) (hys : (y - out) * bpsDenominator ≤ maxUint256)
    (hcost : out * x / (y - out) < maxUint256) :
    amountIn out x y 0 = .ok (out * x / (y - out) + 1) := by
  have hfactor : out * (x * bpsDenominator) / ((y - out) * bpsDenominator)
      = out * x / (y - out) := by
    rw [← Nat.mul_assoc]
    exact Nat.mul_div_mul_right _ _ (by decide)
  have hpos : 0 < (y - out) * bpsDenominator := Nat.mul_pos (Nat.sub_pos_of_lt hlt) (by decide)
  simp only [amountIn, bind_eq_ok, revertIf_eq_ok, checkedMul_eq_ok_iff, checkedAdd_eq_ok,
    mulDiv_eq_ok, Nat.sub_zero]
  exact ⟨(), by omega, (), by omega, (), by decide, _, ⟨hxs, rfl⟩, _, ⟨hys, rfl⟩, _,
    ⟨hpos.ne', hfactor.symm ▸ hcost.le, rfl⟩, by omega, by rw [hfactor]⟩

/-- What a clipped buy spends, when the rates leave a hundredth at least. -/
theorem clippedSpend_isOk {need total : ℕ} (htotal : total ≤ 9900)
    (hneed : need * 100 ≤ maxUint256) :
    clippedSpend need total n = .ok (min ((need * bpsDenominator
      + (bpsDenominator - total) - 1) / (bpsDenominator - total)) n) := by
  have hshare : 100 ≤ bpsDenominator - total := by rw [bpsDenominator]; omega
  have hceil : (need * bpsDenominator + (bpsDenominator - total) - 1) / (bpsDenominator - total)
      ≤ need * 100 := by
    refine ceil_le (by omega) ?_
    rw [Nat.mul_assoc]
    exact Nat.mul_le_mul_left need (by rw [bpsDenominator] at hshare ⊢; omega)
  simp only [clippedSpend, bind_eq_ok, mulDivUp_eq_ok, pure_eq_ok, Except.ok.injEq]
  exact ⟨_, ⟨by omega, hceil.trans hneed, rfl⟩, rfl⟩

/-! ### The completing quote -/

/-- A payment that prices one token more than the inventory is more than what the inventory
costs. -/
theorem need_le_payment (hr : 2 ≤ r) (hx : 0 < x)
    (hpays : bpsDenominator * (y - r + 1) * x ≤ (bpsDenominator - (f + (g + t))) * n * (r - 1)) :
    (y - r) * x / r + 1 ≤ n := by
  have hbps : bpsDenominator * ((y - r + 1) * x) ≤ bpsDenominator * (n * (r - 1)) := by
    calc bpsDenominator * ((y - r + 1) * x) = bpsDenominator * (y - r + 1) * x :=
          (Nat.mul_assoc _ _ _).symm
      _ ≤ (bpsDenominator - (f + (g + t))) * n * (r - 1) := hpays
      _ ≤ bpsDenominator * n * (r - 1) :=
          Nat.mul_le_mul_right _ (Nat.mul_le_mul_right _ (Nat.sub_le _ _))
      _ = bpsDenominator * (n * (r - 1)) := Nat.mul_assoc _ _ _
  have hle : (y - r + 1) * x ≤ n * (r - 1) := Nat.le_of_mul_le_mul_left hbps (by decide)
  have hlt : (y - r) * x < n * r := by
    rw [Nat.add_mul, Nat.one_mul] at hle
    have : n * (r - 1) ≤ n * r := Nat.mul_le_mul_left n (Nat.sub_le r 1)
    omega
  exact (Nat.div_lt_iff_lt_mul (by omega)).mpr hlt

/-- **A large payment makes the quote a clipped one.** If the payment prices one token more
than the inventory, and its sum with the quote reserve fits a word after scaling, then the
quote goes through, and takes the whole inventory. -/
theorem quoteBuy_clipped (hrates : f + (g + t) ≤ 9900) (hr : 2 ≤ r) (hry : r < y)
    (hy : y ≤ maxUint256) (hrs : r * bpsDenominator ≤ maxUint256) (hx : 0 < x)
    (hfits : bpsDenominator * (n + x) ≤ maxUint256)
    (hpays : bpsDenominator * (y - r + 1) * x ≤ (bpsDenominator - (f + (g + t))) * n * (r - 1)) :
    ∃ fees, quoteBuyWithCreatorTax n x y r f g t 0 = .ok (clippedFill n 0 (y - r)
      ((y - r) * x / r + 1) (min ((((y - r) * x / r + 1) * bpsDenominator
        + (bpsDenominator - (f + (g + t))) - 1) / (bpsDenominator - (f + (g + t)))) n) fees) := by
  have hlt : f + (g + t) < bpsDenominator := by rw [bpsDenominator]; omega
  have hneed := need_le_payment hr hx hpays
  have hbps : bpsDenominator = 10000 := rfl
  have hn : n ≤ maxUint256 := by rw [hbps] at hfits; omega
  obtain ⟨full, hfull⟩ := buyFees_isOk (f := f) (g := g) (t := t) hn hlt
  -- the net quote buys more than the inventory
  have hshare := share_le_netQuote hfull hlt
  have hcovers : (y - r + 1) * x ≤ full.netQuote * (y - (y - r + 1)) := by
    refine Nat.le_of_mul_le_mul_left ?_ (by decide : 0 < bpsDenominator)
    rw [show y - (y - r + 1) = r - 1 by omega]
    calc bpsDenominator * ((y - r + 1) * x) = bpsDenominator * (y - r + 1) * x :=
          (Nat.mul_assoc _ _ _).symm
      _ ≤ (bpsDenominator - (f + (g + t))) * n * (r - 1) := hpays
      _ = n * (bpsDenominator - (f + (g + t))) * (r - 1) := by rw [Nat.mul_comm n]
      _ ≤ full.netQuote * bpsDenominator * (r - 1) := Nat.mul_le_mul_right _ hshare
      _ = bpsDenominator * (full.netQuote * (r - 1)) := by ring
  have hmore : y - r + 1 ≤ full.netQuote * y / (x + full.netQuote) :=
    le_output_of_covers hcovers hx (by omega)
  have hnet : 0 < full.netQuote := by
    refine Nat.pos_of_ne_zero fun hzero => ?_
    rw [hzero, Nat.zero_mul, Nat.zero_div] at hmore
    omega
  obtain ⟨-, -, -, hlegs⟩ := buyFees_eq_ok hfull
  have hout : amountOut full.netQuote x y 0 = .ok (full.netQuote * y / (x + full.netQuote)) := by
    refine (amountOut_eq_ok_iff hy).mpr ⟨⟨hnet, hx, by omega⟩, ?_, by omega, rfl⟩
    rw [hbps] at hfits ⊢
    omega
  -- what is computed for the clipped form stays in range
  have hrest : y - (y - r) = r := by omega
  have hin : amountIn (y - r) x y 0 = .ok ((y - r) * x / r + 1) := by
    have h := amountIn_isOk (x := x) (y := y) (Nat.sub_pos_of_lt hry) hx (by omega)
      (by rw [hbps] at hfits ⊢; omega) (by rw [hrest]; exact hrs) (by rw [hrest]; omega)
    rw [hrest] at h
    exact h
  have hspend := clippedSpend_isOk (n := n) hrates
    (show ((y - r) * x / r + 1) * 100 ≤ maxUint256 by rw [hbps] at hfits; omega)
  obtain ⟨fees, hfees⟩ := buyFees_isOk (f := f) (g := g) (t := t)
    ((Nat.min_le_right ((((y - r) * x / r + 1) * bpsDenominator
      + (bpsDenominator - (f + (g + t))) - 1) / (bpsDenominator - (f + (g + t)))) n).trans hn) hlt
  refine ⟨fees, ?_⟩
  rw [quoteBuyWithCreatorTax_eq hlt hry, hfull, ok_bind, hout, ok_bind, if_pos (by omega), hin,
    ok_bind, hspend, ok_bind, hfees, ok_bind]
  rfl

end Quote

end CurveMath

namespace AntiSnipe

open CurveMath

/-- The surcharge leaves the minimum net share: with it, the rates of a buy stay at 99%. -/
theorem total_le_of_effective (elapsed : ℕ) (exempt : Bool) {feeBps : ℕ} (h : feeBps ≤ 9900) :
    ∃ raw effective, effectiveSnipeBps elapsed exempt feeBps = .ok (raw, effective) ∧
      feeBps + effective ≤ 9900 := by
  have hguard : ¬ feeBps > bpsDenominator - creatorTaxBps - minimumNetBps := by
    rw [bpsDenominator, creatorTaxBps, minimumNetBps]
    omega
  refine ⟨_, _, by rw [effectiveSnipeBps, revertIf_neg hguard, ok_bind]; rfl, ?_⟩
  rw [bpsDenominator, creatorTaxBps, minimumNetBps]
  split_ifs <;> omega

/-- Whether a buy is exempt is decided for every recipient but zero. -/
theorem isExempt_isOk {recipient caller : Address} {context : ExemptionContext}
    (hrecipient : recipient ≠ 0) (hcreator : context.creator ≠ 0)
    (hbeneficiary : context.beneficiaryAtCreation ≠ 0) (hrouter : context.launchRouter ≠ 0) :
    ∃ exempt, isExempt recipient caller context = .ok exempt := by
  simp only [isExempt, bind_eq_ok, revertIf_eq_ok, pure_eq_ok, Except.ok.injEq, not_or]
  exact ⟨_, (), hrecipient, (), ⟨hcreator, hbeneficiary⟩, (), hrouter, rfl⟩

end AntiSnipe

namespace EconomicDomain

open SupplyMath

/-- **At least two tokens of an accepted economics are reserved**: of a single one, no whole
token would go to the pool. -/
theorem two_le_reserved {platform : Platform} {baseline : TickerGardenBaseline}
    {quote : QuoteAssetConfig} {reserved poolQuote poolMeme locked : ℕ}
    {quoteFirst memeFirst : PoolMath.PoolPlan}
    (h : Admitted platform baseline quote reserved poolQuote poolMeme locked quoteFirst memeFirst) :
    2 ≤ reserved := by
  obtain ⟨⟨hpos, -, hphantom, -⟩, -, hpool, hpool0, -⟩ := graduationPartition_eq_ok.mp h.poolMeme_eq
  by_contra hlt
  obtain rfl : reserved = 1 := by omega
  rw [Nat.one_mul, Nat.div_eq_of_lt (by omega)] at hpool
  omega

end EconomicDomain

namespace Curve

section Contract

variable {W : Type} {platform : Platform} {calls : Externals W} {imm : Immutables}
  {s s' : System W} {events : List Event}

/-! ### The tracked tokens fit a word -/

/-- A trade keeps the tracked tokens in range: a buy takes some, a sell is checked. -/
theorem tokens_le_of_step (hs : Collateralised imm s.curve)
    (hle : s.curve.reserves.trackedTokens ≤ maxUint256) (h : Step platform calls imm s events s') :
    s'.curve.reserves.trackedTokens ≤ maxUint256 := by
  cases h with
  | buy call quoteIn minOut recipient hcaller h =>
    obtain ⟨traded, bought, htrade, ⟨-, rfl, -⟩ | ⟨-, more, hfinal, -⟩⟩ := buy_cases h
    · obtain ⟨-, q, hq, hcurve⟩ := buyTrade_curve htrade
      obtain ⟨-, -, htokens, -⟩ := applyBuy_spec hs.toAccounted (buyQuote_sound hq) hcurve
      omega
    · obtain ⟨view, swept, -, hcurve⟩ := finalizeLaunch_curve hfinal
      rw [hcurve]
      exact Nat.zero_le _
  | sell call tokensIn minOut recipient hcaller h =>
    obtain ⟨-, q, -, -, hcurve⟩ := sell_curve h
    simp only [applySell, bind_eq_ok, uadd_eq_ok, pure_eq_ok, Except.ok.injEq] at hcurve
    obtain ⟨_, ⟨hsum, rfl⟩, _, -, _, -, _, -, _, -, heq⟩ := hcurve
    rw [← heq]
    exact hsum
  | sweep call h =>
    simp only [sweepCurveFees, bind_eq_ok] at h
    obtain ⟨-, -, view, -, -, -, hsweep⟩ := h
    rw [(sweepFees_collateral hs.toAccounted hsweep).2.2.2.1]
    exact hle
  | environment rest balances h => exact hle

/-- **The tracked tokens of a reachable curve fit a word**, if the supply does. -/
theorem tokens_le_of_reachable (hsupply : imm.initialSupply ≤ maxUint256)
    (h : Reachable platform calls imm s) : s.curve.reserves.trackedTokens ≤ maxUint256 := by
  refine (h.invariant (I := fun s => Collateralised imm s.curve ∧
    s.curve.reserves.trackedTokens ≤ maxUint256) (fun s hs => ?_) fun s e s' hs hstep => ?_).2
  · refine ⟨collateralised_init hs, ?_⟩
    obtain ⟨reserves, hreserves, hcurve, -⟩ := hs
    obtain ⟨R, sellable, -, rfl⟩ := SupplyMath.initializeReserves_eq_ok hreserves
    rw [hcurve]
    exact hsupply
  · exact ⟨collateralised_step hs.1 hstep, tokens_le_of_step hs.1 hs.2 hstep⟩

/-! ### Completion -/

/-- What the constructor checks of the rates and of the frozen identities. -/
theorem wired_of_validateInitialization {d : Deployment} {u : Unit}
    (h : validateInitialization imm d = .ok u) (hzero : d.hasCode 0 = false) :
    imm.creator ≠ 0 ∧ imm.beneficiaryAtCreation ≠ 0 ∧ imm.launchRouter ≠ 0 ∧
      imm.curveFeeBps + imm.creatorTaxBps ≤ 9900 := by
  simp only [validateInitialization, bind_eq_ok, revertIf_eq_ok, uadd_eq_ok, not_or, not_not,
    not_lt] at h
  obtain ⟨-, ⟨-, -, -, -, -, -, hrouter, hcreator, hbeneficiary, -⟩, _, ⟨-, rfl⟩, -, ⟨hfee, -⟩, -⟩ := h
  refine ⟨hcreator, hbeneficiary, fun hrouter0 => ?_, hfee⟩
  rw [hrouter0, hzero] at hrouter
  cases hrouter

/-- The quote reserve a trade is priced with. -/
def pricingQuote (imm : Immutables) (st : State) : ℕ := imm.phantomQuote + st.netQuote

/-- The tokens that are left to sell. -/
def sellable (st : State) : ℕ := st.reserves.trackedTokens - st.reserves.reservedTokens

/-- **A payment that completes the curve** when the rates of the buy add up to `rate`: it fits
a word together with the quote reserve, after scaling, and what the rates leave of it prices
one token more than are left to sell. -/
structure CompletingPayment (imm : Immutables) (st : State) (rate quoteIn : ℕ) : Prop where
  fits : CurveMath.bpsDenominator * (quoteIn + pricingQuote imm st) ≤ maxUint256
  pays : CurveMath.bpsDenominator * (sellable st + 1) * pricingQuote imm st
    ≤ (CurveMath.bpsDenominator - rate) * quoteIn * (st.reserves.reservedTokens - 1)

/-- The net quote the inventory costs. -/
def netRequired (imm : Immutables) (st : State) : ℕ :=
  sellable st * pricingQuote imm st / st.reserves.reservedTokens + 1

/-- The quote that leaves this net quote after the fees. -/
def grossRequired (imm : Immutables) (st : State) (rate : ℕ) : ℕ :=
  (netRequired imm st * CurveMath.bpsDenominator + (CurveMath.bpsDenominator - rate) - 1)
    / (CurveMath.bpsDenominator - rate)

/-- The identities a buy is compared with. -/
def exemptionContext (imm : Immutables) (st : State) (recipient caller : Address) :
    AntiSnipe.ExemptionContext where
  creator := imm.creator
  beneficiaryAtCreation := imm.beneficiaryAtCreation
  launchRouter := imm.launchRouter
  atomicFirstBuyRecipient :=
    if caller = imm.launchRouter ∧ ¬ st.hasExecutedTrade then recipient else 0

/-- **The stages of pricing a buy**, once the surcharge is known. -/
theorem buyQuote_eq {st : State} {timestamp quoteIn minOut raw effective : ℕ}
    {recipient caller : Address} {exempt : Bool} (hst : Accounted imm st)
    (hquote : pricingQuote imm st ≤ maxUint256)
    (hfee : imm.curveFeeBps + imm.creatorTaxBps ≤ 9900) (htime : imm.launchTimestamp ≤ timestamp)
    (hexempt : AntiSnipe.isExempt recipient caller (exemptionContext imm st recipient caller) = .ok exempt)
    (hsnipe : AntiSnipe.effectiveSnipeBps (timestamp - imm.launchTimestamp) exempt
      (imm.curveFeeBps + imm.creatorTaxBps) = .ok (raw, effective)) :
    buyQuote imm st timestamp quoteIn minOut recipient caller = (do
      let curveQuote ← CurveMath.quoteBuyWithCreatorTax quoteIn (pricingQuote imm st)
        st.reserves.trackedTokens st.reserves.reservedTokens imm.curveFeeBps effective
        imm.creatorTaxBps minOut
      return ⟨raw, effective, exempt, curveQuote⟩) := by
  have hreserves : SupplyMath.pricingReserves st.reserves imm.phantomQuote
      = .ok (pricingQuote imm st, st.reserves.trackedTokens) := by
    rw [pricingQuote, State.netQuote] at hquote
    exact SupplyMath.pricingReserves_eq_ok.mpr ⟨hst.fees_le, by omega, hquote, rfl, rfl⟩
  have helapsed : AntiSnipe.elapsedSince timestamp imm.launchTimestamp
      = .ok (timestamp - imm.launchTimestamp) := by
    rw [AntiSnipe.elapsedSince, revertIf_neg (by omega), ok_bind]
    exact usub_eq_ok.mpr ⟨htime, rfl⟩
  have hsum : (uadd imm.curveFeeBps imm.creatorTaxBps : Except Revert ℕ)
      = .ok (imm.curveFeeBps + imm.creatorTaxBps) :=
    uadd_eq_ok.mpr ⟨by rw [maxUint256]; omega, rfl⟩
  rw [exemptionContext] at hexempt
  rw [buyQuote, hreserves]
  simp only [ok_bind, hexempt, helapsed, hsum, hsnipe]

/-- A completing payment exists when the quote reserve leaves room for it. -/
theorem exists_completingPayment {st : State} {rate : ℕ} (hrate : rate ≤ 9900)
    (hreserved : 2 ≤ st.reserves.reservedTokens)
    (hroom : CurveMath.bpsDenominator * (CurveMath.bpsDenominator * (sellable st + 1)
      * pricingQuote imm st / ((CurveMath.bpsDenominator - rate) * (st.reserves.reservedTokens - 1))
        + 1 + pricingQuote imm st) ≤ maxUint256) :
    ∃ quoteIn, CompletingPayment imm st rate quoteIn := by
  have hshare : 0 < CurveMath.bpsDenominator - rate := by
    rw [CurveMath.bpsDenominator]
    omega
  have hdivisor : 0 < (CurveMath.bpsDenominator - rate) * (st.reserves.reservedTokens - 1) :=
    Nat.mul_pos hshare (by omega)
  refine ⟨_, hroom, ?_⟩
  rw [Nat.mul_right_comm (CurveMath.bpsDenominator - rate)]
  exact (Nat.lt_mul_div_succ _ hdivisor).le

/-- What covers the cost of the inventory covers its gross-up. -/
theorem grossRequired_le {st : State} {rate quoteIn : ℕ} (hrate : rate ≤ 9900)
    (h : netRequired imm st * CurveMath.bpsDenominator
      ≤ (CurveMath.bpsDenominator - rate) * quoteIn) : grossRequired imm st rate ≤ quoteIn := by
  refine ceil_le ?_ ?_
  · rw [CurveMath.bpsDenominator]
    omega
  · rw [Nat.mul_comm quoteIn]
    exact h

/-- **A completing payment takes the inventory.** -/
theorem buyQuote_clipped {timestamp quoteIn raw effective : ℕ}
    {recipient caller : Address} {exempt : Bool} (hs : Collateralised imm s.curve)
    (hopen : s.curve.completed = false) (hphantom : 0 < imm.phantomQuote)
    (htokens : s.curve.reserves.trackedTokens ≤ maxUint256)
    (hreserved : 2 ≤ s.curve.reserves.reservedTokens)
    (hscaled : s.curve.reserves.reservedTokens * CurveMath.bpsDenominator ≤ maxUint256)
    (hrates : imm.curveFeeBps + (effective + imm.creatorTaxBps) ≤ 9900)
    (htime : imm.launchTimestamp ≤ timestamp)
    (hexempt : AntiSnipe.isExempt recipient caller (exemptionContext imm s.curve recipient caller)
        = .ok exempt)
    (hsnipe : AntiSnipe.effectiveSnipeBps (timestamp - imm.launchTimestamp) exempt
      (imm.curveFeeBps + imm.creatorTaxBps) = .ok (raw, effective))
    (hpayment : CompletingPayment imm s.curve
      (imm.curveFeeBps + (effective + imm.creatorTaxBps)) quoteIn) :
    ∃ fees, buyQuote imm s.curve timestamp quoteIn 0 recipient caller
      = .ok ⟨raw, effective, exempt, CurveMath.clippedFill quoteIn 0 (sellable s.curve)
        (netRequired imm s.curve)
        (min (grossRequired imm s.curve (imm.curveFeeBps + (effective + imm.creatorTaxBps)))
          quoteIn) fees⟩ := by
  have hquote : pricingQuote imm s.curve ≤ maxUint256 := by
    have := hpayment.fits
    rw [CurveMath.bpsDenominator] at this
    omega
  have hpos : 0 < pricingQuote imm s.curve := Nat.add_pos_left hphantom _
  obtain ⟨fees, hfees⟩ := CurveMath.quoteBuy_clipped hrates hreserved (hs.unsold hopen) htokens
    hscaled hpos hpayment.fits hpayment.pays
  refine ⟨fees, ?_⟩
  rw [buyQuote_eq hs.toAccounted hquote (by omega) htime hexempt hsnipe, hfees]
  rfl

/-- **Every curve can be completed.** Let the constants of a curve be those of an accepted
economics, and its deployment be validated. In every reachable state in which it trades, at
least two tokens are reserved and some are left to sell. From launch on, for every caller and
every recipient but zero, the rates of a buy leave a hundredth, and every completing payment
makes a quote that passes without a minimum and takes exactly the inventory; what it spends is
the same for all payments that cover the inventory with its fees. A completing payment exists
if the quote reserve leaves room for it. -/
theorem curve_completes {baseline : TickerGardenBaseline} {quote : QuoteAssetConfig} {u v : Unit}
    {d : Deployment} (hvalid : EconomicDomain.validate platform baseline quote = .ok u)
    (hsupply : imm.initialSupply = baseline.supply)
    (hphantom : imm.phantomQuote = quote.phantomQuote)
    (hthreshold : imm.graduationThreshold = quote.graduationThreshold)
    (hinit : validateInitialization imm d = .ok v) (hzero : d.hasCode 0 = false)
    (h : Reachable platform calls imm s) (hopen : s.curve.completed = false) :
    2 ≤ s.curve.reserves.reservedTokens ∧
    0 < sellable s.curve ∧
    ∀ timestamp recipient caller, imm.launchTimestamp ≤ timestamp → recipient ≠ 0 →
      ∃ exempt raw effective rate,
        AntiSnipe.isExempt recipient caller (exemptionContext imm s.curve recipient caller)
            = .ok exempt ∧
        AntiSnipe.effectiveSnipeBps (timestamp - imm.launchTimestamp) exempt
          (imm.curveFeeBps + imm.creatorTaxBps) = .ok (raw, effective) ∧
        rate = imm.curveFeeBps + (effective + imm.creatorTaxBps) ∧ rate ≤ 9900 ∧
        (∀ quoteIn, CompletingPayment imm s.curve rate quoteIn →
          ∃ q, buyQuote imm s.curve timestamp quoteIn 0 recipient caller
              = .ok ⟨raw, effective, exempt, q⟩ ∧
            q.slippagePass = true ∧ q.partialFill = true ∧ q.tokensOut = sellable s.curve ∧
            q.netRequired = netRequired imm s.curve ∧
            (CurveMath.bpsDenominator * (q.netRequired + 1)
                ≤ quoteIn * (CurveMath.bpsDenominator - rate) →
              q.quoteSpent = grossRequired imm s.curve rate)) ∧
        (CurveMath.bpsDenominator * (CurveMath.bpsDenominator * (sellable s.curve + 1)
              * pricingQuote imm s.curve
              / ((CurveMath.bpsDenominator - rate) * (s.curve.reserves.reservedTokens - 1)) + 1
            + pricingQuote imm s.curve) ≤ maxUint256 →
          ∃ quoteIn, CompletingPayment imm s.curve rate quoteIn) := by
  obtain ⟨R, poolQuote, poolMeme, locked, first, second, hadmitted⟩ :=
    EconomicDomain.admitted_of_validate hvalid
  have hs := collateralised_of_reachable h
  obtain ⟨hcreator, hbeneficiary, hrouter, hfee⟩ := wired_of_validateInitialization hinit hzero
  -- the reserved tokens are those of the accepted partition
  obtain ⟨sold, hpart⟩ := hs.partition_eq
  obtain ⟨sold', hpart'⟩ := hadmitted.partition_eq
  rw [hsupply, hphantom, hthreshold, hpart'] at hpart
  obtain ⟨rfl, rfl⟩ := Prod.mk.injEq .. ▸ Except.ok.inj hpart
  have hfacts := SupplyMath.partition_of_supplyPartition hpart'
  have hreserved := EconomicDomain.two_le_reserved hadmitted
  have hmax : maxInt128 * CurveMath.bpsDenominator ≤ maxUint256 := by
    rw [maxInt128, CurveMath.bpsDenominator, maxUint256]
    decide
  have hscaled : s.curve.reserves.reservedTokens * CurveMath.bpsDenominator ≤ maxUint256 :=
    (Nat.mul_le_mul_right _ (hfacts.reserved_lt.le.trans hadmitted.supply_le)).trans hmax
  have htokens : s.curve.reserves.trackedTokens ≤ maxUint256 := by
    refine tokens_le_of_reachable ?_ h
    rw [hsupply]
    refine hadmitted.supply_le.trans (le_trans ?_ hmax)
    exact Nat.le_mul_of_pos_right _ (by decide)
  have hunsold := hs.unsold hopen
  refine ⟨hreserved, Nat.sub_pos_of_lt hunsold, fun timestamp recipient caller htime hrecipient => ?_⟩
  obtain ⟨exempt, hexempt⟩ : ∃ exempt, AntiSnipe.isExempt recipient caller
      (exemptionContext imm s.curve recipient caller) = .ok exempt :=
    AntiSnipe.isExempt_isOk hrecipient hcreator hbeneficiary hrouter
  obtain ⟨raw, effective, hsnipe, htotal⟩ :=
    AntiSnipe.total_le_of_effective (timestamp - imm.launchTimestamp) exempt hfee
  have hrates : imm.curveFeeBps + (effective + imm.creatorTaxBps) ≤ 9900 := by omega
  have hphantom0 : 0 < imm.phantomQuote := hphantom ▸ hfacts.phantomQuote_pos
  refine ⟨exempt, raw, effective, _, hexempt, hsnipe, rfl, hrates, fun quoteIn hpayment => ?_,
    exists_completingPayment hrates hreserved⟩
  obtain ⟨fees, hquote⟩ := buyQuote_clipped hs hopen hphantom0 htokens hreserved hscaled hrates htime
    hexempt hsnipe hpayment
  refine ⟨_, hquote, ?_, rfl, rfl, rfl, fun hcovers => Nat.min_eq_left (grossRequired_le hrates ?_)⟩
  · have hfits := hpayment.fits
    rw [CurveMath.bpsDenominator] at hfits
    refine (CurveMath.productLte_iff ?_ (Nat.zero_le _) ?_ ?_).mpr ?_
    · exact (Nat.min_le_right _ _).trans (by omega)
    · omega
    · exact (Nat.sub_le _ _).trans htokens
    · rw [Nat.mul_zero]
      exact Nat.zero_le _
  · rw [Nat.mul_comm quoteIn] at hcovers
    rw [Nat.mul_comm]
    exact (Nat.mul_le_mul_left _ (Nat.le_succ _)).trans hcovers

end Contract

/-! ### The small market -/

namespace Sample

/-- The baseline of the small market. -/
def baseline : TickerGardenBaseline where
  referenceChainId := 1
  referenceFactory := 1
  referenceFactoryCodeHash := 1
  launchConfigId := 0
  supply := 400
  curveFeeBps := 100
  poolFee := 0
  tickSpacing := 1
  behaviorVectorRoot := 1
  status := configStatusActive

/-- Its quote configuration. -/
def quoteConfig : QuoteAssetConfig where
  tickerGardenBaselineId := 2
  quoteAsset := 0
  quoteDecimals := 18
  phantomQuote := 100
  graduationThreshold := 100
  economicsHash := 3
  status := configStatusActive

theorem validate_isOk :
    EconomicDomain.validate DocumentedV4.platform baseline quoteConfig = .ok () := by
  decide +kernel

end Sample

/-- The small market can be completed from its first second, by anyone. -/
theorem curve_completes_sample :
    2 ≤ Sample.start.curve.reserves.reservedTokens ∧ ∃ exempt raw effective rate,
      AntiSnipe.isExempt 20 20 (exemptionContext Sample.imm Sample.start.curve 20 20) = .ok exempt ∧
      AntiSnipe.effectiveSnipeBps 0 exempt 100 = .ok (raw, effective) ∧ rate ≤ 9900 := by
  obtain ⟨htwo, -, hall⟩ := curve_completes Sample.validate_isOk rfl rfl rfl
    (u := ()) (v := ()) (d := Sample.deployment) (by decide +kernel) rfl Sample.reachable_start rfl
  obtain ⟨exempt, raw, effective, rate, hexempt, hsnipe, -, hrate, -⟩ :=
    hall 0 20 20 (by decide) (by decide)
  exact ⟨htwo, exempt, raw, effective, rate, hexempt, hsnipe, hrate⟩

/-- **No buy is quoted for the zero recipient**, whatever it pays. -/
theorem completion_fails_for_zero_recipient :
    EconomicDomain.validate DocumentedV4.platform Sample.baseline Sample.quoteConfig = .ok () ∧
    ¬ ∀ s : System Bool, Reachable DocumentedV4.platform Sample.calls Sample.imm s →
      s.curve.completed = false →
      ∀ timestamp recipient caller quoteIn, Sample.imm.launchTimestamp ≤ timestamp →
        CompletingPayment Sample.imm s.curve 9900 quoteIn →
        ∃ q, buyQuote Sample.imm s.curve timestamp quoteIn 0 recipient caller = .ok q := by
  refine ⟨Sample.validate_isOk, fun h => ?_⟩
  obtain ⟨q, hq⟩ := h Sample.start Sample.reachable_start rfl 0 0 20 20000 (by decide)
    ⟨by decide +kernel, by decide +kernel⟩
  have hfails : (buyQuote Sample.imm Sample.start.curve 0 20000 0 0 20).isOk = false := by
    decide +kernel
  rw [hq] at hfails
  cases hfails

end Curve

end TickerGarden
