import TickerGarden.Curve.CurveMath

/-!
# The laws of a buy quote

What a quote of `TickerGarden.CurveMath.quoteBuyWithCreatorTax` says about itself, beyond
`TickerGarden.CurveMath.BuyQuote.Sound`: its slippage test compares two full products, and the
quote for what it spends is the quote itself.

The second law has an exception. The three fee legs are rounded down one by one, so that less
gross quote may leave *more* net quote: a clipped buy can be priced with a smaller net quote
than the one it ends with. If the reserve is so large that the scaled sum of the two fits a
word only for the smaller one, the quote for the spent amount overflows
(`TickerGarden.CurveMath.requote_overflows`).
-/

namespace TickerGarden

open Checked

namespace CurveMath

/-! ### Full products -/

/-- **The two words of a product**, from its residues modulo `2 ^ 256 - 1` and `2 ^ 256`. -/
theorem fullProduct_eq {a b : ℕ} (ha : a ≤ maxUint256) (hb : b ≤ maxUint256) :
    fullProduct a b = (a * b / 2 ^ 256, a * b % 2 ^ 256) := by
  have hle : a * b ≤ maxUint256 * maxUint256 := Nat.mul_le_mul ha hb
  -- the residue modulo `2 ^ 256 - 1` is the one of the sum of the words
  have hmod : a * b % (2 ^ 256 - 1) = (a * b / 2 ^ 256 + a * b % 2 ^ 256) % (2 ^ 256 - 1) := by
    have hsplit : a * b = (2 ^ 256 - 1) * (a * b / 2 ^ 256)
        + (a * b / 2 ^ 256 + a * b % 2 ^ 256) := by
      have := Nat.div_add_mod (a * b) (2 ^ 256)
      omega
    conv_lhs => rw [hsplit]
    exact Nat.mul_add_mod _ _ _
  have hlow : a * b % 2 ^ 256 < 2 ^ 256 := Nat.mod_lt _ (by decide)
  have hhigh : a * b / 2 ^ 256 ≤ 2 ^ 256 - 2 := by
    have hlt : a * b < 2 ^ 256 * (2 ^ 256 - 1) :=
      hle.trans_lt (by rw [maxUint256]; decide)
    have := Nat.div_lt_of_lt_mul hlt
    omega
  rw [fullProduct, hmod]
  generalize a * b / 2 ^ 256 = high at hhigh ⊢
  generalize a * b % 2 ^ 256 = low at hlow ⊢
  rw [Prod.mk.injEq, and_iff_left rfl, wrappingSub, wrappingSub]
  rcases Nat.lt_or_ge (high + low) (2 ^ 256 - 1) with hlt | hge
  · rw [Nat.mod_eq_of_lt hlt, if_neg (by omega)]
    omega
  · have hwrap : (high + low) % (2 ^ 256 - 1) = high + low - (2 ^ 256 - 1) := by
      rw [Nat.mod_eq_sub_mod hge, Nat.mod_eq_of_lt (by omega)]
    rw [hwrap, if_pos (by omega)]
    omega

/-- **The comparison of two products is exact.** -/
theorem productLte_iff {a b c d : ℕ} (ha : a ≤ maxUint256) (hb : b ≤ maxUint256)
    (hc : c ≤ maxUint256) (hd : d ≤ maxUint256) : productLte a b c d = true ↔ a * b ≤ c * d := by
  rw [productLte, fullProduct_eq ha hb, fullProduct_eq hc hd]
  simp only [Bool.or_eq_true, Bool.and_eq_true, decide_eq_true_eq, beq_iff_eq]
  omega

/-! ### Prices, exactly -/

theorem checkedMul_eq_ok_iff {a b c : ℕ} :
    checkedMul a b = .ok c ↔ a * b ≤ maxUint256 ∧ c = a * b := by
  simp only [checkedMul, bind_eq_ok, revertIf_eq_ok, umul_eq_ok, not_and, not_lt, gt_iff_lt]
  constructor
  · rintro ⟨-, -, hle, rfl⟩
    exact ⟨hle, rfl⟩
  · rintro ⟨hle, rfl⟩
    refine ⟨(), fun hne => ?_, hle, rfl⟩
    rw [Nat.le_div_iff_mul_le (Nat.pos_of_ne_zero hne), Nat.mul_comm]
    exact hle

/-- A scaled factor overflows with the error of the library. -/
theorem checkedMul_eq_error {a b : ℕ} (h : maxUint256 < a * b) :
    checkedMul a b = .error (.curveMath .arithmeticOverflow) := by
  have ha : a ≠ 0 := by
    rintro rfl
    omega
  have hb : b > maxUint256 / a := by
    rw [gt_iff_lt, Nat.div_lt_iff_lt_mul (Nat.pos_of_ne_zero ha), Nat.mul_comm]
    exact h
  rw [checkedMul, revertIf_pos ⟨ha, hb⟩]
  rfl

/-- **When a swap without a fee has an output**: the scaled reserves fit a word, and the output
does not round to zero. -/
theorem amountOut_eq_ok_iff {n x y out : ℕ} (hy : y ≤ maxUint256) :
    amountOut n x y 0 = .ok out ↔ (0 < n ∧ 0 < x ∧ 0 < y) ∧
      (x + n) * bpsDenominator ≤ maxUint256 ∧ 0 < out ∧ out = n * y / (x + n) := by
  constructor
  · intro h
    obtain ⟨hn, hx, hy, hout, heq⟩ := amountOut_eq_ok h
    refine ⟨⟨hn, hx, hy⟩, ?_, hout, heq⟩
    simp only [amountOut, bind_eq_ok, revertIf_eq_ok, checkedAdd_eq_ok] at h
    obtain ⟨-, -, -, -, -, -, scaled, hscaled, reserve, hreserve, _, ⟨hsum, rfl⟩, -⟩ := h
    obtain rfl := checkedMul_eq_ok hscaled
    obtain rfl := checkedMul_eq_ok hreserve
    rw [Nat.add_mul]
    exact hsum
  · rintro ⟨⟨hn, hx, hy0⟩, hsum, hout, rfl⟩
    rw [Nat.add_mul] at hsum
    have hfactor : n * bpsDenominator * y / (x * bpsDenominator + n * bpsDenominator)
        = n * y / (x + n) := by
      rw [← Nat.add_mul, Nat.mul_right_comm]
      exact Nat.mul_div_mul_right _ _ (by decide)
    have hle : n * y / (x + n) ≤ y := by
      refine Nat.div_le_of_le_mul ?_
      rw [Nat.add_mul]
      exact Nat.le_add_left _ _
    have hbps : 0 < bpsDenominator := by decide
    have hdenominator : x * bpsDenominator + n * bpsDenominator ≠ 0 := by
      have := Nat.mul_pos hx hbps
      omega
    simp only [amountOut, bind_eq_ok, revertIf_eq_ok, checkedAdd_eq_ok, mulDiv_eq_ok, pure_eq_ok,
      Except.ok.injEq, checkedMul_eq_ok_iff, Nat.sub_zero]
    refine ⟨(), by omega, (), by omega, (), by decide, _, ⟨by omega, rfl⟩, _, ⟨by omega, rfl⟩, _,
      ⟨hsum, rfl⟩, _, ⟨hdenominator, ?_, rfl⟩, (), ?_, hfactor⟩
    · rw [hfactor]
      exact hle.trans hy
    · rw [hfactor]
      exact hout.ne'

/-- A swap whose scaled reserves do not fit a word overflows. -/
theorem amountOut_eq_error {n x y : ℕ} (hn : 0 < n) (hx : 0 < x) (hy : 0 < y)
    (h : maxUint256 < (x + n) * bpsDenominator) :
    amountOut n x y 0 = .error (.curveMath .arithmeticOverflow) := by
  rw [Nat.add_mul] at h
  have hzero : ¬ (x = 0 ∨ y = 0) := by omega
  rw [amountOut, revertIf_neg hn.ne', ok_bind, revertIf_neg hzero, ok_bind,
    revertIf_neg (by decide), ok_bind, Nat.sub_zero]
  rcases Nat.lt_or_ge maxUint256 (n * bpsDenominator) with hlt | hle
  · rw [checkedMul_eq_error hlt]
    rfl
  · rw [checkedMul_eq_ok_iff.mpr ⟨hle, rfl⟩, ok_bind]
    rcases Nat.lt_or_ge maxUint256 (x * bpsDenominator) with hlt | hle
    · rw [checkedMul_eq_error hlt]
      rfl
    · rw [checkedMul_eq_ok_iff.mpr ⟨hle, rfl⟩, ok_bind, checkedAdd, revertIf_pos h]
      rfl

/-! ### The two forms of a quote -/

/-- The quote of a buy that spends everything it received. -/
def fullFill (quoteReceived minTokensOut tokensOut : ℕ) (fees : BuyFees) : BuyQuote where
  creatorTaxFee := fees.creatorTaxFee
  quoteReceived
  quoteSpent := quoteReceived
  fee := fees.fee
  additionalQuoteFee := fees.additionalQuoteFee
  netQuote := fees.netQuote
  tokensOut
  refund := 0
  netRequired := 0
  partialFill := false
  slippagePass := tokensOut ≥ minTokensOut

/-- The quote of a buy that takes the whole inventory. -/
def clippedFill (quoteReceived minTokensOut sellableTokens netRequired quoteSpent : ℕ)
    (fees : BuyFees) : BuyQuote where
  creatorTaxFee := fees.creatorTaxFee
  quoteReceived
  quoteSpent
  fee := fees.fee
  additionalQuoteFee := fees.additionalQuoteFee
  netQuote := fees.netQuote
  tokensOut := sellableTokens
  refund := quoteReceived - quoteSpent
  netRequired
  partialFill := true
  slippagePass :=
    proportionalSlippagePass quoteSpent minTokensOut quoteReceived sellableTokens

/-- Rates that leave something pass their checks. -/
theorem validatedTotalFee_of_lt {f g : ℕ} (h : f + g < bpsDenominator) :
    validatedTotalFee f g = .ok (f + g) := by
  have hbps : bpsDenominator ≤ maxUint256 := by rw [maxUint256]; decide
  rw [validatedTotalFee, revertIf_neg (by omega), ok_bind, revertIf_neg (by omega), ok_bind,
    checkedAdd_eq_ok.mpr ⟨by omega, rfl⟩, ok_bind, revertIf_neg (by omega)]
  rfl

/-- What the checks of a buy require of its rates and reserves. -/
theorem rates_of_quoteBuy {received x y r f g t minOut : ℕ} {q : BuyQuote}
    (h : quoteBuyWithCreatorTax received x y r f g t minOut = .ok q) :
    f + (g + t) < bpsDenominator ∧ r < y := by
  simp only [quoteBuyWithCreatorTax, bind_eq_ok, uadd_eq_ok, revertIf_eq_ok, not_le] at h
  obtain ⟨_, ⟨-, rfl⟩, total, htotal, -, hr, -⟩ := h
  exact ⟨(validatedTotalFee_eq_ok htotal).2, hr⟩

/-- **The stages of a buy quote**, once its rates and reserves have passed the checks. -/
theorem quoteBuyWithCreatorTax_eq {received x y r f g t minOut : ℕ}
    (hrates : f + (g + t) < bpsDenominator) (hr : r < y) :
    quoteBuyWithCreatorTax received x y r f g t minOut = (do
      let full ← buyFees received f g t
      let tokensOut ← amountOut full.netQuote x y 0
      if tokensOut > y - r then
        let netRequired ← amountIn (y - r) x y 0
        let quoteSpent ← clippedSpend netRequired (f + (g + t)) received
        let fees ← buyFees quoteSpent f g t
        return clippedFill received minOut (y - r) netRequired quoteSpent fees
      else return fullFill received minOut tokensOut full) := by
  have hbps : bpsDenominator ≤ maxUint256 := by rw [maxUint256]; decide
  have hsurcharge : (uadd g t : Except Revert ℕ) = .ok (g + t) :=
    uadd_eq_ok.mpr ⟨by omega, rfl⟩
  have htotal := validatedTotalFee_of_lt hrates
  have hsellable : (usub y r : Except Revert ℕ) = .ok (y - r) :=
    usub_eq_ok.mpr ⟨hr.le, rfl⟩
  rw [quoteBuyWithCreatorTax, hsurcharge, ok_bind, htotal, ok_bind, revertIf_neg (by omega),
    ok_bind]
  cases hfull : buyFees received f g t with
  | error e => rfl
  | ok full =>
    rw [ok_bind, ok_bind]
    cases hout : amountOut full.netQuote x y 0 with
    | error e => rfl
    | ok out =>
      rw [ok_bind, ok_bind, hsellable, ok_bind]
      split_ifs with hclip
      · cases hneed : amountIn (y - r) x y 0 with
        | error e => rfl
        | ok need =>
          rw [ok_bind, ok_bind]
          cases hspent : clippedSpend need (f + (g + t)) received with
          | error e => rfl
          | ok spent =>
            rw [ok_bind, ok_bind]
            cases hfees : buyFees spent f g t with
            | error e => rfl
            | ok fees =>
              have hrefund : (usub received spent : Except Revert ℕ) = .ok (received - spent) :=
                usub_eq_ok.mpr ⟨(clippedSpend_eq_ok hspent).1, rfl⟩
              rw [ok_bind, ok_bind, hrefund, ok_bind]
              rfl
      · rfl

/-- **The two forms of a buy quote.** -/
theorem quoteBuy_cases {received x y r f g t minOut : ℕ} {q : BuyQuote}
    (h : quoteBuyWithCreatorTax received x y r f g t minOut = .ok q) :
    ∃ full out, buyFees received f g t = .ok full ∧ amountOut full.netQuote x y 0 = .ok out ∧
      ((out ≤ y - r ∧ q = fullFill received minOut out full) ∨
        (y - r < out ∧ ∃ need spent fees, amountIn (y - r) x y 0 = .ok need ∧
          clippedSpend need (f + (g + t)) received = .ok spent ∧ buyFees spent f g t = .ok fees ∧
          q = clippedFill received minOut (y - r) need spent fees)) := by
  obtain ⟨hrates, hr⟩ := rates_of_quoteBuy h
  rw [quoteBuyWithCreatorTax_eq hrates hr, bind_eq_ok] at h
  obtain ⟨full, hfull, h⟩ := h
  rw [bind_eq_ok] at h
  obtain ⟨out, hout, h⟩ := h
  refine ⟨full, out, hfull, hout, ?_⟩
  split_ifs at h with hclip
  · simp only [bind_eq_ok, pure_eq_ok, Except.ok.injEq] at h
    obtain ⟨need, hneed, spent, hspent, fees, hfees, hq⟩ := h
    exact Or.inr ⟨hclip, need, spent, fees, hneed, hspent, hfees, hq.symm⟩
  · rw [pure_eq_ok, Except.ok.injEq] at h
    exact Or.inl ⟨Nat.le_of_not_lt hclip, h.symm⟩

/-! ### Quoting what was spent -/

/-- The spent amount of a clipped buy is spent again. -/
theorem clippedSpend_spent {need total received spent : ℕ}
    (h : clippedSpend need total received = .ok spent) :
    clippedSpend need total spent = .ok spent := by
  simp only [clippedSpend, bind_eq_ok, pure_eq_ok, Except.ok.injEq] at h ⊢
  obtain ⟨gross, hgross, rfl⟩ := h
  refine ⟨gross, hgross, ?_⟩
  rw [← Nat.min_assoc, Nat.min_self]

/-- The net quote of a clipped buy would buy the inventory at least. -/
theorem le_output_of_covers {n x y s : ℕ} (hcovers : s * x ≤ n * (y - s)) (hpos : 0 < x)
    (hs : s ≤ y) : s ≤ n * y / (x + n) := by
  rw [Nat.le_div_iff_mul_le (by omega), Nat.mul_add]
  rw [Nat.mul_sub] at hcovers
  have hle : n * s ≤ n * y := Nat.mul_le_mul_left n hs
  have hcomm : s * n = n * s := Nat.mul_comm s n
  omega

/-- **Quoting what was spent gives the same quote**, if the reserves with the net quote of the
quote fit a word after scaling. -/
theorem requote_spent {received x y r f g t minOut : ℕ} {q : BuyQuote} (hy : y ≤ maxUint256)
    (h : quoteBuyWithCreatorTax received x y r f g t minOut = .ok q)
    (hfits : (x + q.netQuote) * bpsDenominator ≤ maxUint256) :
    ∃ q', quoteBuyWithCreatorTax q.quoteSpent x y r f g t minOut = .ok q' ∧
      q'.tokensOut = q.tokensOut ∧ q'.refund = 0 := by
  obtain ⟨hrates, hr⟩ := rates_of_quoteBuy h
  have hsound := quoteBuyWithCreatorTax_sound h
  obtain ⟨full, out, hfull, hout, ⟨-, rfl⟩ | ⟨hclip, need, spent, fees, hneed, hspent, hfees, rfl⟩⟩ :=
    quoteBuy_cases h
  · exact ⟨_, h, rfl, rfl⟩
  · obtain ⟨-, hx, hy0, -, -⟩ := amountOut_eq_ok hout
    have hcovers : (y - r) * x ≤ fees.netQuote * (y - (y - r)) := hsound.covers
    have hle := le_output_of_covers hcovers hx (Nat.sub_le y r)
    have hsellable : 0 < y - r := Nat.sub_pos_of_lt hr
    have hnet : 0 < fees.netQuote := by
      refine Nat.pos_of_ne_zero fun hzero => ?_
      rw [hzero, Nat.zero_mul, Nat.zero_div] at hle
      omega
    have houtput : amountOut fees.netQuote x y 0 = .ok (fees.netQuote * y / (x + fees.netQuote)) :=
      (amountOut_eq_ok_iff hy).mpr ⟨⟨hnet, hx, hy0⟩, hfits, by omega, rfl⟩
    change ∃ q', quoteBuyWithCreatorTax spent x y r f g t minOut = .ok q' ∧ q'.tokensOut = y - r ∧
      q'.refund = 0
    rw [quoteBuyWithCreatorTax_eq hrates hr, hfees, ok_bind, houtput, ok_bind]
    split_ifs with hagain
    · rw [hneed, ok_bind, clippedSpend_spent hspent, ok_bind, hfees, ok_bind]
      exact ⟨_, rfl, rfl, Nat.sub_self spent⟩
    · exact ⟨_, rfl, le_antisymm (Nat.le_of_not_lt hagain) hle, rfl⟩

/-- **Quoting what was spent overflows** otherwise. -/
theorem requote_overflows {received x y r f g t minOut : ℕ} {q : BuyQuote} (hy : y ≤ maxUint256)
    (h : quoteBuyWithCreatorTax received x y r f g t minOut = .ok q)
    (hfits : maxUint256 < (x + q.netQuote) * bpsDenominator) :
    quoteBuyWithCreatorTax q.quoteSpent x y r f g t minOut
      = .error (.curveMath .arithmeticOverflow) := by
  obtain ⟨hrates, hr⟩ := rates_of_quoteBuy h
  have hsound := quoteBuyWithCreatorTax_sound h
  obtain ⟨full, out, hfull, hout, ⟨-, rfl⟩ | ⟨hclip, need, spent, fees, hneed, hspent, hfees, rfl⟩⟩ :=
    quoteBuy_cases h
  · -- the quote itself would have overflowed
    obtain ⟨-, hsum, -⟩ := (amountOut_eq_ok_iff hy).mp hout
    exact absurd hsum (Nat.not_le.mpr hfits)
  · obtain ⟨-, hx, hy0, -, -⟩ := amountOut_eq_ok hout
    have hcovers : (y - r) * x ≤ fees.netQuote * (y - (y - r)) := hsound.covers
    have hle := le_output_of_covers hcovers hx (Nat.sub_le y r)
    have hnet : 0 < fees.netQuote := by
      refine Nat.pos_of_ne_zero fun hzero => ?_
      rw [hzero, Nat.zero_mul, Nat.zero_div] at hle
      omega
    change quoteBuyWithCreatorTax spent x y r f g t minOut = _
    rw [quoteBuyWithCreatorTax_eq hrates hr, hfees, ok_bind,
      amountOut_eq_error hnet hx hy0 hfits]
    rfl

/-! ### The laws -/

/-- **The slippage test of a quote is exact**: the tokens per spent quote are at least those
per received quote that were asked for. -/
theorem slippagePass_iff {received x y r f g t minOut : ℕ} {q : BuyQuote}
    (hreceived : received ≤ maxUint256) (hy : y ≤ maxUint256) (hmin : minOut ≤ maxUint256)
    (h : quoteBuyWithCreatorTax received x y r f g t minOut = .ok q) :
    q.slippagePass = true ↔ q.quoteSpent * minOut ≤ q.quoteReceived * q.tokensOut := by
  obtain ⟨full, out, hfull, hout, ⟨-, rfl⟩ | ⟨-, need, spent, fees, -, hspent, -, rfl⟩⟩ :=
    quoteBuy_cases h
  · -- something was received, since something is left after the fees
    obtain ⟨hnet, -⟩ := amountOut_eq_ok hout
    obtain ⟨-, -, -, hsum⟩ := buyFees_eq_ok hfull
    have hpos : 0 < received := by omega
    simp only [fullFill, ge_iff_le, decide_eq_true_eq]
    exact (Nat.mul_le_mul_left_iff hpos).symm
  · have hle := (clippedSpend_eq_ok hspent).1
    have hsellable : y - r ≤ maxUint256 := (Nat.sub_le y r).trans hy
    exact productLte_iff (hle.trans hreceived) hmin hreceived hsellable

/-- **The laws of a buy quote**, for words. What is spent goes into the three fee legs and the
net quote, and the rest is refunded; no more than the inventory is bought; a clipped buy keeps
the constant product; the quote for what is spent buys the same and refunds nothing, unless the
scaled reserves with its net quote do not fit a word, and then it overflows; and the slippage
test compares the two prices exactly. -/
theorem buy_quote_laws {received x y r f g t minOut : ℕ} {q : BuyQuote}
    (hreceived : received ≤ maxUint256) (hy : y ≤ maxUint256) (hmin : minOut ≤ maxUint256)
    (h : quoteBuyWithCreatorTax received x y r f g t minOut = .ok q) :
    (q.fee + q.additionalQuoteFee + q.creatorTaxFee + q.netQuote = q.quoteSpent ∧
      q.quoteReceived = received ∧ q.quoteSpent + q.refund = q.quoteReceived) ∧
    q.tokensOut ≤ y - r ∧
    (q.partialFill = true → x * y ≤ (x + q.netQuote) * (y - q.tokensOut)) ∧
    ((x + q.netQuote) * bpsDenominator ≤ maxUint256 →
      ∃ q', quoteBuyWithCreatorTax q.quoteSpent x y r f g t minOut = .ok q' ∧
        q'.tokensOut = q.tokensOut ∧ q'.refund = 0) ∧
    (maxUint256 < (x + q.netQuote) * bpsDenominator →
      quoteBuyWithCreatorTax q.quoteSpent x y r f g t minOut
        = .error (.curveMath .arithmeticOverflow)) ∧
    (q.slippagePass = true ↔ q.quoteSpent * minOut ≤ q.quoteReceived * q.tokensOut) := by
  have hsound := quoteBuyWithCreatorTax_sound h
  refine ⟨⟨hsound.spent_eq, hsound.received_eq, hsound.refund_eq.trans hsound.received_eq.symm⟩,
    hsound.tokensOut_le, fun _ => ?_, requote_spent hy h, requote_overflows hy h,
    slippagePass_iff hreceived hy hmin h⟩
  have hle : q.tokensOut ≤ y := hsound.tokensOut_le.trans (Nat.sub_le y r)
  calc x * y = x * (y - q.tokensOut) + q.tokensOut * x := by
        rw [Nat.mul_comm q.tokensOut, ← Nat.mul_add, Nat.sub_add_cancel hle]
    _ ≤ x * (y - q.tokensOut) + q.netQuote * (y - q.tokensOut) :=
        Nat.add_le_add_left hsound.covers _
    _ = (x + q.netQuote) * (y - q.tokensOut) := (Nat.add_mul _ _ _).symm

/-- A clipped buy of 9996 tokens with three fees of one basis point, from reserves for which
the net quote 9997 of the 10000 that were received still fits a word after scaling, and the net
quote 9999 of the 9999 that are spent does not. -/
def boundaryQuote : Except Revert BuyQuote :=
  quoteBuyWithCreatorTax 10000 (maxUint256 / 10000 - 9997) (maxUint256 / 10000 + 9996)
    (maxUint256 / 10000) 1 1 1 0

theorem boundaryQuote_isOk : boundaryQuote.isOk = true := by decide +kernel

/-- **At the bound of a word the quote for the spent amount fails**: not every quote can be
repeated with what it spends. -/
theorem requote_fails_at_bound :
    ¬ ∀ received x y r f g t minOut q, received ≤ maxUint256 → x ≤ maxUint256 →
      y ≤ maxUint256 → r ≤ maxUint256 → minOut ≤ maxUint256 →
      quoteBuyWithCreatorTax received x y r f g t minOut = .ok q →
      ∃ q', quoteBuyWithCreatorTax q.quoteSpent x y r f g t minOut = .ok q' ∧
        q'.tokensOut = q.tokensOut ∧ q'.refund = 0 := by
  intro h
  obtain ⟨q', hq', -⟩ := h 10000 (maxUint256 / 10000 - 9997) (maxUint256 / 10000 + 9996)
    (maxUint256 / 10000) 1 1 1 0 _ (by decide +kernel) (by decide +kernel) (by decide +kernel)
    (by decide +kernel) (by decide +kernel) (eq_ok_value boundaryQuote_isOk)
  have hfails : (quoteBuyWithCreatorTax (value boundaryQuote boundaryQuote_isOk).quoteSpent
      (maxUint256 / 10000 - 9997) (maxUint256 / 10000 + 9996) (maxUint256 / 10000) 1 1 1 0).isOk
        = false := by decide +kernel
  rw [hq'] at hfails
  cases hfails

/-- A buy of 200 on reserves of 100 and 400, of which 200 are reserved. -/
def clippedSample : Except Revert BuyQuote := quoteBuyWithCreatorTax 200 100 400 200 100 0 0 1

theorem clippedSample_isOk : clippedSample.isOk = true := by decide +kernel

/-- The laws for that buy, which is clipped. -/
theorem buy_quote_laws_sample :
    (value clippedSample clippedSample_isOk).partialFill = true ∧
      100 * 400 ≤ (100 + (value clippedSample clippedSample_isOk).netQuote)
        * (400 - (value clippedSample clippedSample_isOk).tokensOut) :=
  ⟨by decide +kernel, (buy_quote_laws (by decide +kernel) (by decide +kernel) (by decide +kernel)
    (eq_ok_value clippedSample_isOk)).2.2.1 (by decide +kernel)⟩

end CurveMath

end TickerGarden
