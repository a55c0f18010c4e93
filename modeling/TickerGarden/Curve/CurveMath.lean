import TickerGarden.Errors

/-!
# Constant-product quotes

The arithmetic of `TickerGardenCurveMath` and of `TickerGardenAntiSnipe`: what a
buy or a sell on a curve with reserves `x` (quote) and `y` (tokens) is worth, and
which fees it pays. The fee legs are rounded down independently of each other.

A buy comes in two forms. As long as its output fits in the sellable inventory it
is a *full fill* and spends everything it received. Otherwise it is *clipped*: it
takes exactly the inventory, spends the rounded-up gross amount that inventory
costs – or everything it received, if that is less – and refunds the rest.

The two forms round in different directions. What the rest of the development uses
about either of them is one inequality, `TickerGarden.CurveMath.BuyQuote.covers`:
the quote that stays after fees pays for the tokens that leave at the constant
product, `tokensOut * x ≤ netQuote * (y - tokensOut)`. The corresponding fact about a
sell is `TickerGarden.CurveMath.SellQuote.covered`.
-/

namespace TickerGarden

open Checked

namespace CurveMath

/-- `BPS_DENOMINATOR`: a whole, in basis points. -/
def bpsDenominator : ℕ := 10000

/-- The quote of a buy. -/
structure BuyQuote where
  creatorTaxFee : ℕ
  quoteReceived : ℕ
  quoteSpent : ℕ
  fee : ℕ
  additionalQuoteFee : ℕ
  netQuote : ℕ
  tokensOut : ℕ
  refund : ℕ
  netRequired : ℕ
  partialFill : Bool
  slippagePass : Bool
deriving DecidableEq

/-- The quote of a sell. -/
structure SellQuote where
  tokensIn : ℕ
  grossQuoteOut : ℕ
  fee : ℕ
  additionalQuoteFee : ℕ
  quoteOut : ℕ
  slippagePass : Bool
deriving DecidableEq

/-! ### The source functions -/

/-- `_checkedAdd`: like the machine's own check, with an error of the library. -/
def checkedAdd (a b : ℕ) : Except Revert ℕ := do
  revertIf (a + b > maxUint256) (.curveMath .arithmeticOverflow)
  return a + b

/-- `_checkedMul`: like the machine's own check, with an error of the library. -/
def checkedMul (a b : ℕ) : Except Revert ℕ := do
  revertIf (a ≠ 0 ∧ b > maxUint256 / a) (.curveMath .arithmeticOverflow)
  umul a b

/-- The output of a constant-product swap, rounded down. -/
def amountOut (amountInValue reserveIn reserveOut feeBps : ℕ) : Except Revert ℕ := do
  revertIf (amountInValue = 0) (.curveMath (.invalidAmountIn amountInValue))
  revertIf (reserveIn = 0 ∨ reserveOut = 0) (.curveMath (.invalidReserves reserveIn reserveOut))
  revertIf (feeBps ≥ bpsDenominator) (.curveMath (.invalidFeeBps feeBps))
  let amountInWithFee ← checkedMul amountInValue (bpsDenominator - feeBps)
  let scaledReserveIn ← checkedMul reserveIn bpsDenominator
  let denominator ← checkedAdd scaledReserveIn amountInWithFee
  let result ← mulDiv amountInWithFee reserveOut denominator
  revertIf (result = 0) (.curveMath .amountOutRoundsToZero)
  return result

/-- An input that is certainly enough for a desired output: the floor, plus one. -/
def amountIn (desiredAmountOut reserveIn reserveOut feeBps : ℕ) : Except Revert ℕ := do
  revertIf (desiredAmountOut = 0) (.curveMath (.invalidAmountOut desiredAmountOut))
  revertIf (reserveIn = 0 ∨ reserveOut ≤ desiredAmountOut)
    (.curveMath (.invalidReserves reserveIn reserveOut))
  revertIf (feeBps ≥ bpsDenominator) (.curveMath (.invalidFeeBps feeBps))
  let scaledReserveIn ← checkedMul reserveIn bpsDenominator
  let denominator ← checkedMul (reserveOut - desiredAmountOut) (bpsDenominator - feeBps)
  let floored ← mulDiv desiredAmountOut scaledReserveIn denominator
  checkedAdd floored 1

/-- `_validatedTotalFee`: the two rates, and their sum, stay below a whole. -/
def validatedTotalFee (feeBps additionalQuoteFeeBps : ℕ) : Except Revert ℕ := do
  revertIf (feeBps ≥ bpsDenominator) (.curveMath (.invalidFeeBps feeBps))
  revertIf (additionalQuoteFeeBps ≥ bpsDenominator)
    (.curveMath (.invalidFeeBps additionalQuoteFeeBps))
  let totalFeeBps ← checkedAdd feeBps additionalQuoteFeeBps
  revertIf (totalFeeBps ≥ bpsDenominator)
    (.curveMath (.invalidCombinedFeeBps feeBps additionalQuoteFeeBps))
  return totalFeeBps

/-- `_netAfterFees`: the two fee legs, each rounded down, and what they leave. -/
def netAfterFees (gross feeBps additionalQuoteFeeBps : ℕ) : Except Revert (ℕ × ℕ × ℕ) := do
  let fee ← mulDiv gross feeBps bpsDenominator
  let additionalQuoteFee ← mulDiv gross additionalQuoteFeeBps bpsDenominator
  let afterFee ← usub gross fee
  let net ← usub afterFee additionalQuoteFee
  return (fee, additionalQuoteFee, net)

/-- The word subtraction of the machine, which wraps. -/
def wrappingSub (a b : ℕ) : ℕ := (a + 2 ^ 256 - b) % 2 ^ 256

/-- `_fullProduct`: the high and the low word of a 512-bit product, read off its
residues modulo `2 ^ 256 - 1` and modulo `2 ^ 256`. -/
def fullProduct (a b : ℕ) : ℕ × ℕ :=
  let mm := a * b % (2 ^ 256 - 1)
  let low := a * b % 2 ^ 256
  (wrappingSub (wrappingSub mm low) (if mm < low then 1 else 0), low)

/-- `_productLte`: compare two products without narrowing either. -/
def productLte (a b c d : ℕ) : Bool :=
  let (leftHigh, leftLow) := fullProduct a b
  let (rightHigh, rightLow) := fullProduct c d
  leftHigh < rightHigh || (leftHigh == rightHigh && leftLow ≤ rightLow)

/-- A clipped buy passes if it gets the tokens its spent share was promised. -/
def proportionalSlippagePass (quoteSpent minTokensOut quoteReceived tokensOut : ℕ) : Bool :=
  productLte quoteSpent minTokensOut quoteReceived tokensOut

/-- What a gross amount of quote leaves after the three fee legs of a buy. -/
structure BuyFees where
  fee : ℕ
  additionalQuoteFee : ℕ
  creatorTaxFee : ℕ
  netQuote : ℕ

/-- The fee legs of a buy that spends `quoteSpent`. -/
def buyFees (quoteSpent feeBps additionalQuoteFeeBps creatorTaxBps : ℕ) :
    Except Revert BuyFees := do
  let (fee, additionalQuoteFee, net) ← netAfterFees quoteSpent feeBps additionalQuoteFeeBps
  let creatorTaxFee ← mulDiv quoteSpent creatorTaxBps bpsDenominator
  let netQuote ← usub net creatorTaxFee
  return { fee, additionalQuoteFee, creatorTaxFee, netQuote }

/-- The gross amount a clipped buy spends: what the inventory costs with the fees on
top, rounded up, but never more than was received. -/
def clippedSpend (netRequired totalFeeBps quoteReceived : ℕ) : Except Revert ℕ := do
  let grossRequired ← mulDivUp netRequired bpsDenominator (bpsDenominator - totalFeeBps)
  return min grossRequired quoteReceived

/-- The quote of a buy, with the creator tax charged on the gross amount. -/
def quoteBuyWithCreatorTax (quoteReceived quoteReserve tokenReserve reservedTokens feeBps
    additionalQuoteFeeBps creatorTaxBps minTokensOut : ℕ) : Except Revert BuyQuote := do
  let surchargeBps ← uadd additionalQuoteFeeBps creatorTaxBps
  let totalFeeBps ← validatedTotalFee feeBps surchargeBps
  revertIf (tokenReserve ≤ reservedTokens)
    (.curveMath (.insufficientSellableLiquidity tokenReserve reservedTokens))
  let full ← buyFees quoteReceived feeBps additionalQuoteFeeBps creatorTaxBps
  let tokensOut ← amountOut full.netQuote quoteReserve tokenReserve 0
  let sellableTokens ← usub tokenReserve reservedTokens
  if tokensOut > sellableTokens then
    let netRequired ← amountIn sellableTokens quoteReserve tokenReserve 0
    let quoteSpent ← clippedSpend netRequired totalFeeBps quoteReceived
    let fees ← buyFees quoteSpent feeBps additionalQuoteFeeBps creatorTaxBps
    let refund ← usub quoteReceived quoteSpent
    return {
      creatorTaxFee := fees.creatorTaxFee, quoteReceived, quoteSpent, fee := fees.fee,
      additionalQuoteFee := fees.additionalQuoteFee, netQuote := fees.netQuote,
      tokensOut := sellableTokens, refund, netRequired, partialFill := true,
      slippagePass :=
        proportionalSlippagePass quoteSpent minTokensOut quoteReceived sellableTokens }
  else
    return {
      creatorTaxFee := full.creatorTaxFee, quoteReceived, quoteSpent := quoteReceived,
      fee := full.fee, additionalQuoteFee := full.additionalQuoteFee, netQuote := full.netQuote,
      tokensOut, refund := 0, netRequired := 0, partialFill := false,
      slippagePass := tokensOut ≥ minTokensOut }

/-- The quote of a buy without a creator tax. -/
def quoteBuy (quoteReceived quoteReserve tokenReserve reservedTokens feeBps additionalQuoteFeeBps
    minTokensOut : ℕ) : Except Revert BuyQuote :=
  quoteBuyWithCreatorTax quoteReceived quoteReserve tokenReserve reservedTokens feeBps
    additionalQuoteFeeBps 0 minTokensOut

/-- The quote of a sell. -/
def quoteSell (tokensIn tokenReserve quoteReserve feeBps additionalQuoteFeeBps minQuoteOut : ℕ) :
    Except Revert SellQuote := do
  let _ ← validatedTotalFee feeBps additionalQuoteFeeBps
  let grossQuoteOut ← amountOut tokensIn tokenReserve quoteReserve 0
  let (fee, additionalQuoteFee, quoteOut) ← netAfterFees grossQuoteOut feeBps additionalQuoteFeeBps
  return { tokensIn, grossQuoteOut, fee, additionalQuoteFee, quoteOut,
           slippagePass := quoteOut ≥ minQuoteOut }

/-! ### Specifications of the parts -/

theorem checkedAdd_eq_ok {a b c : ℕ} : checkedAdd a b = .ok c ↔ a + b ≤ maxUint256 ∧ c = a + b := by
  simp [checkedAdd, @eq_comm ℕ c]

theorem checkedMul_eq_ok {a b c : ℕ} (h : checkedMul a b = .ok c) : c = a * b := by
  simp only [checkedMul, bind_eq_ok, umul_eq_ok] at h
  obtain ⟨-, -, -, h⟩ := h
  exact h

theorem validatedTotalFee_eq_ok {f g t : ℕ} (h : validatedTotalFee f g = .ok t) :
    t = f + g ∧ f + g < bpsDenominator := by
  simp only [validatedTotalFee, bind_eq_ok, revertIf_eq_ok, checkedAdd_eq_ok, pure_eq_ok,
    Except.ok.injEq, not_le, ge_iff_le] at h
  obtain ⟨-, -, -, -, t', ⟨-, rfl⟩, -, hlt, rfl⟩ := h
  exact ⟨rfl, hlt⟩

/-- **A swap without a fee** yields the floored constant-product output. -/
theorem amountOut_eq_ok {n x y out : ℕ} (h : amountOut n x y 0 = .ok out) :
    0 < n ∧ 0 < x ∧ 0 < y ∧ 0 < out ∧ out = n * y / (x + n) := by
  simp only [amountOut, bind_eq_ok, revertIf_eq_ok, checkedAdd_eq_ok, mulDiv_eq_ok, pure_eq_ok,
    Except.ok.injEq, not_or] at h
  obtain ⟨-, hn, -, ⟨hx, hy⟩, -, -, scaled, hscaled, reserve, hreserve, _, ⟨-, rfl⟩, _,
    ⟨-, -, rfl⟩, -, hout, rfl⟩ := h
  obtain rfl := checkedMul_eq_ok hscaled
  obtain rfl := checkedMul_eq_ok hreserve
  have hfactor : n * (bpsDenominator - 0) * y / (x * bpsDenominator + n * (bpsDenominator - 0))
      = n * y / (x + n) := by
    rw [Nat.sub_zero, ← Nat.add_mul, Nat.mul_right_comm]
    exact Nat.mul_div_mul_right _ _ (by decide)
  rw [hfactor] at hout ⊢
  exact ⟨Nat.pos_of_ne_zero hn, Nat.pos_of_ne_zero hx, Nat.pos_of_ne_zero hy,
    Nat.pos_of_ne_zero hout, rfl⟩

/-- **The input a desired output needs**: one more than the floored quotient. -/
theorem amountIn_eq_ok {out x y n : ℕ} (h : amountIn out x y 0 = .ok n) :
    0 < out ∧ out < y ∧ n = out * x / (y - out) + 1 := by
  simp only [amountIn, bind_eq_ok, revertIf_eq_ok, checkedAdd_eq_ok, mulDiv_eq_ok, not_or,
    not_le] at h
  obtain ⟨-, hout, -, ⟨-, hy⟩, -, -, scaled, hscaled, reserve, hreserve, _, ⟨-, -, rfl⟩, -, rfl⟩ := h
  obtain rfl := checkedMul_eq_ok hscaled
  obtain rfl := checkedMul_eq_ok hreserve
  rw [Nat.sub_zero, ← Nat.mul_assoc, Nat.mul_div_mul_right _ _ (by decide : 0 < bpsDenominator)]
  exact ⟨Nat.pos_of_ne_zero hout, hy, rfl⟩

theorem netAfterFees_eq_ok {gross f g fee additional net : ℕ}
    (h : netAfterFees gross f g = .ok (fee, additional, net)) :
    fee = gross * f / bpsDenominator ∧ additional = gross * g / bpsDenominator ∧
      fee + additional + net = gross := by
  simp only [netAfterFees, bind_eq_ok, mulDiv_eq_ok, usub_eq_ok, pure_eq_ok, Except.ok.injEq,
    Prod.mk.injEq] at h
  obtain ⟨_, ⟨-, -, rfl⟩, _, ⟨-, -, rfl⟩, _, ⟨h1, rfl⟩, _, ⟨h2, rfl⟩, rfl, rfl, rfl⟩ := h
  exact ⟨rfl, rfl, by omega⟩

theorem buyFees_eq_ok {gross f g t : ℕ} {fees : BuyFees} (h : buyFees gross f g t = .ok fees) :
    fees.fee = gross * f / bpsDenominator ∧ fees.additionalQuoteFee = gross * g / bpsDenominator ∧
      fees.creatorTaxFee = gross * t / bpsDenominator ∧
      fees.fee + fees.additionalQuoteFee + fees.creatorTaxFee + fees.netQuote = gross := by
  simp only [buyFees, bind_eq_ok, mulDiv_eq_ok, usub_eq_ok, pure_eq_ok, Except.ok.injEq,
    Prod.exists] at h
  obtain ⟨fee, additional, net, hnet, _, ⟨-, -, rfl⟩, _, ⟨htax, rfl⟩, rfl⟩ := h
  obtain ⟨rfl, rfl, hsum⟩ := netAfterFees_eq_ok hnet
  exact ⟨rfl, rfl, rfl, by dsimp only; omega⟩

/-- **The fees leave the rest of the gross amount**: the three legs, rounded down one by one,
take no more than their sum would. -/
theorem share_le_netQuote {gross f g t : ℕ} {fees : BuyFees} (h : buyFees gross f g t = .ok fees)
    (hlt : f + (g + t) < bpsDenominator) :
    gross * (bpsDenominator - (f + (g + t))) ≤ fees.netQuote * bpsDenominator := by
  obtain ⟨hfee, hadd, htax, hsum⟩ := buyFees_eq_ok h
  have hf : fees.fee * bpsDenominator ≤ gross * f := by rw [hfee]; exact div_mul_le _ _
  have hg : fees.additionalQuoteFee * bpsDenominator ≤ gross * g := by
    rw [hadd]; exact div_mul_le _ _
  have ht : fees.creatorTaxFee * bpsDenominator ≤ gross * t := by rw [htax]; exact div_mul_le _ _
  have hrate : gross * (bpsDenominator - (f + (g + t))) + gross * (f + (g + t))
      = gross * bpsDenominator := by
    rw [← Nat.mul_add, Nat.sub_add_cancel hlt.le]
  have hsplit : gross * (f + (g + t)) = gross * f + (gross * g + gross * t) := by ring
  have htotal : (fees.fee + fees.additionalQuoteFee + fees.creatorTaxFee + fees.netQuote)
      * bpsDenominator = gross * bpsDenominator := by rw [hsum]
  have hexpand : (fees.fee + fees.additionalQuoteFee + fees.creatorTaxFee + fees.netQuote)
      * bpsDenominator = fees.fee * bpsDenominator + fees.additionalQuoteFee * bpsDenominator
        + fees.creatorTaxFee * bpsDenominator + fees.netQuote * bpsDenominator := by ring
  omega

/-- **A gross amount that covers a net one leaves it.** -/
theorem le_netQuote_of_covers {gross f g t need : ℕ} {fees : BuyFees}
    (h : buyFees gross f g t = .ok fees) (hlt : f + (g + t) < bpsDenominator)
    (hcover : need * bpsDenominator ≤ gross * (bpsDenominator - (f + (g + t)))) :
    need ≤ fees.netQuote :=
  Nat.le_of_mul_le_mul_right (hcover.trans (share_le_netQuote h hlt)) (by decide)

/-- What a clipped buy spends either covers what it needs, or is all it received. -/
theorem clippedSpend_eq_ok {need total received spent : ℕ}
    (h : clippedSpend need total received = .ok spent) :
    spent ≤ received ∧
      (need * bpsDenominator ≤ spent * (bpsDenominator - total) ∨ spent = received) := by
  simp only [clippedSpend, bind_eq_ok, mulDivUp_eq_ok, pure_eq_ok, Except.ok.injEq] at h
  obtain ⟨gross, ⟨hne, -, hgross⟩, rfl⟩ := h
  refine ⟨Nat.min_le_right _ _, ?_⟩
  rcases Nat.le_total gross received with hle | hle
  · rw [Nat.min_eq_left hle, hgross]
    exact Or.inl (le_ceil_mul hne _)
  · rw [Nat.min_eq_right hle]
    exact Or.inr rfl

/-! ### What a quote says -/

/-- **The facts of a buy quote** on reserves `x` and `y` of which `r` tokens are
reserved: where the spent quote goes, and that what stays pays for what leaves. -/
structure BuyQuote.Sound (q : BuyQuote) (received x y r : ℕ) : Prop where
  received_eq : q.quoteReceived = received
  /-- The spent quote is the three fee legs and the net quote. -/
  spent_eq : q.fee + q.additionalQuoteFee + q.creatorTaxFee + q.netQuote = q.quoteSpent
  refund_eq : q.quoteSpent + q.refund = received
  reserved_lt : r < y
  tokensOut_pos : 0 < q.tokensOut
  tokensOut_le : q.tokensOut ≤ y - r
  /-- The net quote pays for the tokens at the constant product. -/
  covers : q.tokensOut * x ≤ q.netQuote * (y - q.tokensOut)

/-- A floored output is paid for at the constant product. -/
theorem covers_of_le_div {n x y out : ℕ} (h : out ≤ n * y / (x + n)) (hpos : 0 < x + n) :
    out * x ≤ n * (y - out) := by
  have hmul : out * (x + n) ≤ n * y := (Nat.le_div_iff_mul_le hpos).mp h
  have hexpand : out * (x + n) = out * x + n * out := by ring
  rw [Nat.mul_sub]
  omega

/-- One more than the floored cost pays for the inventory at the constant product. -/
theorem covers_of_amountIn {need n x y out : ℕ} (hneed : need = out * x / (y - out) + 1)
    (hle : need ≤ n) (hlt : out < y) : out * x ≤ n * (y - out) := by
  have hpos : 0 < y - out := Nat.sub_pos_of_lt hlt
  have hceil : out * x < (out * x / (y - out) + 1) * (y - out) := by
    rw [Nat.mul_comm _ (y - out)]
    exact Nat.lt_mul_div_succ _ hpos
  calc out * x ≤ need * (y - out) := by rw [hneed]; exact hceil.le
    _ ≤ n * (y - out) := Nat.mul_le_mul_right _ hle

/-- **Every buy quote is sound**, a full fill and a clipped one alike. The clipped
case has two sub-cases: the spent amount covers the inventory with its fees, or it
is everything that was received – and then the full fill it replaces would have
bought more than the inventory for the same net quote. -/
theorem quoteBuyWithCreatorTax_sound {received x y r f g t minOut : ℕ} {q : BuyQuote}
    (h : quoteBuyWithCreatorTax received x y r f g t minOut = .ok q) : q.Sound received x y r := by
  simp only [quoteBuyWithCreatorTax, bind_eq_ok, uadd_eq_ok, revertIf_eq_ok, usub_eq_ok,
    not_le] at h
  obtain ⟨_, ⟨-, rfl⟩, total, htotal, -, hr, full, hfull, out, hout, sellable, ⟨-, rfl⟩, h⟩ := h
  obtain ⟨-, hx, -, hout0, houtEq⟩ := amountOut_eq_ok hout
  obtain ⟨hfullFee, hfullAdd, hfullTax, hfullSum⟩ := buyFees_eq_ok hfull
  split at h
  · rename_i hclip
    simp only [bind_eq_ok, usub_eq_ok, pure_eq_ok, Except.ok.injEq] at h
    obtain ⟨need, hneed, spent, hspent, fees, hfees, _, ⟨-, rfl⟩, rfl⟩ := h
    obtain ⟨hsell0, hsellLt, hneedEq⟩ := amountIn_eq_ok hneed
    obtain ⟨htotalEq, htotalLt⟩ := validatedTotalFee_eq_ok htotal
    obtain ⟨hspentLe, hspentCases⟩ := clippedSpend_eq_ok hspent
    obtain ⟨-, -, -, hsum⟩ := buyFees_eq_ok hfees
    refine ⟨rfl, hsum, Nat.add_sub_cancel' hspentLe, hr, hsell0, le_rfl, ?_⟩
    rcases hspentCases with hcover | rfl
    · rw [htotalEq] at hcover
      exact covers_of_amountIn hneedEq (le_netQuote_of_covers hfees htotalLt hcover) hsellLt
    · -- The same gross amount has the same legs, so the net quote is the full fill's.
      obtain rfl : fees = full := Except.ok.inj (hfees.symm.trans hfull)
      have hle : y - r ≤ fees.netQuote * y / (x + fees.netQuote) := by rw [← houtEq]; exact hclip.le
      exact covers_of_le_div hle (Nat.add_pos_left hx _)
  · rename_i hfit
    simp only [pure_eq_ok, Except.ok.injEq] at h
    obtain rfl := h
    exact ⟨rfl, hfullSum, Nat.add_zero _, hr, hout0, Nat.le_of_not_lt hfit,
      covers_of_le_div houtEq.le (by omega)⟩

/-- **The facts of a sell quote** on reserves `x` and `y`. -/
structure SellQuote.Sound (q : SellQuote) (tokensIn x y : ℕ) : Prop where
  tokensIn_eq : q.tokensIn = tokensIn
  tokensIn_pos : 0 < tokensIn
  /-- The gross quote is the two fee legs and what is paid out. -/
  gross_eq : q.fee + q.additionalQuoteFee + q.quoteOut = q.grossQuoteOut
  /-- The tokens that come in pay for the gross quote at the constant product. -/
  covered : q.grossQuoteOut * (y + tokensIn) ≤ tokensIn * x

/-- **Every sell quote is sound.** -/
theorem quoteSell_sound {tokensIn x y f g minOut : ℕ} {q : SellQuote}
    (h : quoteSell tokensIn y x f g minOut = .ok q) : q.Sound tokensIn x y := by
  simp only [quoteSell, bind_eq_ok, pure_eq_ok, Except.ok.injEq, Prod.exists] at h
  obtain ⟨-, -, gross, hgross, fee, additional, out, hnet, rfl⟩ := h
  obtain ⟨hin, hy, -, -, hgrossEq⟩ := amountOut_eq_ok hgross
  obtain ⟨-, -, hsum⟩ := netAfterFees_eq_ok hnet
  refine ⟨rfl, hin, hsum, ?_⟩
  dsimp only
  rw [hgrossEq]
  exact div_mul_le _ _

end CurveMath

namespace AntiSnipe

open CurveMath

/-! ### The anti-snipe surcharge -/

/-- `MINIMUM_NET_BPS`: the share of a buy no fee may take. -/
def minimumNetBps : ℕ := 100

/-- `CREATOR_TAX_BPS` of the anti-snipe policy. -/
def creatorTaxBps : ℕ := 0

/-- `SNIPE_TAX_SECONDS`: how long the surcharge lasts. -/
def snipeTaxSeconds : ℕ := 5

/-- The frozen identities the surcharge does not apply to. -/
structure ExemptionContext where
  creator : Address
  beneficiaryAtCreation : Address
  launchRouter : Address
  atomicFirstBuyRecipient : Address

/-- A buy quote with the surcharge it was made with. -/
structure AntiSnipeBuyQuote where
  rawSnipeBps : ℕ
  effectiveSnipeBps : ℕ
  exempt : Bool
  curveQuote : BuyQuote

/-- The seconds since launch. -/
def elapsedSince (currentTimestamp launchTimestamp : ℕ) : Except Revert ℕ := do
  revertIf (currentTimestamp < launchTimestamp)
    (.antiSnipe (.timestampBeforeLaunch currentTimestamp launchTimestamp))
  usub currentTimestamp launchTimestamp

/-- Whether a buy is exempt: for the creator, the beneficiary, and the recipient of
the router's first buy. -/
def isExempt (recipient caller : Address) (context : ExemptionContext) : Except Revert Bool := do
  revertIf (recipient = 0) (.antiSnipe (.invalidRecipient recipient))
  revertIf (context.creator = 0 ∨ context.beneficiaryAtCreation = 0)
    (.antiSnipe (.invalidFrozenIdentity context.creator context.beneficiaryAtCreation))
  revertIf (context.launchRouter = 0) (.antiSnipe (.invalidLaunchRouter context.launchRouter))
  return (recipient == context.creator || recipient == context.beneficiaryAtCreation
    || (caller == context.launchRouter && context.atomicFirstBuyRecipient != 0
      && recipient == context.atomicFirstBuyRecipient))

/-- The surcharge of each second since launch. -/
def rawSnipeBps (elapsedSeconds : ℕ) (exempt : Bool) : ℕ :=
  if exempt ∨ elapsedSeconds ≥ snipeTaxSeconds then 0
  else if elapsedSeconds = 0 then 9900
  else if elapsedSeconds = 1 then 2475
  else if elapsedSeconds = 2 then 309
  else if elapsedSeconds = 3 then 19
  else 1

/-- The surcharge, capped so that the minimum net share is left. -/
def effectiveSnipeBps (elapsedSeconds : ℕ) (exempt : Bool) (feeBps : ℕ) :
    Except Revert (ℕ × ℕ) := do
  revertIf (feeBps > bpsDenominator - creatorTaxBps - minimumNetBps)
    (.antiSnipe (.feeLeavesLessThanMinimumNet feeBps minimumNetBps))
  let rawBps := rawSnipeBps elapsedSeconds exempt
  let maximumSnipeBps := bpsDenominator - feeBps - creatorTaxBps - minimumNetBps
  return (rawBps, if rawBps < maximumSnipeBps then rawBps else maximumSnipeBps)

end AntiSnipe

end TickerGarden
