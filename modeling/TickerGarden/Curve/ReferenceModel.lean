import TickerGarden.Curve.Completion
import TickerGarden.Lib.Agreement

/-!
# The reference model of the curve

The curve has a second description, `v1_reference_model.py`, that computes with integers of
any size and raises a `ValueError` where it leaves the range of a word. It checks the range of
every argument at the entry of each function, never the range of a difference, and it rounds a
quotient towards minus infinity.

This file is that model, and the proof that `TickerGarden.CurveMath.quoteBuy` and
`TickerGarden.CurveMath.quoteSell` agree with it on all words
(`TickerGarden.ReferenceModel.quotes_agree`). The two descriptions do not take the same steps:

| step                     | contract                     | model                             |
|--------------------------|------------------------------|-----------------------------------|
| rates                    | each of them, then their sum | only their sum                    |
| what the fees leave      | checked                      | unchecked, then tested as a word  |
| products of 512 bits     | two words, from residues     | one integer                       |
| slippage of a full fill  | `tokensOut ≥ minTokensOut`   | the product test, like a clipped  |
| what was required        | `0` if nothing was           | `None`                            |

The fourth line is the only one that needs the state of the quote: the product test with what
was received on both sides is the plain one because something was received.
-/

namespace TickerGarden

open Checked Agreement

namespace ReferenceModel

/-- A `ValueError`, with its message. -/
structure ValueError where
  message : String
deriving DecidableEq

/-- `UINT256_MAX`, as an integer. -/
def uint256Max : ℤ := 2 ^ 256 - 1

/-- `BPS_DENOMINATOR`, as an integer. -/
def bpsDenominator : ℤ := 10000

/-! ### The source functions -/

/-- `_require_uint`: every value named fits a word of so many bits. -/
def requireUint (bits : ℕ) : List (String × ℤ) → Except ValueError Unit
  | [] => return ()
  | (name, value) :: values => do
    revertIf (value < 0 ∨ value > 2 ^ bits - 1) ⟨name ++ " must fit uint" ++ toString bits⟩
    requireUint bits values

/-- `checked_add_uint256`, of any number of words. -/
def checkedAddUint256 (values : List ℤ) : Except ValueError ℤ := do
  requireUint 256 (values.zipIdx.map fun (value, index) => ("value_" ++ toString index, value))
  let result := values.sum
  revertIf (result > uint256Max) ⟨"uint256 addition overflow"⟩
  return result

/-- `checked_mul_uint256`. -/
def checkedMulUint256 (left right : ℤ) : Except ValueError ℤ := do
  requireUint 256 [("left", left), ("right", right)]
  let result := left * right
  revertIf (result > uint256Max) ⟨"uint256 multiplication overflow"⟩
  return result

/-- `mul_div_floor`. -/
def mulDivFloor (left right denominator : ℤ) : Except ValueError ℤ := do
  requireUint 256 [("left", left), ("right", right), ("denominator", denominator)]
  revertIf (denominator = 0) ⟨"denominator must be positive"⟩
  let result := (left * right).fdiv denominator
  revertIf (result > uint256Max) ⟨"mulDiv result overflows uint256"⟩
  return result

/-- `mul_div_ceil`: the increment is tested before it is made. -/
def mulDivCeil (left right denominator : ℤ) : Except ValueError ℤ := do
  let result ← mulDivFloor left right denominator
  if (left * right).fmod denominator ≠ 0 then do
    revertIf (result = uint256Max) ⟨"mulDiv rounding overflows uint256"⟩
    return result + 1
  else return result

/-- `product_lte`. -/
def productLte (leftA leftB rightA rightB : ℤ) : Except ValueError Bool := do
  requireUint 256
    [("left_a", leftA), ("left_b", leftB), ("right_a", rightA), ("right_b", rightB)]
  return leftA * leftB ≤ rightA * rightB

/-- `curve_amount_out`. -/
def curveAmountOut (amountIn reserveIn reserveOut feeBps : ℤ) : Except ValueError ℤ := do
  requireUint 256 [("amount_in", amountIn), ("reserve_in", reserveIn),
    ("reserve_out", reserveOut), ("fee_bps", feeBps)]
  revertIf (amountIn = 0) ⟨"amount_in must be positive"⟩
  revertIf (reserveIn = 0 ∨ reserveOut = 0) ⟨"reserves must be positive"⟩
  revertIf (feeBps ≥ bpsDenominator) ⟨"fee_bps must be below 10000"⟩
  let amountInWithFee ← checkedMulUint256 amountIn (bpsDenominator - feeBps)
  let scaledReserve ← checkedMulUint256 reserveIn bpsDenominator
  let denominator ← checkedAddUint256 [scaledReserve, amountInWithFee]
  let amountOut ← mulDivFloor amountInWithFee reserveOut denominator
  revertIf (amountOut = 0) ⟨"amount_out rounds to zero"⟩
  return amountOut

/-- `curve_amount_in`. -/
def curveAmountIn (amountOut reserveIn reserveOut feeBps : ℤ) : Except ValueError ℤ := do
  requireUint 256 [("amount_out", amountOut), ("reserve_in", reserveIn),
    ("reserve_out", reserveOut), ("fee_bps", feeBps)]
  revertIf (amountOut = 0) ⟨"amount_out must be positive"⟩
  revertIf (reserveIn = 0 ∨ reserveOut ≤ amountOut) ⟨"insufficient liquidity"⟩
  revertIf (feeBps ≥ bpsDenominator) ⟨"fee_bps must be below 10000"⟩
  let scaledReserve ← checkedMulUint256 reserveIn bpsDenominator
  let denominator ← checkedMulUint256 (reserveOut - amountOut) (bpsDenominator - feeBps)
  let quoted ← mulDivFloor amountOut scaledReserve denominator
  checkedAddUint256 [quoted, 1]

/-- The quote of a buy, in the model. -/
structure CurveBuyQuote where
  quoteReceived : ℤ
  quoteSpent : ℤ
  fee : ℤ
  additionalQuoteFee : ℤ
  netQuote : ℤ
  tokensOut : ℤ
  refund : ℤ
  partialFill : Bool
  netRequired : Option ℤ
  slippagePass : Bool
deriving DecidableEq

/-- The fee legs of a gross amount, and what they leave. The subtractions are not checked. -/
def feeLegs (gross feeBps additionalQuoteFeeBps : ℤ) : Except ValueError (ℤ × ℤ × ℤ) := do
  let fee ← mulDivFloor gross feeBps bpsDenominator
  let additionalFee ← mulDivFloor gross additionalQuoteFeeBps bpsDenominator
  return (fee, additionalFee, gross - fee - additionalFee)

/-- `quote_curve_buy`. -/
def quoteCurveBuy (quoteReceived quoteReserve tokenReserve reservedTokens feeBps
    additionalQuoteFeeBps minTokensOut : ℤ) : Except ValueError CurveBuyQuote := do
  requireUint 256 [("quote_received", quoteReceived), ("quote_reserve", quoteReserve),
    ("token_reserve", tokenReserve), ("reserved_tokens", reservedTokens), ("fee_bps", feeBps),
    ("additional_quote_fee_bps", additionalQuoteFeeBps), ("min_tokens_out", minTokensOut)]
  let totalFeeBps ← checkedAddUint256 [feeBps, additionalQuoteFeeBps]
  revertIf (totalFeeBps ≥ bpsDenominator) ⟨"combined quote fees must leave positive net input"⟩
  revertIf (tokenReserve ≤ reservedTokens) ⟨"curve has no sellable tokens"⟩
  let (fee, additionalFee, netQuote) ← feeLegs quoteReceived feeBps additionalQuoteFeeBps
  let tokensOut ← curveAmountOut netQuote quoteReserve tokenReserve 0
  let sellable := tokenReserve - reservedTokens
  if tokensOut > sellable then
    let netRequired ← curveAmountIn sellable quoteReserve tokenReserve 0
    let grossRequired ← mulDivCeil netRequired bpsDenominator (bpsDenominator - totalFeeBps)
    let quoteSpent := min grossRequired quoteReceived
    let (fee, additionalFee, netQuote) ← feeLegs quoteSpent feeBps additionalQuoteFeeBps
    let slippagePass ← productLte quoteSpent minTokensOut quoteReceived sellable
    return {
      quoteReceived, quoteSpent, fee, additionalQuoteFee := additionalFee, netQuote,
      tokensOut := sellable, refund := quoteReceived - quoteSpent, partialFill := true,
      netRequired := some netRequired, slippagePass }
  else
    let slippagePass ← productLte quoteReceived minTokensOut quoteReceived tokensOut
    return {
      quoteReceived, quoteSpent := quoteReceived, fee, additionalQuoteFee := additionalFee,
      netQuote, tokensOut, refund := quoteReceived - quoteReceived, partialFill := false,
      netRequired := none, slippagePass }

/-- The quote of a sell, in the model. -/
structure CurveSellQuote where
  grossQuoteOut : ℤ
  fee : ℤ
  additionalQuoteFee : ℤ
  quoteOut : ℤ
  slippagePass : Bool
deriving DecidableEq

/-- `quote_curve_sell`. -/
def quoteCurveSell (tokensIn tokenReserve quoteReserve feeBps additionalQuoteFeeBps
    minQuoteOut : ℤ) : Except ValueError CurveSellQuote := do
  requireUint 256 [("tokens_in", tokensIn), ("token_reserve", tokenReserve),
    ("quote_reserve", quoteReserve), ("fee_bps", feeBps),
    ("additional_quote_fee_bps", additionalQuoteFeeBps), ("min_quote_out", minQuoteOut)]
  let totalFeeBps ← checkedAddUint256 [feeBps, additionalQuoteFeeBps]
  revertIf (totalFeeBps ≥ bpsDenominator) ⟨"combined quote fees must leave positive output"⟩
  let gross ← curveAmountOut tokensIn tokenReserve quoteReserve 0
  let (fee, additionalFee, quoteOut) ← feeLegs gross feeBps additionalQuoteFeeBps
  return { grossQuoteOut := gross, fee, additionalQuoteFee := additionalFee, quoteOut,
           slippagePass := quoteOut ≥ minQuoteOut }

/-! ### The parts agree -/

/-- A word of the contract and the integer of the model that stands for it. -/
def Same (n : ℕ) (z : ℤ) : Prop := z = n

theorem uint256Max_eq : uint256Max = (maxUint256 : ℤ) := by
  rw [uint256Max, maxUint256]
  norm_num

/-- The range check of a list of words passes. -/
theorem requireUint_ok {values : List (String × ℤ)}
    (h : ∀ p ∈ values, ∃ n : ℕ, n ≤ maxUint256 ∧ p.2 = n) : requireUint 256 values = .ok () := by
  induction values with
  | nil => rfl
  | cons p values ih =>
    obtain ⟨name, value⟩ := p
    obtain ⟨n, hn, heq⟩ := h _ List.mem_cons_self
    have hmax : ((2 : ℤ) ^ 256 - 1) = (maxUint256 : ℤ) := uint256Max_eq
    have hrange : ¬ (value < 0 ∨ value > (2 : ℤ) ^ 256 - 1) := by
      dsimp only at heq
      omega
    rw [requireUint, revertIf_neg hrange, ok_bind]
    exact ih fun q hq => h q (List.mem_cons_of_mem _ hq)

/-- The test of a value against the range of a word. -/
theorem gt_uint256Max_iff {n : ℕ} : (n : ℤ) > uint256Max ↔ n > maxUint256 := by
  rw [uint256Max_eq, gt_iff_lt, gt_iff_lt, Nat.cast_lt]

theorem agree_checkedAdd {a b : ℕ} (ha : a ≤ maxUint256) (hb : b ≤ maxUint256) :
    Agree Same (CurveMath.checkedAdd a b) (checkedAddUint256 [(a : ℤ), (b : ℤ)]) := by
  have hsum : ([(a : ℤ), (b : ℤ)] : List ℤ).sum = ((a + b : ℕ) : ℤ) := by simp
  rw [CurveMath.checkedAdd, checkedAddUint256,
    requireUint_ok (by simp [ha, hb]), ok_bind, hsum]
  refine (agree_revertIf ?_).bind fun _ _ _ _ _ => rfl
  exact gt_uint256Max_iff.symm

theorem agree_checkedMul {a b : ℕ} (ha : a ≤ maxUint256) (hb : b ≤ maxUint256) :
    Agree Same (CurveMath.checkedMul a b) (checkedMulUint256 a b) := by
  rw [checkedMulUint256, requireUint_ok (by simp [ha, hb]), ok_bind,
    ← Nat.cast_mul]
  dsimp only
  rcases Nat.lt_or_ge maxUint256 (a * b) with hlt | hle
  · rw [CurveMath.checkedMul_eq_error hlt, revertIf_pos (gt_uint256Max_iff.mpr hlt)]
    trivial
  · rw [CurveMath.checkedMul_eq_ok_iff.mpr ⟨hle, rfl⟩,
      revertIf_neg (gt_uint256Max_iff.not.mpr (Nat.not_lt.mpr hle))]
    exact rfl

theorem agree_mulDiv {a b c : ℕ} (ha : a ≤ maxUint256) (hb : b ≤ maxUint256)
    (hc : c ≤ maxUint256) :
    Agree Same (mulDiv a b c : Except Revert ℕ) (mulDivFloor a b c) := by
  have hquotient : ((a : ℤ) * b).fdiv c = ((a * b / c : ℕ) : ℤ) := by
    rw [Int.fdiv_eq_ediv_of_nonneg _ (Int.natCast_nonneg c)]
    push_cast
    rfl
  rw [mulDivFloor, requireUint_ok (by simp [ha, hb, hc]),
    ok_bind, hquotient, mulDiv]
  dsimp only
  by_cases hzero : c = 0
  · rw [if_pos hzero, revertIf_pos (by exact_mod_cast hzero)]
    trivial
  · rw [if_neg hzero, revertIf_neg (by exact_mod_cast hzero), ok_bind]
    by_cases hle : a * b / c ≤ maxUint256
    · rw [if_pos hle, revertIf_neg (gt_uint256Max_iff.not.mpr (Nat.not_lt.mpr hle))]
      exact rfl
    · rw [if_neg hle, revertIf_pos (gt_uint256Max_iff.mpr (Nat.lt_of_not_le hle))]
      trivial

theorem agree_mulDivUp {a b c : ℕ} (ha : a ≤ maxUint256) (hb : b ≤ maxUint256)
    (hc : c ≤ maxUint256) :
    Agree Same (mulDivUp a b c : Except Revert ℕ) (mulDivCeil a b c) := by
  have hremainder : ((a : ℤ) * b).fmod c = ((a * b % c : ℕ) : ℤ) := by
    rw [Int.fmod_eq_emod_of_nonneg _ (Int.natCast_nonneg c)]
    push_cast
    rfl
  rw [mulDivUp, mulDivCeil]
  refine (agree_mulDiv ha hb hc).bind fun q z hq _ hsame => ?_
  obtain rfl : z = q := hsame
  obtain ⟨-, hle, rfl⟩ := mulDiv_eq_ok.mp hq
  rw [hremainder]
  by_cases hexact : a * b % c = 0
  · rw [if_pos hexact, if_neg (by exact_mod_cast not_not.mpr hexact),
      uadd_eq_ok.mpr ⟨by simpa using hle, rfl⟩]
    exact rfl
  · rw [if_neg hexact, if_pos (by exact_mod_cast hexact)]
    by_cases hmax : a * b / c = maxUint256
    · rw [revertIf_pos (by rw [hmax, uint256Max_eq]), uadd_eq_error.mpr ⟨by omega, rfl⟩]
      trivial
    · rw [revertIf_neg (by rw [uint256Max_eq]; exact_mod_cast hmax),
        uadd_eq_ok.mpr ⟨by omega, rfl⟩]
      exact rfl

/-- A whole, on the two sides. -/
theorem bpsDenominator_eq : bpsDenominator = (CurveMath.bpsDenominator : ℤ) := rfl

/-- What a rate leaves of a whole, if it is below one. -/
theorem bpsDenominator_sub {f : ℕ} (h : ¬ f ≥ CurveMath.bpsDenominator) :
    bpsDenominator - (f : ℤ) = ((CurveMath.bpsDenominator - f : ℕ) : ℤ) := by
  rw [bpsDenominator_eq]
  omega

theorem bpsDenominator_le : CurveMath.bpsDenominator ≤ maxUint256 := by
  rw [maxUint256]
  decide

/-- **The price of an input**, with any fee. -/
theorem agree_amountOut {n x y f : ℕ} (hn : n ≤ maxUint256) (hx : x ≤ maxUint256)
    (hy : y ≤ maxUint256) (hf : f ≤ maxUint256) :
    Agree Same (CurveMath.amountOut n x y f) (curveAmountOut n x y f) := by
  have hbps := bpsDenominator_le
  rw [CurveMath.amountOut, curveAmountOut, requireUint_ok (by simp [hn, hx, hy, hf]), ok_bind]
  refine (agree_revertIf (by omega)).bind fun _ _ _ _ _ => ?_
  refine (agree_revertIf (by omega)).bind fun _ _ _ _ _ => ?_
  refine (agree_revertIf (by rw [bpsDenominator_eq]; omega)).bind fun _ _ hfee _ _ => ?_
  rw [bpsDenominator_sub (revertIf_eq_ok.mp hfee)]
  refine (agree_checkedMul hn (by omega)).bind fun net z hnet _ hz => ?_
  obtain rfl : z = net := hz
  refine (agree_checkedMul hx hbps).bind fun scaled z hscaled _ hz => ?_
  obtain rfl : z = scaled := hz
  obtain ⟨hnetLe, rfl⟩ := CurveMath.checkedMul_eq_ok_iff.mp hnet
  obtain ⟨hscaledLe, rfl⟩ := CurveMath.checkedMul_eq_ok_iff.mp hscaled
  refine (agree_checkedAdd hscaledLe hnetLe).bind fun denominator z hdenominator _ hz => ?_
  obtain rfl : z = denominator := hz
  obtain ⟨hsum, rfl⟩ := CurveMath.checkedAdd_eq_ok.mp hdenominator
  refine (agree_mulDiv hnetLe hy hsum).bind fun out z _ _ hz => ?_
  obtain rfl : z = out := hz
  exact (agree_revertIf (by omega)).bind fun _ _ _ _ _ => rfl

/-- An output is within the reserve it is paid from. -/
theorem amountOut_le {n x y out : ℕ} (h : CurveMath.amountOut n x y 0 = .ok out) : out ≤ y := by
  obtain ⟨-, -, -, -, rfl⟩ := CurveMath.amountOut_eq_ok h
  refine Nat.div_le_of_le_mul ?_
  rw [Nat.add_mul]
  exact Nat.le_add_left _ _

/-- **The cost of an output**, with any fee. -/
theorem agree_amountIn {out x y f : ℕ} (hout : out ≤ maxUint256) (hx : x ≤ maxUint256)
    (hy : y ≤ maxUint256) (hf : f ≤ maxUint256) :
    Agree Same (CurveMath.amountIn out x y f) (curveAmountIn out x y f) := by
  have hbps := bpsDenominator_le
  rw [CurveMath.amountIn, curveAmountIn, requireUint_ok (by simp [hout, hx, hy, hf]), ok_bind]
  refine (agree_revertIf (by omega)).bind fun _ _ _ _ _ => ?_
  refine (agree_revertIf (by omega)).bind fun _ _ hreserves _ _ => ?_
  refine (agree_revertIf (by rw [bpsDenominator_eq]; omega)).bind fun _ _ hfee _ _ => ?_
  have hlt : out < y := Nat.lt_of_not_le fun hle => revertIf_eq_ok.mp hreserves (Or.inr hle)
  rw [bpsDenominator_sub (revertIf_eq_ok.mp hfee), ← Nat.cast_sub hlt.le]
  refine (agree_checkedMul hx hbps).bind fun scaled z hscaled _ hz => ?_
  obtain rfl : z = scaled := hz
  refine (agree_checkedMul (by omega) (by omega)).bind fun denominator z hdenominator _ hz => ?_
  obtain rfl : z = denominator := hz
  obtain ⟨hscaledLe, rfl⟩ := CurveMath.checkedMul_eq_ok_iff.mp hscaled
  obtain ⟨hrest, rfl⟩ := CurveMath.checkedMul_eq_ok_iff.mp hdenominator
  refine (agree_mulDiv hout hscaledLe hrest).bind fun floored z hfloored _ hz => ?_
  obtain rfl : z = floored := hz
  obtain ⟨-, hle, rfl⟩ := mulDiv_eq_ok.mp hfloored
  exact agree_checkedAdd hle (by rw [maxUint256]; decide)

/-- **The fee legs** of a buy without a creator tax, and what they leave. -/
def SameFees (fees : CurveMath.BuyFees) (legs : ℤ × ℤ × ℤ) : Prop :=
  fees.creatorTaxFee = 0 ∧ legs.1 = fees.fee ∧ legs.2.1 = fees.additionalQuoteFee ∧
    legs.2.2 = fees.netQuote

/-- A fee leg of the model. -/
theorem mulDivFloor_leg {n f : ℕ} (hn : n ≤ maxUint256) (hf : f < CurveMath.bpsDenominator) :
    mulDivFloor n f bpsDenominator = .ok ((n * f / CurveMath.bpsDenominator : ℕ) : ℤ) := by
  have hbps := bpsDenominator_le
  have hle : n * f / CurveMath.bpsDenominator ≤ n :=
    Nat.div_le_of_le_mul (Nat.mul_comm n f ▸ Nat.mul_le_mul_right n hf.le)
  have hagree := agree_mulDiv hn (hf.le.trans hbps) hbps
  rw [mulDiv_eq_ok.mpr ⟨by decide, hle.trans hn, rfl⟩] at hagree
  rw [bpsDenominator_eq]
  cases hmodel : mulDivFloor n f CurveMath.bpsDenominator with
  | error e => rw [hmodel] at hagree; exact hagree.elim
  | ok z =>
    rw [hmodel] at hagree
    exact congrArg Except.ok hagree

theorem feeLegs_eq {n f g : ℕ} (hn : n ≤ maxUint256) (hf : f < CurveMath.bpsDenominator)
    (hg : g < CurveMath.bpsDenominator) :
    feeLegs n f g = .ok ((n * f / CurveMath.bpsDenominator : ℕ),
      (n * g / CurveMath.bpsDenominator : ℕ),
      (n : ℤ) - (n * f / CurveMath.bpsDenominator : ℕ)
        - (n * g / CurveMath.bpsDenominator : ℕ)) := by
  rw [feeLegs, mulDivFloor_leg hn hf, ok_bind, mulDivFloor_leg hn hg]
  rfl

theorem agree_buyFees {n f g : ℕ} (hn : n ≤ maxUint256)
    (hrates : f + g < CurveMath.bpsDenominator) :
    Agree SameFees (CurveMath.buyFees n f g 0) (feeLegs n f g) := by
  obtain ⟨fees, hfees⟩ := CurveMath.buyFees_isOk (t := 0) hn hrates
  obtain ⟨hfee, hadditional, htax, hsum⟩ := CurveMath.buyFees_eq_ok hfees
  rw [Nat.mul_zero, Nat.zero_div] at htax
  rw [hfees, feeLegs_eq hn (by omega) (by omega), ← hfee, ← hadditional]
  exact ⟨htax, rfl, rfl, by dsimp only; omega⟩

/-- The cost of an output is a word. -/
theorem amountIn_le {out x y f n : ℕ} (h : CurveMath.amountIn out x y f = .ok n) :
    n ≤ maxUint256 := by
  simp only [CurveMath.amountIn, bind_eq_ok, CurveMath.checkedAdd_eq_ok] at h
  obtain ⟨-, -, -, -, -, -, -, -, -, -, floored, -, hle, rfl⟩ := h
  exact hle

theorem productLte_eq {a b c d : ℕ} (ha : a ≤ maxUint256) (hb : b ≤ maxUint256)
    (hc : c ≤ maxUint256) (hd : d ≤ maxUint256) :
    productLte a b c d = .ok (CurveMath.productLte a b c d) := by
  rw [productLte, requireUint_ok (by simp [ha, hb, hc, hd]), ok_bind, pure_eq_ok,
    Except.ok.injEq, Bool.eq_iff_iff, CurveMath.productLte_iff ha hb hc hd, decide_eq_true_eq]
  exact_mod_cast Iff.rfl

/-- The sum of the two rates, in the model. -/
theorem checkedAddUint256_eq_ok {f g : ℕ} {z : ℤ} (hf : f ≤ maxUint256) (hg : g ≤ maxUint256) :
    checkedAddUint256 [(f : ℤ), (g : ℤ)] = .ok z ↔ f + g ≤ maxUint256 ∧ z = ((f + g : ℕ) : ℤ) := by
  have hsum : ([(f : ℤ), (g : ℤ)] : List ℤ).sum = ((f + g : ℕ) : ℤ) := by simp
  rw [checkedAddUint256, requireUint_ok (by simp [hf, hg]), ok_bind, hsum, bind_eq_ok]
  simp only [revertIf_eq_ok, gt_uint256Max_iff, pure_eq_ok, Except.ok.injEq, gt_iff_lt, not_lt]
  exact ⟨fun ⟨_, hle, heq⟩ => ⟨hle, heq.symm⟩, fun ⟨hle, heq⟩ => ⟨(), hle, heq.symm⟩⟩

/-! ### The quotes agree -/

/-- **The same quote of a buy.** The model has no creator tax, and says `None` where the
contract leaves the required quote at zero. -/
structure SameBuy (q : CurveMath.BuyQuote) (r : CurveBuyQuote) : Prop where
  creatorTaxFee : q.creatorTaxFee = 0
  quoteReceived : r.quoteReceived = q.quoteReceived
  quoteSpent : r.quoteSpent = q.quoteSpent
  fee : r.fee = q.fee
  additionalQuoteFee : r.additionalQuoteFee = q.additionalQuoteFee
  netQuote : r.netQuote = q.netQuote
  tokensOut : r.tokensOut = q.tokensOut
  refund : r.refund = q.refund
  partialFill : r.partialFill = q.partialFill
  netRequired : r.netRequired = if q.partialFill then some (q.netRequired : ℤ) else none
  netRequired_full : q.partialFill = false → q.netRequired = 0
  slippagePass : r.slippagePass = q.slippagePass

/-- **The same quote of a sell.** The contract repeats the tokens it was given. -/
structure SameSell (tokensIn : ℕ) (q : CurveMath.SellQuote) (r : CurveSellQuote) : Prop where
  tokensIn_eq : q.tokensIn = tokensIn
  grossQuoteOut : r.grossQuoteOut = q.grossQuoteOut
  fee : r.fee = q.fee
  additionalQuoteFee : r.additionalQuoteFee = q.additionalQuoteFee
  quoteOut : r.quoteOut = q.quoteOut
  slippagePass : r.slippagePass = q.slippagePass

section Quotes

variable {received x y r f g minOut : ℕ}

/-- **The stages of a buy in the model**, once its rates and reserves have passed the checks. -/
theorem quoteCurveBuy_eq (hreceived : received ≤ maxUint256) (hx : x ≤ maxUint256)
    (hy : y ≤ maxUint256) (hmin : minOut ≤ maxUint256) (hrates : f + g < CurveMath.bpsDenominator)
    (hr : r < y) :
    quoteCurveBuy received x y r f g minOut = (do
      let (fee, additionalFee, netQuote) ← feeLegs received f g
      let tokensOut ← curveAmountOut netQuote x y (0 : ℕ)
      if tokensOut > ((y - r : ℕ) : ℤ) then
        let netRequired ← curveAmountIn (y - r : ℕ) x y (0 : ℕ)
        let grossRequired ← mulDivCeil netRequired bpsDenominator
          (bpsDenominator - ((f + g : ℕ) : ℤ))
        let quoteSpent := min grossRequired (received : ℤ)
        let (fee, additionalFee, netQuote) ← feeLegs quoteSpent f g
        let slippagePass ← productLte quoteSpent minOut received (y - r : ℕ)
        return {
          quoteReceived := received, quoteSpent, fee, additionalQuoteFee := additionalFee,
          netQuote, tokensOut := (y - r : ℕ), refund := received - quoteSpent,
          partialFill := true, netRequired := some netRequired, slippagePass }
      else
        let slippagePass ← productLte received minOut received tokensOut
        return {
          quoteReceived := received, quoteSpent := received, fee,
          additionalQuoteFee := additionalFee, netQuote, tokensOut,
          refund := (received : ℤ) - received, partialFill := false, netRequired := none,
          slippagePass }) := by
  have hbps := bpsDenominator_le
  have htotal := (checkedAddUint256_eq_ok (f := f) (g := g) (by omega) (by omega)).mpr
    ⟨by omega, rfl⟩
  have hsellable : ((y - r : ℕ) : ℤ) = (y : ℤ) - r := Nat.cast_sub hr.le
  rw [quoteCurveBuy, requireUint_ok, ok_bind, htotal, ok_bind,
    revertIf_neg (by rw [bpsDenominator_eq]; omega), ok_bind, revertIf_neg (by omega), ok_bind,
    hsellable]
  · rfl
  · simp only [List.mem_cons, List.not_mem_nil, or_false, forall_eq_or_imp, forall_eq,
      Nat.cast_inj, exists_eq_right']
    omega

/-- What the checks of the model require of the rates and reserves of a buy. -/
theorem rates_of_quoteCurveBuy {q : CurveBuyQuote} (hf : f ≤ maxUint256) (hg : g ≤ maxUint256)
    (h : quoteCurveBuy received x y r f g minOut = .ok q) :
    f + g < CurveMath.bpsDenominator ∧ r < y := by
  simp only [quoteCurveBuy, bind_eq_ok, checkedAddUint256_eq_ok hf hg, revertIf_eq_ok] at h
  obtain ⟨-, -, _, ⟨-, rfl⟩, -, hrates, -, hr, -⟩ := h
  rw [bpsDenominator_eq] at hrates
  exact ⟨by omega, by omega⟩

/-- A quote whose checks of the rates and reserves fail, fails. -/
theorem isOk_eq_false {ε α : Type} {c : Prop} {q : Except ε α} (hc : ¬ c)
    (h : ∀ a, q = .ok a → c) : q.isOk = false := by
  cases q with
  | ok a => exact absurd (h a rfl) hc
  | error e => rfl

/-- The slippage test of a full fill, where something was received. -/
theorem slippage_full {out : ℕ} (hpos : 0 < received) (hreceived : received ≤ maxUint256)
    (hmin : minOut ≤ maxUint256) (hout : out ≤ maxUint256) :
    CurveMath.productLte received minOut received out = decide (out ≥ minOut) := by
  rw [Bool.eq_iff_iff, CurveMath.productLte_iff hreceived hmin hreceived hout, decide_eq_true_eq]
  exact Nat.mul_le_mul_left_iff hpos

/-- **The two quotes of a buy agree.** -/
theorem agree_quoteBuy (hreceived : received ≤ maxUint256) (hx : x ≤ maxUint256)
    (hy : y ≤ maxUint256) (hf : f ≤ maxUint256) (hg : g ≤ maxUint256) (hmin : minOut ≤ maxUint256) :
    Agree SameBuy (CurveMath.quoteBuy received x y r f g minOut)
      (quoteCurveBuy received x y r f g minOut) := by
  by_cases hchecks : f + g < CurveMath.bpsDenominator ∧ r < y
  swap
  · exact agree_of_fails
      (isOk_eq_false hchecks fun _ hq => CurveMath.rates_of_quoteBuy (t := 0) hq)
      (isOk_eq_false hchecks fun _ hq => rates_of_quoteCurveBuy hf hg hq)
  obtain ⟨hrates, hr⟩ := hchecks
  rw [CurveMath.quoteBuy, CurveMath.quoteBuyWithCreatorTax_eq (t := 0) hrates hr,
    quoteCurveBuy_eq hreceived hx hy hmin hrates hr]
  refine (agree_buyFees hreceived hrates).bind fun full legs hfull _ hlegs => ?_
  obtain ⟨fee, additionalFee, netQuote⟩ := legs
  obtain ⟨htax, rfl : fee = _, rfl : additionalFee = _, rfl : netQuote = _⟩ := hlegs
  obtain ⟨-, -, -, hsum⟩ := CurveMath.buyFees_eq_ok hfull
  dsimp only
  refine (agree_amountOut (by omega) hx hy (Nat.zero_le _)).bind fun out z hout _ hz => ?_
  obtain rfl : z = out := hz
  obtain ⟨hnet, -⟩ := CurveMath.amountOut_eq_ok hout
  by_cases hclip : out > y - r
  · -- the inventory is bought, for what it costs or for all that was received
    rw [if_pos hclip, if_pos (by exact_mod_cast hclip)]
    refine (agree_amountIn (by omega) hx hy (Nat.zero_le _)).bind fun need z hneed _ hz => ?_
    obtain rfl : z = need := hz
    rw [CurveMath.clippedSpend, bind_assoc, bpsDenominator_sub (Nat.not_le.mpr hrates),
      bpsDenominator_eq]
    refine (agree_mulDivUp (amountIn_le hneed) bpsDenominator_le ?_).bind fun gross z _ _ hz => ?_
    · exact (Nat.sub_le _ _).trans bpsDenominator_le
    obtain rfl : z = gross := hz
    have hspent : min gross received ≤ received := Nat.min_le_right _ _
    rw [pure_bind, ← Nat.cast_min]
    refine (agree_buyFees (hspent.trans hreceived) hrates).bind fun fees legs _ _ hlegs => ?_
    obtain ⟨fee, additionalFee, netQuote⟩ := legs
    obtain ⟨htax, rfl : fee = _, rfl : additionalFee = _, rfl : netQuote = _⟩ := hlegs
    dsimp only
    rw [productLte_eq (hspent.trans hreceived) hmin hreceived (by omega), ok_bind]
    exact ⟨htax, rfl, rfl, rfl, rfl, rfl, rfl, (Nat.cast_sub hspent).symm, rfl, rfl,
      fun h => absurd h.symm Bool.false_ne_true, rfl⟩
  · -- everything is spent, and something was received since something is left of it
    rw [if_neg hclip, if_neg (by exact_mod_cast hclip),
      productLte_eq hreceived hmin hreceived (by omega), ok_bind,
      slippage_full (by omega) hreceived hmin (by omega)]
    exact ⟨htax, rfl, rfl, rfl, rfl, rfl, rfl, sub_self _, rfl, rfl, fun _ => rfl, rfl⟩

/-- The fee legs of a sell, where no word is left by a third leg. -/
theorem agree_netAfterFees {n : ℕ} (hn : n ≤ maxUint256)
    (hrates : f + g < CurveMath.bpsDenominator) :
    Agree (fun legs z => z = ((legs.1 : ℤ), (legs.2.1 : ℤ), (legs.2.2 : ℤ)))
      (CurveMath.netAfterFees n f g) (feeLegs n f g) := by
  obtain ⟨fees, hfees⟩ := CurveMath.buyFees_isOk (t := 0) hn hrates
  rw [CurveMath.buyFees, bind_eq_ok] at hfees
  obtain ⟨⟨fee, additional, net⟩, hlegs, -⟩ := hfees
  obtain ⟨rfl, rfl, hsum⟩ := CurveMath.netAfterFees_eq_ok hlegs
  rw [hlegs, feeLegs_eq hn (by omega) (by omega), agree_ok, Prod.mk.injEq, Prod.mk.injEq]
  exact ⟨rfl, rfl, by dsimp only; omega⟩

/-- What the checks of the contract require of the rates of a sell. -/
theorem rates_of_quoteSell {tokensIn minQuoteOut : ℕ} {q : CurveMath.SellQuote}
    (h : CurveMath.quoteSell tokensIn x y f g minQuoteOut = .ok q) :
    f + g < CurveMath.bpsDenominator := by
  rw [CurveMath.quoteSell, bind_eq_ok] at h
  obtain ⟨total, htotal, -⟩ := h
  exact (CurveMath.validatedTotalFee_eq_ok htotal).2

/-- What the checks of the model require of the rates of a sell. -/
theorem rates_of_quoteCurveSell {tokensIn minQuoteOut : ℕ} {q : CurveSellQuote}
    (hf : f ≤ maxUint256) (hg : g ≤ maxUint256)
    (h : quoteCurveSell tokensIn x y f g minQuoteOut = .ok q) :
    f + g < CurveMath.bpsDenominator := by
  simp only [quoteCurveSell, bind_eq_ok, checkedAddUint256_eq_ok hf hg, revertIf_eq_ok] at h
  obtain ⟨-, -, _, ⟨-, rfl⟩, -, hrates, -⟩ := h
  rw [bpsDenominator_eq] at hrates
  omega

/-- **The two quotes of a sell agree.** -/
theorem agree_quoteSell {tokensIn minQuoteOut : ℕ} (htokens : tokensIn ≤ maxUint256)
    (hx : x ≤ maxUint256) (hy : y ≤ maxUint256) (hf : f ≤ maxUint256) (hg : g ≤ maxUint256)
    (hmin : minQuoteOut ≤ maxUint256) :
    Agree (SameSell tokensIn) (CurveMath.quoteSell tokensIn x y f g minQuoteOut)
      (quoteCurveSell tokensIn x y f g minQuoteOut) := by
  by_cases hrates : f + g < CurveMath.bpsDenominator
  swap
  · exact agree_of_fails (isOk_eq_false hrates fun _ => rates_of_quoteSell)
      (isOk_eq_false hrates fun _ => rates_of_quoteCurveSell hf hg)
  have htotal := (checkedAddUint256_eq_ok hf hg).mpr ⟨by have := bpsDenominator_le; omega, rfl⟩
  rw [CurveMath.quoteSell, CurveMath.validatedTotalFee_of_lt hrates, ok_bind, quoteCurveSell,
    requireUint_ok (by simp [htokens, hx, hy, hf, hg, hmin]), ok_bind, htotal, ok_bind,
    revertIf_neg (by rw [bpsDenominator_eq]; omega), ok_bind]
  refine (agree_amountOut htokens hx hy (Nat.zero_le _)).bind fun gross z hgross _ hz => ?_
  obtain rfl : z = gross := hz
  refine (agree_netAfterFees ((amountOut_le hgross).trans hy) hrates).bind fun legs z _ _ hz => ?_
  obtain rfl := hz
  obtain ⟨fee, additional, net⟩ := legs
  refine ⟨rfl, rfl, rfl, rfl, rfl, ?_⟩
  exact decide_eq_decide.mpr Nat.cast_le

end Quotes

/-- **The contract equals the reference model**: for all words, the quotes of a buy without a
creator tax agree, and so do those of a sell. They return the same quote, or both fail. -/
theorem quotes_agree :
    (∀ quoteReceived quoteReserve tokenReserve reservedTokens feeBps additionalQuoteFeeBps
        minTokensOut : BitVec 256,
      Agree SameBuy
        (CurveMath.quoteBuy quoteReceived.toNat quoteReserve.toNat tokenReserve.toNat
          reservedTokens.toNat feeBps.toNat additionalQuoteFeeBps.toNat minTokensOut.toNat)
        (quoteCurveBuy quoteReceived.toNat quoteReserve.toNat tokenReserve.toNat
          reservedTokens.toNat feeBps.toNat additionalQuoteFeeBps.toNat minTokensOut.toNat)) ∧
    ∀ tokensIn tokenReserve quoteReserve feeBps additionalQuoteFeeBps minQuoteOut : BitVec 256,
      Agree (SameSell tokensIn.toNat)
        (CurveMath.quoteSell tokensIn.toNat tokenReserve.toNat quoteReserve.toNat feeBps.toNat
          additionalQuoteFeeBps.toNat minQuoteOut.toNat)
        (quoteCurveSell tokensIn.toNat tokenReserve.toNat quoteReserve.toNat feeBps.toNat
          additionalQuoteFeeBps.toNat minQuoteOut.toNat) := by
  have hword : ∀ w : BitVec 256, w.toNat ≤ maxUint256 := fun w => Nat.le_pred_of_lt w.isLt
  constructor
  · intro quoteReceived quoteReserve tokenReserve reservedTokens feeBps additionalQuoteFeeBps
      minTokensOut
    exact agree_quoteBuy (hword _) (hword _) (hword _) (hword _) (hword _) (hword _)
  · intro tokensIn tokenReserve quoteReserve feeBps additionalQuoteFeeBps minQuoteOut
    exact agree_quoteSell (hword _) (hword _) (hword _) (hword _) (hword _) (hword _)

end ReferenceModel

end TickerGarden
