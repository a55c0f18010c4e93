import Mathlib.Analysis.Real.Sqrt
import TickerGarden.Graduation.PoolMath

/-!
# The square root of the launch price

A pool is opened at the square root of the price `amount1 / amount0`, as a number of 96
fractional bits. `TickerGarden.PoolMath.sqrtPriceX96` takes the root of a quotient of 192
fractional bits, if that fits in a word, and else of one of 128, whose root it shifts.

The second quotient is the first without its last 64 bits, and a root commutes with dropping
twice as many bits (`TickerGarden.PoolMath.sqrt_div_mul_self`): the second root is the exact one
without its last 32 bits. `TickerGarden.PoolMath.sqrtPriceX96_exact` puts this together for all
amounts that a pool can have.
-/

namespace TickerGarden

open Checked

namespace PoolMath

/-! ### Roots of quotients -/

/-- The root of a quotient by a square is a quotient of the root. -/
theorem sqrt_div_mul_self (n : ℕ) {d : ℕ} (hd : 0 < d) :
    Nat.sqrt (n / (d * d)) = Nat.sqrt n / d := by
  refine eq_of_forall_le_iff fun k => ?_
  rw [Nat.le_sqrt, Nat.le_div_iff_mul_le (Nat.mul_pos hd hd), Nat.le_div_iff_mul_le hd, Nat.le_sqrt,
    mul_mul_mul_comm]

/-- The root of a fraction, rounded down, is the root of the quotient. -/
theorem floor_sqrt_div (a : ℕ) {b : ℕ} (hb : 0 < b) :
    ⌊√((a : ℝ) / b)⌋₊ = Nat.sqrt (a / b) := by
  have hb' : (0 : ℝ) < b := Nat.cast_pos.mpr hb
  refine eq_of_forall_le_iff fun k => ?_
  rw [Nat.le_floor_iff (Real.sqrt_nonneg _), Real.le_sqrt (Nat.cast_nonneg k)
    (div_nonneg (Nat.cast_nonneg a) hb'.le), le_div_iff₀ hb', Nat.le_sqrt,
    Nat.le_div_iff_mul_le hb, ← Nat.pow_two]
  exact_mod_cast Iff.rfl

/-! ### The two branches -/

section Branches

variable {amount0 amount1 : ℕ}

/-- Shifting an amount does not wrap. -/
theorem shift_lt (h0 : amount0 ≤ maxInt128) : amount0 * 2 ^ 64 % 2 ^ 256 = amount0 * 2 ^ 64 := by
  rw [maxInt128] at h0
  exact Nat.mod_eq_of_lt (by omega)

theorem fullMulDiv_eq_ok {a b d q : ℕ} :
    fullMulDiv a b d = .ok q ↔ (d ≠ 0 ∧ a * b / d ≤ maxUint256) ∧ q = a * b / d := by
  rw [fullMulDiv, bind_eq_ok]
  constructor
  · rintro ⟨_, hfits, hq⟩
    rw [revertIf_eq_ok, not_or, not_lt] at hfits
    cases hq
    exact ⟨hfits, rfl⟩
  · rintro ⟨hfits, rfl⟩
    exact ⟨(), revertIf_neg (not_or.mpr ⟨hfits.1, not_lt.mpr hfits.2⟩), rfl⟩

/-- **The test of the branch** is whether the quotient of 192 bits fits. -/
theorem lt_shift_iff (h0 : 1 ≤ amount0) :
    amount1 < amount0 * 2 ^ 64 ↔ amount1 * 2 ^ 192 / amount0 ≤ maxUint256 := by
  rw [← Nat.lt_succ_iff, Nat.div_lt_iff_lt_mul h0, maxUint256]
  constructor <;> intro h <;> omega

/-- The quotient of 128 bits fits always. -/
theorem quotient_le (h1 : amount1 ≤ maxInt128) : amount1 * 2 ^ 128 / amount0 ≤ 2 ^ 255 := by
  rw [maxInt128] at h1
  exact (Nat.div_le_self _ _).trans (by omega)

/-- The quotient of 128 bits is that of 192 without its last bits. -/
theorem sqrt_quotient (amount0 amount1 : ℕ) :
    Nat.sqrt (amount1 * 2 ^ 128 / amount0)
      = Nat.sqrt (amount1 * 2 ^ 192 / amount0) / 2 ^ 32 := by
  rw [← sqrt_div_mul_self _ (by norm_num : 0 < 2 ^ 32), Nat.div_div_eq_div_mul,
    show amount1 * 2 ^ 192 = amount1 * 2 ^ 128 * (2 ^ 32 * 2 ^ 32) by ring,
    Nat.mul_div_mul_right _ _ (by norm_num)]

/-- The root of a quotient of 192 bits. -/
theorem sqrtPriceX96_of_lt (hlt : amount1 < amount0 * 2 ^ 64 % 2 ^ 256) {quotient : ℕ}
    (hquotient : fullMulDiv amount1 (2 ^ 192) amount0 = .ok quotient)
    (hroot : Nat.sqrt quotient ≤ 2 ^ 160 - 1) :
    sqrtPriceX96 amount0 amount1 = .ok (Nat.sqrt quotient) := by
  rw [sqrtPriceX96, if_pos hlt, hquotient, ok_bind]
  dsimp only [pure, Except.pure]
  rw [ok_bind, revertIf_neg (not_lt.mpr hroot), ok_bind]

/-- The root of a quotient of 128 bits. -/
theorem sqrtPriceX96_of_not_lt (hlt : ¬ amount1 < amount0 * 2 ^ 64 % 2 ^ 256) {quotient : ℕ}
    (hquotient : fullMulDiv amount1 (2 ^ 128) amount0 = .ok quotient)
    (hroot : Nat.sqrt quotient < 2 ^ 128) :
    sqrtPriceX96 amount0 amount1 = .ok (Nat.sqrt quotient * 2 ^ 32) := by
  have hwrap : Nat.sqrt quotient * 2 ^ 32 % 2 ^ 256 = Nat.sqrt quotient * 2 ^ 32 :=
    Nat.mod_eq_of_lt (by omega)
  rw [sqrtPriceX96, if_neg hlt, hquotient, ok_bind, hwrap]
  dsimp only [pure, Except.pure]
  rw [ok_bind, revertIf_neg (by omega), ok_bind]

end Branches

/-- **The square root of the launch price.** It is always computed; the test of the branch is
exact; the first branch is exact, and the second one drops the last 32 bits. -/
theorem sqrtPriceX96_exact {amount0 amount1 : ℕ} (h0 : 1 ≤ amount0 ∧ amount0 ≤ 2 ^ 127 - 1)
    (h1 : 1 ≤ amount1 ∧ amount1 ≤ 2 ^ 127 - 1) :
    (amount1 < amount0 * 2 ^ 64 % 2 ^ 256 ↔
      ∃ quotient, fullMulDiv amount1 (2 ^ 192) amount0 = .ok quotient) ∧
    ∃ result, sqrtPriceX96 amount0 amount1 = .ok result ∧ result ≤ 2 ^ 160 - 1 ∧
      (amount1 < amount0 * 2 ^ 64 % 2 ^ 256 →
        result = ⌊√((amount1 * 2 ^ 192 : ℝ) / amount0)⌋₊) ∧
      (¬ amount1 < amount0 * 2 ^ 64 % 2 ^ 256 →
        result ≤ ⌊√((amount1 * 2 ^ 192 : ℝ) / amount0)⌋₊ ∧
          ⌊√((amount1 * 2 ^ 192 : ℝ) / amount0)⌋₊ - result < 2 ^ 32) := by
  have hfloor := floor_sqrt_div (amount1 * 2 ^ 192) h0.1
  rw [Nat.cast_mul, Nat.cast_pow, Nat.cast_ofNat] at hfloor
  have hne : amount0 ≠ 0 := Nat.one_le_iff_ne_zero.mp h0.1
  have htest : amount1 < amount0 * 2 ^ 64 ↔ amount1 * 2 ^ 192 / amount0 ≤ maxUint256 :=
    lt_shift_iff h0.1
  rw [← shift_lt h0.2] at htest
  have hexists : (∃ quotient, fullMulDiv amount1 (2 ^ 192) amount0 = .ok quotient)
      ↔ amount1 * 2 ^ 192 / amount0 ≤ maxUint256 :=
    ⟨fun ⟨q, hq⟩ => (fullMulDiv_eq_ok.mp hq).1.2, fun h => ⟨_, fullMulDiv_eq_ok.mpr ⟨⟨hne, h⟩, rfl⟩⟩⟩
  refine ⟨htest.trans hexists.symm, ?_⟩
  rw [hfloor]
  by_cases hlt : amount1 < amount0 * 2 ^ 64 % 2 ^ 256
  · have hfits := htest.mp hlt
    have hroot : Nat.sqrt (amount1 * 2 ^ 192 / amount0) ≤ 2 ^ 160 - 1 := by
      refine Nat.le_sub_one_of_lt (Nat.sqrt_lt.mpr (hfits.trans_lt ?_))
      norm_num [maxUint256]
    exact ⟨_, sqrtPriceX96_of_lt hlt (fullMulDiv_eq_ok.mpr ⟨⟨hne, hfits⟩, rfl⟩) hroot, hroot,
      fun _ => rfl, fun hc => absurd hlt hc⟩
  · have hquotient : amount1 * 2 ^ 128 / amount0 ≤ 2 ^ 255 := quotient_le h1.2
    have hsqrt : Nat.sqrt (amount1 * 2 ^ 128 / amount0) < 2 ^ 128 :=
      Nat.sqrt_lt.mpr (hquotient.trans_lt (by norm_num))
    refine ⟨_, sqrtPriceX96_of_not_lt hlt (fullMulDiv_eq_ok.mpr ⟨⟨hne, hquotient.trans
      (by norm_num [maxUint256])⟩, rfl⟩) hsqrt, by omega, fun hc => absurd hc hlt, fun _ => ?_⟩
    -- the root of the second quotient is the exact one without its last 32 bits
    rw [sqrt_quotient]
    have hdiv := Nat.div_add_mod (Nat.sqrt (amount1 * 2 ^ 192 / amount0)) (2 ^ 32)
    have hmod := Nat.mod_lt (Nat.sqrt (amount1 * 2 ^ 192 / amount0)) (by norm_num : 0 < 2 ^ 32)
    omega

theorem sqrtPriceX96_exact_sample :
    ∃ result, sqrtPriceX96 3 5 = .ok result ∧ result ≤ 2 ^ 160 - 1 := by
  have h0 : 1 ≤ 3 ∧ 3 ≤ 2 ^ 127 - 1 := by norm_num
  have h1 : 1 ≤ 5 ∧ 5 ≤ 2 ^ 127 - 1 := by norm_num
  obtain ⟨-, result, hok, hle, -⟩ := sqrtPriceX96_exact h0 h1
  exact ⟨result, hok, hle⟩

end PoolMath

end TickerGarden
