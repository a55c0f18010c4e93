import TickerGarden.Staking.ActivationWheels

/-!
# The increase of a reward index

A credit is divided among the active stock: the index grows by a quotient, and what remains is
carried on to the next credit. Both the credit and the carried remainder leave a fraction of the
active stock, and the two are added so that the sum does not have to fit in a word.

`TickerGarden.MemeStockGauge.index_increase_exact` says that nothing is lost: what the index
grows by and what remains are together what was credited and what was carried. A credit of
nothing does not read the active stock, and the remainder stays as it was, also where it is not
below it (`TickerGarden.MemeStockGauge.zero_credit_keeps_remainder`).
-/

namespace TickerGarden

open Checked

namespace MemeStockGauge

/-- The addition of two fractions of the active stock, with every operation of the source
checked: the carry, and what remains. -/
def fractionalAddition (normalizedRemainder fraction activeStock : ℕ) :
    Except Revert (ℕ × ℕ) := do
  let gap ← usub activeStock fraction
  if fraction ≠ 0 ∧ normalizedRemainder ≥ gap then do
    let indexRemainder ← usub normalizedRemainder gap
    return (1, indexRemainder)
  else do
    let indexRemainder ← uadd normalizedRemainder fraction
    return (0, indexRemainder)

section Increase

variable {amount indexRemainder activeStock : ℕ}

/-- **No operation of the addition fails**, and it is exact. -/
theorem fractionalAddition_isOk {normalizedRemainder fraction : ℕ} (hmax : activeStock ≤ maxUint256)
    (hn : normalizedRemainder < activeStock) (hf : fraction < activeStock) :
    ∃ carry remainder, fractionalAddition normalizedRemainder fraction activeStock
        = .ok (carry, remainder) ∧
      carry * activeStock + remainder = normalizedRemainder + fraction ∧ remainder < activeStock := by
  have hgap : (usub activeStock fraction : Except Revert ℕ) = .ok (activeStock - fraction) :=
    usub_eq_ok.mpr ⟨hf.le, rfl⟩
  by_cases hover : fraction ≠ 0 ∧ normalizedRemainder ≥ activeStock - fraction
  · have hsub : (usub normalizedRemainder (activeStock - fraction) : Except Revert ℕ)
        = .ok (normalizedRemainder - (activeStock - fraction)) := usub_eq_ok.mpr ⟨hover.2, rfl⟩
    refine ⟨1, normalizedRemainder - (activeStock - fraction), ?_, by omega, by omega⟩
    rw [fractionalAddition, hgap, ok_bind, if_pos hover, hsub, ok_bind]
    rfl
  · -- the sum is below the active stock, which is a word
    have hsum : normalizedRemainder + fraction < activeStock := by
      by_cases hzero : fraction = 0
      · rwa [hzero, add_zero]
      · have hlt := not_le.mp fun hge => hover ⟨hzero, hge⟩
        omega
    have hadd : (uadd normalizedRemainder fraction : Except Revert ℕ)
        = .ok (normalizedRemainder + fraction) := uadd_eq_ok.mpr ⟨hsum.le.trans hmax, rfl⟩
    refine ⟨0, normalizedRemainder + fraction, ?_, by omega, hsum⟩
    rw [fractionalAddition, hgap, ok_bind, if_neg hover, hadd, ok_bind]
    rfl

/-- The increase, with the addition of the fractions checked. -/
theorem accumulatorIncrease_eq (hpos : 0 < activeStock) (hmax : activeStock ≤ maxUint256) :
    accumulatorIncrease amount indexRemainder activeStock = do
      let whole ← mulDiv amount indexPrecision activeStock
      let (fractionalCarry, remainder) ← fractionalAddition (indexRemainder % activeStock)
        (amount * indexPrecision % activeStock) activeStock
      let accumulatorDelta ← uadd (indexRemainder / activeStock) whole
      let accumulatorDelta ← uadd accumulatorDelta fractionalCarry
      return (accumulatorDelta, remainder) := by
  have hn := Nat.mod_lt indexRemainder hpos
  have hf := Nat.mod_lt (amount * indexPrecision) hpos
  obtain ⟨carry, remainder, hok, hsum, hlt⟩ := fractionalAddition_isOk hmax hn hf
  rw [accumulatorIncrease, hok]
  dsimp only
  congr 1
  funext whole
  rw [ok_bind]
  have hcarry : carry = 0 ∨ carry = 1 := by
    rcases Nat.lt_or_ge carry 2 with h | h
    · omega
    · have := Nat.mul_le_mul_right activeStock h
      omega
  by_cases hover : amount * indexPrecision % activeStock ≠ 0 ∧
      indexRemainder % activeStock ≥ activeStock - amount * indexPrecision % activeStock
  · rw [if_pos hover, if_pos hover]
    rcases hcarry with rfl | rfl
    · omega
    · rw [show indexRemainder % activeStock - (activeStock - amount * indexPrecision % activeStock)
        = remainder by omega]
  · rw [if_neg hover, if_neg hover]
    rcases hcarry with rfl | rfl
    · rw [show indexRemainder % activeStock + amount * indexPrecision % activeStock
        = remainder by omega]
    · omega

/-- **What the increase is.** -/
theorem of_accumulatorIncrease {delta remainder : ℕ} (hpos : 0 < activeStock)
    (hmax : activeStock ≤ maxUint256)
    (hok : accumulatorIncrease amount indexRemainder activeStock = .ok (delta, remainder)) :
    delta * activeStock + remainder = amount * indexPrecision + indexRemainder ∧
      remainder < activeStock := by
  have hn := Nat.mod_lt indexRemainder hpos
  have hf := Nat.mod_lt (amount * indexPrecision) hpos
  obtain ⟨carry, r, hadd, hsum, hlt⟩ := fractionalAddition_isOk hmax hn hf
  rw [accumulatorIncrease_eq hpos hmax, hadd] at hok
  obtain ⟨whole, hwhole, hok⟩ := bind_eq_ok.mp hok
  rw [ok_bind] at hok
  dsimp only at hok
  obtain ⟨part, hpart, hok⟩ := bind_eq_ok.mp hok
  obtain ⟨total, htotal, hok⟩ := bind_eq_ok.mp hok
  cases hok
  obtain ⟨-, -, rfl⟩ := mulDiv_eq_ok.mp hwhole
  obtain ⟨-, rfl⟩ := uadd_eq_ok.mp hpart
  obtain ⟨-, rfl⟩ := uadd_eq_ok.mp htotal
  refine ⟨?_, hlt⟩
  have hdivn := Nat.div_add_mod indexRemainder activeStock
  have hdivf := Nat.div_add_mod (amount * indexPrecision) activeStock
  calc (indexRemainder / activeStock + amount * indexPrecision / activeStock + carry) * activeStock
        + remainder
      = activeStock * (indexRemainder / activeStock) + activeStock * (amount * indexPrecision /
          activeStock) + (carry * activeStock + remainder) := by ring
    _ = amount * indexPrecision + indexRemainder := by omega

end Increase

/-- **The increase of an index is exact.** A credit that is not zero and its carried remainder
are divided among the active stock, the addition of the fractions fails nowhere, and what
remains is below the active stock. A credit of zero changes nothing. -/
theorem index_increase_exact {id : GaugeIdentity} {vs : UserStockVault.State} {v : UserStockVault.Immutables} {self : Address}
    {s : Storage} {i : RewardIndex} {amount activeStock : ℕ}
    (hstock : AllocationManager.rewardEligibleActiveStock vs id.marketId = .ok activeStock)
    (hpos : 1 ≤ activeStock) (hmax : activeStock ≤ maxUint256) :
    (amount = 0 → increaseRewardAccumulator id vs v self s i amount
      = .ok ((vs, s), 0, (s.rewardStates i).indexRemainder)) ∧
    (amount ≠ 0 →
      (∃ carry remainder, fractionalAddition ((s.rewardStates i).indexRemainder % activeStock)
          (amount * indexPrecision % activeStock) activeStock = .ok (carry, remainder)) ∧
      (accumulatorIncrease amount (s.rewardStates i).indexRemainder activeStock = do
        let whole ← mulDiv amount indexPrecision activeStock
        let (fractionalCarry, remainder) ← fractionalAddition
          ((s.rewardStates i).indexRemainder % activeStock)
          (amount * indexPrecision % activeStock) activeStock
        let accumulatorDelta ← uadd ((s.rewardStates i).indexRemainder / activeStock) whole
        let accumulatorDelta ← uadd accumulatorDelta fractionalCarry
        return (accumulatorDelta, remainder)) ∧
      ∀ vs' s' delta remainder,
        increaseRewardAccumulator id vs v self s i amount = .ok ((vs', s'), delta, remainder) →
        delta * activeStock + remainder
            = amount * indexPrecision + (s.rewardStates i).indexRemainder ∧
          remainder < activeStock ∧
          s'.rewardStates i = ⟨(s.rewardStates i).accFeePerShare + delta, remainder⟩) := by
  refine ⟨fun hzero => ?_, fun hamount => ⟨?_, accumulatorIncrease_eq hpos hmax, ?_⟩⟩
  · rw [increaseRewardAccumulator]
    dsimp only
    rw [if_pos hzero]
  · obtain ⟨carry, remainder, hok, -⟩ := fractionalAddition_isOk hmax
      (Nat.mod_lt (s.rewardStates i).indexRemainder hpos)
      (Nat.mod_lt (amount * indexPrecision) hpos)
    exact ⟨carry, remainder, hok⟩
  · intro vs' s' delta remainder hok
    rw [increaseRewardAccumulator] at hok
    dsimp only at hok
    rw [if_neg hamount, hstock, ok_bind, revertIf_neg (Nat.one_le_iff_ne_zero.mp hpos), ok_bind] at hok
    obtain ⟨⟨d, r⟩, hincrease, hok⟩ := bind_eq_ok.mp hok
    obtain ⟨acc, hacc, hok⟩ := bind_eq_ok.mp hok
    obtain ⟨vs₁, -, hok⟩ := bind_eq_ok.mp hok
    cases hok
    obtain ⟨-, rfl⟩ := uadd_eq_ok.mp hacc
    obtain ⟨hexact, hlt⟩ := of_accumulatorIncrease hpos hmax hincrease
    exact ⟨hexact, hlt, Function.update_self _ _ _⟩

namespace Sample

theorem eligible_settled : AllocationManager.rewardEligibleActiveStock settled.1 1 = .ok 500 := by
  decide +kernel

/-- The small gauge after the settlement, with a remainder that was carried when a thousand were
active. -/
def carrying : Storage :=
  { settled.2 with rewardStates := Function.update settled.2.rewardStates .quote ⟨0, 700⟩ }

end Sample

/-- A credit of seven to the small gauge: the fractions are added, what is divided and what
remains make up the credit and the carried remainder, and a credit of zero changes nothing. -/
theorem index_increase_exact_sample :
    increaseRewardAccumulator Sample.identity Sample.settled.1 UserStockVault.Sample.vault 70
        Sample.carrying .quote 0 = .ok ((Sample.settled.1, Sample.carrying), 0, 700) ∧
    (∃ carry remainder, fractionalAddition (700 % 500) (7 * indexPrecision % 500) 500
      = .ok (carry, remainder)) ∧
    ∃ vs s delta remainder,
      increaseRewardAccumulator Sample.identity Sample.settled.1 UserStockVault.Sample.vault 70
          Sample.carrying .quote 7 = .ok ((vs, s), delta, remainder) ∧
        delta * 500 + remainder = 7 * indexPrecision + 700 ∧ remainder < 500 ∧
        s.rewardStates .quote = ⟨0 + delta, remainder⟩ := by
  have hzero := @index_increase_exact Sample.identity Sample.settled.1 UserStockVault.Sample.vault 70
    Sample.carrying .quote 0 500 Sample.eligible_settled (by decide) (by decide)
  have hexact := @index_increase_exact Sample.identity Sample.settled.1 UserStockVault.Sample.vault 70
    Sample.carrying .quote 7 500 Sample.eligible_settled (by decide) (by decide)
  obtain ⟨hfractions, -, hcredit⟩ := hexact.2 (by decide)
  refine ⟨hzero.1 rfl, hfractions, ?_⟩
  obtain ⟨⟨⟨vs, s⟩, delta, remainder⟩, hok⟩ : ∃ credited,
      increaseRewardAccumulator Sample.identity Sample.settled.1 UserStockVault.Sample.vault 70
        Sample.carrying .quote 7 = .ok credited :=
    ⟨_, eq_ok_value (by decide +kernel)⟩
  exact ⟨vs, s, delta, remainder, hok, hcredit vs s delta remainder hok⟩

/-- **A credit of zero keeps a remainder** that is not below the active stock. -/
theorem zero_credit_keeps_remainder :
    AllocationManager.rewardEligibleActiveStock Sample.settled.1 Sample.identity.marketId = .ok 500 ∧
      ∃ after, increaseRewardAccumulator Sample.identity Sample.settled.1
        UserStockVault.Sample.vault 61 Sample.carrying .quote 0 = .ok (after, 0, 700) ∧
      ¬ 700 < 500 := by
  refine ⟨Sample.eligible_settled, (Sample.settled.1, Sample.carrying), ?_, by decide⟩
  rw [increaseRewardAccumulator]
  dsimp only
  rw [if_pos rfl]
  rfl

end MemeStockGauge

end TickerGarden
