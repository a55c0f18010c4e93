import TickerGarden.Errors

/-!
# Supply partition and tracked reserves

The arithmetic of `TickerGardenSupplyMath`. A market is created from three numbers:
the supply `S` of its token, the phantom quote `P` the price starts from, and the
graduation threshold `G`. Of the supply, `R = ⌊S · P / (P + G)⌋` is *reserved* –
it is never sold on the curve – and the rest is sellable.

| function                   | what it computes                                           |
|----------------------------|------------------------------------------------------------|
| `supplyPartition`          | the reserved and the sellable part of the supply           |
| `canonicalGraduationQuote` | the least quote that keeps the constant product at the end |
| `graduationPartition`      | the tokens that go to the pool, and those that are locked  |
| `sellableTokens`           | what is left to sell                                       |
| `pricingReserves`          | the two reserves a trade is priced with                    |

The reserves are *tracked*: they are moved by trades only, never read off a token
balance. Accrued fees sit in the tracked quote until they are swept, and are kept
out of the price.
-/

namespace TickerGarden

open Checked

/-- The tracked reserves of a curve. -/
structure TrackedReserves where
  trackedQuote : ℕ
  trackedTokens : ℕ
  accruedQuoteFees : ℕ
  reservedTokens : ℕ
deriving DecidableEq

namespace SupplyMath

/-! ### The source functions -/

/-- Split the supply into a reserved and a sellable part. -/
def supplyPartition (supply phantomQuote graduationThreshold : ℕ) : Except Revert (ℕ × ℕ) := do
  let invalid := Revert.supplyMath (.invalidSupplyPartition supply phantomQuote graduationThreshold)
  revertIf (supply = 0 ∨ phantomQuote = 0 ∨ graduationThreshold = 0 ∨
    phantomQuote > maxUint256 - graduationThreshold) invalid
  let divisor ← uadd phantomQuote graduationThreshold
  let reservedTokens ← mulDiv supply phantomQuote divisor
  revertIf (reservedTokens = 0 ∨ reservedTokens ≥ supply) invalid
  let initialSellableTokens ← usub supply reservedTokens
  return (reservedTokens, initialSellableTokens)

/-- The reserves of a fresh curve: the whole supply, and no quote. -/
def initializeReserves (supply phantomQuote graduationThreshold : ℕ) : Except Revert TrackedReserves := do
  let (reservedTokens, _) ← supplyPartition supply phantomQuote graduationThreshold
  return { trackedQuote := 0, trackedTokens := supply, accruedQuoteFees := 0, reservedTokens }

/-- The least real quote reserve that preserves the initial constant product at
graduation: a mathematical ceiling, not an unconditional `floor + 1`. -/
def canonicalGraduationQuote (supply phantomQuote graduationThreshold : ℕ) : Except Revert ℕ := do
  let (reservedTokens, initialSellableTokens) ←
    supplyPartition supply phantomQuote graduationThreshold
  mulDivUp initialSellableTokens phantomQuote reservedTokens

/-- Split the swept tokens into the part that enters the pool at the curve's last
price, and the excess that is locked. -/
def graduationPartition (sweptTokens sweptQuote phantomQuote : ℕ) : Except Revert (ℕ × ℕ) := do
  let invalid := Revert.supplyMath
    (.invalidGraduationPartition sweptTokens sweptQuote phantomQuote)
  revertIf (sweptTokens = 0 ∨ sweptQuote = 0 ∨ phantomQuote = 0 ∨
    sweptQuote > maxUint256 - phantomQuote) invalid
  let divisor ← uadd sweptQuote phantomQuote
  let poolMemeAmount ← mulDiv sweptTokens sweptQuote divisor
  revertIf (poolMemeAmount = 0 ∨ poolMemeAmount > sweptTokens) invalid
  let lockedExcessMeme ← usub sweptTokens poolMemeAmount
  return (poolMemeAmount, lockedExcessMeme)

/-- The tokens that can still be sold. -/
def sellableTokens (state : TrackedReserves) : Except Revert ℕ := do
  revertIf (state.trackedTokens < state.reservedTokens)
    (.supplyMath (.trackedTokensBelowReserve state.trackedTokens state.reservedTokens))
  usub state.trackedTokens state.reservedTokens

/-- The quote and token reserves a trade is priced with: accrued fees do not count,
the phantom quote does. -/
def pricingReserves (state : TrackedReserves) (phantomQuote : ℕ) : Except Revert (ℕ × ℕ) := do
  revertIf (state.accruedQuoteFees > state.trackedQuote)
    (.supplyMath (.accruedFeesExceedTrackedQuote state.trackedQuote state.accruedQuoteFees))
  let netTrackedQuote ← usub state.trackedQuote state.accruedQuoteFees
  revertIf (phantomQuote > maxUint256 - netTrackedQuote)
    (.supplyMath (.pricingQuoteReserveOverflow phantomQuote netTrackedQuote))
  let pricingQuoteReserve ← uadd phantomQuote netTrackedQuote
  return (pricingQuoteReserve, state.trackedTokens)

/-! ### What the partition says -/

/-- **The facts of a supply partition**: all an accepted triple tells about itself. -/
structure Partition (supply phantomQuote graduationThreshold reserved sellable : ℕ) : Prop where
  supply_pos : 0 < supply
  phantomQuote_pos : 0 < phantomQuote
  graduationThreshold_pos : 0 < graduationThreshold
  sum_le : phantomQuote + graduationThreshold ≤ maxUint256
  reserved_eq : reserved = supply * phantomQuote / (phantomQuote + graduationThreshold)
  reserved_pos : 0 < reserved
  reserved_lt : reserved < supply
  sellable_eq : sellable = supply - reserved

theorem partition_of_supplyPartition {supply phantomQuote graduationThreshold reserved sellable : ℕ}
    (h : supplyPartition supply phantomQuote graduationThreshold = .ok (reserved, sellable)) :
    Partition supply phantomQuote graduationThreshold reserved sellable := by
  simp only [supplyPartition, bind_eq_ok, revertIf_eq_ok, uadd_eq_ok, mulDiv_eq_ok, usub_eq_ok,
    pure_eq_ok, Except.ok.injEq, Prod.mk.injEq, not_or, not_lt, ge_iff_le, not_le] at h
  obtain ⟨-, ⟨hS, hP, hG, -⟩, _, ⟨hsum, rfl⟩, R, ⟨-, -, hR⟩, -, ⟨hR0, hRS⟩, s, ⟨-, rfl⟩, rfl,
    rfl⟩ := h
  exact ⟨Nat.pos_of_ne_zero hS, Nat.pos_of_ne_zero hP, Nat.pos_of_ne_zero hG, hsum, hR,
    Nat.pos_of_ne_zero hR0, hRS, rfl⟩

theorem initializeReserves_eq_ok {supply phantomQuote graduationThreshold : ℕ} {state : TrackedReserves}
    (h : initializeReserves supply phantomQuote graduationThreshold = .ok state) :
    ∃ reserved sellable,
      supplyPartition supply phantomQuote graduationThreshold = .ok (reserved, sellable) ∧
      state = { trackedQuote := 0, trackedTokens := supply, accruedQuoteFees := 0,
                reservedTokens := reserved } := by
  simp only [initializeReserves, bind_eq_ok, pure_eq_ok, Except.ok.injEq, Prod.exists] at h
  obtain ⟨R, s, hpart, rfl⟩ := h
  exact ⟨R, s, hpart, rfl⟩

theorem graduationPartition_eq_ok {sweptTokens sweptQuote phantomQuote pool locked : ℕ} :
    graduationPartition sweptTokens sweptQuote phantomQuote = .ok (pool, locked) ↔
      (0 < sweptTokens ∧ 0 < sweptQuote ∧ 0 < phantomQuote ∧
        sweptQuote ≤ maxUint256 - phantomQuote ∧ sweptQuote + phantomQuote ≤ maxUint256) ∧
      sweptTokens * sweptQuote / (sweptQuote + phantomQuote) ≤ maxUint256 ∧
      pool = sweptTokens * sweptQuote / (sweptQuote + phantomQuote) ∧ 0 < pool ∧
      pool ≤ sweptTokens ∧ locked = sweptTokens - pool := by
  simp only [graduationPartition, bind_eq_ok, revertIf_eq_ok, uadd_eq_ok, mulDiv_eq_ok, usub_eq_ok,
    pure_eq_ok, Except.ok.injEq, Prod.mk.injEq, not_or, not_lt]
  constructor
  · rintro ⟨-, ⟨hT, hQ, hP, hmax⟩, _, ⟨hsum, rfl⟩, pool, ⟨-, hle, hpool⟩, -, ⟨h0, hpT⟩, _,
      ⟨-, rfl⟩, rfl, rfl⟩
    exact ⟨⟨Nat.pos_of_ne_zero hT, Nat.pos_of_ne_zero hQ, Nat.pos_of_ne_zero hP, hmax, hsum⟩, hle,
      hpool, Nat.pos_of_ne_zero h0, hpT, rfl⟩
  · rintro ⟨⟨hT, hQ, hP, hmax, hsum⟩, hle, rfl, h0, hpT, rfl⟩
    exact ⟨(), ⟨by omega, by omega, by omega, hmax⟩, _, ⟨hsum, rfl⟩, _, ⟨by omega, hle, rfl⟩, (),
      ⟨by omega, hpT⟩, _, ⟨hpT, rfl⟩, rfl, rfl⟩

theorem sellableTokens_eq_ok {state : TrackedReserves} {n : ℕ} :
    sellableTokens state = .ok n ↔
      state.reservedTokens ≤ state.trackedTokens ∧
        n = state.trackedTokens - state.reservedTokens := by
  simp [sellableTokens]

theorem pricingReserves_eq_ok {state : TrackedReserves} {phantomQuote x y : ℕ} :
    pricingReserves state phantomQuote = .ok (x, y) ↔
      state.accruedQuoteFees ≤ state.trackedQuote ∧
      phantomQuote ≤ maxUint256 - (state.trackedQuote - state.accruedQuoteFees) ∧
      phantomQuote + (state.trackedQuote - state.accruedQuoteFees) ≤ maxUint256 ∧
      x = phantomQuote + (state.trackedQuote - state.accruedQuoteFees) ∧
      y = state.trackedTokens := by
  simp only [pricingReserves, bind_eq_ok, revertIf_eq_ok, uadd_eq_ok, usub_eq_ok, pure_eq_ok,
    Except.ok.injEq, Prod.mk.injEq, not_lt]
  constructor
  · rintro ⟨-, hfee, _, ⟨-, rfl⟩, -, hmax, _, ⟨hsum, rfl⟩, rfl, rfl⟩
    exact ⟨hfee, hmax, hsum, rfl, rfl⟩
  · rintro ⟨hfee, hmax, hsum, rfl, rfl⟩
    exact ⟨(), hfee, _, ⟨hfee, rfl⟩, (), hmax, _, ⟨hsum, rfl⟩, rfl, rfl⟩

end SupplyMath

end TickerGarden
