import TickerGarden.Fees.Conservation

/-!
# Who gets the fee of a swap

A credit of a swap's fee ends in one of three ways (`Outcome`): there is no stake to reward,
the gauge of the market settles the stakers' part, or its call is abandoned. What each of the
beneficiaries is credited then depends on the market and on the outcome only
(`Credits.attribution`): the stakers and the platform get three tenths of the base fee each,
rounded down, the holders half of what is left of it if the market says so, and the creator the
rest of the base fee with the whole surcharge.

The stakers' part of an abandoned call is credited to them and then moved to the reserve of
forfeitures, all in the same call; here it is the reserve that gets it. The three outcomes
therefore differ only in where the stakers' part is found, and in the gauge.

The main statement, `TickerGarden.ProtocolFeeVault.v4_fee_attribution`, is about the whole call
that finalises a credit: the account of the market in the asset of the fee is the one before
with these credits added, and they sum to what was received.
-/

namespace TickerGarden

open Checked Function

namespace ProtocolFeeVault

/-! ### Credits -/

/-- How the settlement of a fee with the stakers ended. -/
inductive Outcome
  /-- No stake was eligible. -/
  | noStake
  /-- The gauge took the stakers' part, for this much stake. -/
  | settled (activeStock : ℕ)
  /-- The gauge failed, and its call was rolled back. -/
  | abandoned
deriving DecidableEq

/-- What a fee adds to the account of a market in its asset. -/
structure Credits where
  creator : ℕ
  staker : ℕ
  platform : ℕ
  holder : ℕ
  reserve : ℕ
deriving DecidableEq

namespace Credits

/-- Everything that is credited. -/
def sum (c : Credits) : ℕ := c.creator + c.staker + c.platform + c.holder + c.reserve

/-- Three tenths of an amount, rounded down. -/
def portion (amount : ℕ) : ℕ := amount * 3000 / 10000

theorem portion_mul_le (amount : ℕ) : portion amount * 10000 ≤ 3000 * amount :=
  (div_mul_le _ _).trans_eq (Nat.mul_comm _ _)

/-- Two portions leave the rest. -/
theorem two_portions_le (amount : ℕ) : portion amount + portion amount ≤ amount := by
  have hle := portion_mul_le amount
  omega

/-- The stakers' part, which nobody gets if there is no stake. -/
def stakerPortion (outcome : Outcome) (baseFee : ℕ) : ℕ :=
  match outcome with
  | .noStake => 0
  | _ => portion baseFee

theorem stakerPortion_le (outcome : Outcome) (baseFee : ℕ) :
    stakerPortion outcome baseFee ≤ portion baseFee := by
  cases outcome with
  | noStake => exact Nat.zero_le _
  | settled _ => exact le_rfl
  | abandoned => exact le_rfl

/-- What is left of the base fee for the creator and the holders. -/
def residue (outcome : Outcome) (baseFee : ℕ) : ℕ :=
  baseFee - stakerPortion outcome baseFee - portion baseFee

/-- The holders' half of what is left, if the market assigns it to them. -/
def holderShare (creatorFeesToHolders : Bool) (outcome : Outcome) (baseFee : ℕ) : ℕ :=
  if creatorFeesToHolders then residue outcome baseFee / 2 else 0

theorem holderShare_le (b : Bool) (outcome : Outcome) (baseFee : ℕ) :
    holderShare b outcome baseFee ≤ residue outcome baseFee := by
  unfold holderShare
  split
  · exact Nat.div_le_self _ _
  · exact Nat.zero_le _

/-- **The attribution of a fee**, from the setting of the market and the outcome. -/
def attribution (creatorFeesToHolders : Bool) (outcome : Outcome) (baseFee tax : ℕ) : Credits where
  creator := tax + (residue outcome baseFee - holderShare creatorFeesToHolders outcome baseFee)
  staker := match outcome with
    | .settled _ => portion baseFee
    | _ => 0
  platform := portion baseFee
  holder := holderShare creatorFeesToHolders outcome baseFee
  reserve := match outcome with
    | .abandoned => portion baseFee
    | _ => 0

variable {b : Bool} {outcome : Outcome} {baseFee tax : ℕ}

/-- The stakers' part is with the stakers or in the reserve. -/
theorem staker_add_reserve :
    (attribution b outcome baseFee tax).staker + (attribution b outcome baseFee tax).reserve
      = stakerPortion outcome baseFee := by
  cases outcome with
  | noStake => rfl
  | settled _ => rfl
  | abandoned => exact Nat.zero_add _

/-- **Nothing of a fee is lost or invented.** -/
theorem sum_attribution : (attribution b outcome baseFee tax).sum = baseFee + tax := by
  have hstaker : (attribution b outcome baseFee tax).staker + (attribution b outcome baseFee tax).reserve
      = stakerPortion outcome baseFee := staker_add_reserve
  have hportion := stakerPortion_le outcome baseFee
  have htwo := two_portions_le baseFee
  have hholder := holderShare_le b outcome baseFee
  have hresidue : residue outcome baseFee + stakerPortion outcome baseFee + portion baseFee
      = baseFee := by
    unfold residue
    omega
  have hcreator : (attribution b outcome baseFee tax).creator
      = tax + (residue outcome baseFee - holderShare b outcome baseFee) := rfl
  have hplatform : (attribution b outcome baseFee tax).platform = portion baseFee := rfl
  have hholders : (attribution b outcome baseFee tax).holder = holderShare b outcome baseFee := rfl
  unfold sum
  omega

end Credits

/-! ### What a call adds to an account -/

/-- An account with the credits of a fee added, the creator's in his epoch and the holders' in
their bucket. -/
def Account.credited (a : Account) (creatorEpoch : Epoch) (c : Credits) : Account where
  bucketLiabilities
    | .creatorRevenue => a.bucketLiabilities .creatorRevenue + c.creator
    | .stakerReward => a.bucketLiabilities .stakerReward + c.staker
    | .platformRevenue => a.bucketLiabilities .platformRevenue + c.platform
    | .holderReward => a.bucketLiabilities .holderReward + c.holder
  creatorLiabilities := update a.creatorLiabilities creatorEpoch
    (a.creatorLiabilities creatorEpoch + c.creator)
  holderLiability := update a.holderLiability holderRewardBucket
    (a.holderLiability holderRewardBucket + c.holder)
  forfeitureReserve := a.forfeitureReserve + c.reserve

/-- **A ledger has been credited**: the account of a market in an asset has the credits added,
the total of the asset has grown by as much as was received, and nothing else has moved. -/
structure Credited (l l' : Ledger) (marketId : Bytes32) (asset : Address) (creatorEpoch : Epoch)
    (c : Credits) (amount : ℕ) : Prop where
  account : l'.account marketId asset = (l.account marketId asset).credited creatorEpoch c
  other : ∀ id a, ¬ (id = marketId ∧ a = asset) → l'.account id a = l.account id a
  total : l'.totalLiabilities asset = l.totalLiabilities asset + amount
  other_total : ∀ a, a ≠ asset → l'.totalLiabilities a = l.totalLiabilities a

namespace Credited

variable {self asset user : Address} {b : Balances} {l l₁ l₂ : Ledger} {marketId : Bytes32}
  {e : Epoch} {creator staker platform holder amount : ℕ} {event : Event}

/-- The other accounts are those of another market, or in another asset. -/
theorem account_put_of_ne {a : Account} {total : ℕ} {id : Bytes32} {asset' : Address}
    (h : ¬ (id = marketId ∧ asset' = asset)) :
    (l.put marketId asset a total).account id asset' = l.account id asset' := by
  rcases eq_or_ne asset' asset with rfl | hasset
  · exact Ledger.account_put_of_market_ne fun hid => h ⟨hid, rfl⟩
  · exact Ledger.account_put_of_asset_ne hasset

/-- A further replacement of the account of the fee. -/
theorem put {c c' : Credits} {a : Account} (h : Credited l l₁ marketId asset e c amount)
    (ha : a = (l.account marketId asset).credited e c') :
    Credited l (l₁.put marketId asset a (l₁.totalLiabilities asset)) marketId asset e c' amount where
  account := by rw [Ledger.account_put_self, ha]
  other id a' hne := by rw [account_put_of_ne hne, h.other id a' hne]
  total := by rw [Ledger.totalLiabilities_put_self, h.total]
  other_total a' hne := by rw [Ledger.totalLiabilities_put_of_ne hne, h.other_total a' hne]

/-- Events do not credit anyone. -/
theorem emit {c : Credits} (h : Credited l l₁ marketId asset e c amount) :
    Credited l (l₁.emit event) marketId asset e c amount :=
  ⟨h.account, h.other, h.total, h.other_total⟩

/-- The credit itself. -/
theorem of_creditFeeLiabilities
    (h : creditFeeLiabilities self b l marketId asset e amount creator staker platform = .ok l₁) :
    Credited l l₁ marketId asset e ⟨creator, staker, platform, 0, 0⟩ amount := by
  simp only [creditFeeLiabilities, bind_eq_ok, uadd_eq_ok, Sums.credit_eq_ok, pure_eq_ok,
    Except.ok.injEq] at h
  obtain ⟨_, ⟨-, rfl⟩, _, ⟨-, rfl⟩, -, -, _, ⟨-, rfl⟩, _, ⟨-, rfl⟩, _, ⟨-, rfl⟩, _, ⟨-, rfl⟩, _,
    ⟨-, rfl⟩, -, -, rfl⟩ := h
  refine ⟨?_, fun _ _ => account_put_of_ne, Ledger.totalLiabilities_put_self,
    fun _ => Ledger.totalLiabilities_put_of_ne⟩
  rw [Ledger.account_put_self, Account.credited, Nat.add_zero, Nat.add_zero, update_eq_self]
  congr 1
  funext bucket
  cases bucket <;> rfl

/-- The holders' half is taken from the creator. -/
theorem assignToHolders
    (hl : Credited l l₁ marketId asset e ⟨creator, staker, platform, 0, 0⟩ amount)
    (hle : holder ≤ creator)
    (h : assignToHolders l₁ marketId asset e holder = .ok l₂) :
    Credited l l₂ marketId asset e ⟨creator - holder, staker, platform, holder, 0⟩ amount := by
  simp only [ProtocolFeeVault.assignToHolders, bind_eq_ok, Sums.debit_eq_ok, Sums.credit_eq_ok,
    pure_eq_ok, Except.ok.injEq] at h
  obtain ⟨_, ⟨-, rfl⟩, _, ⟨-, rfl⟩, _, ⟨-, rfl⟩, _, ⟨-, rfl⟩, rfl⟩ := h
  refine (hl.put ?_).emit
  rw [hl.account, Account.credited, Account.credited]
  simp only [Nat.add_zero, update_self, update_idem, update_eq_self,
    Nat.add_sub_assoc hle]
  congr 1
  funext bucket
  cases bucket <;> simp

/-- The stakers' part is moved to the reserve. -/
theorem reserveForfeiture
    (hl : Credited l l₁ marketId asset e ⟨creator, staker, platform, holder, 0⟩ amount)
    (h : reserveForfeiture l₁ marketId asset user staker = .ok l₂) :
    Credited l l₂ marketId asset e ⟨creator, 0, platform, holder, staker⟩ amount := by
  unfold ProtocolFeeVault.reserveForfeiture at h
  by_cases hzero : staker = 0
  · rw [if_pos hzero] at h
    obtain rfl := Except.ok.inj h
    obtain rfl := hzero
    exact hl
  · rw [if_neg hzero] at h
    simp only [bind_eq_ok, uadd_eq_ok, pure_eq_ok, Except.ok.injEq] at h
    obtain ⟨-, -, _, ⟨-, rfl⟩, rfl⟩ := h
    refine (hl.put ?_).emit
    rw [hl.account, Account.credited, Account.credited]
    simp only [Nat.add_zero, Nat.add_sub_cancel]
    congr 1
    funext bucket
    cases bucket <;> simp

end Credited

/-! ### How a settlement ends -/

section Settlement

variable {G : Type} (calls : GaugeCalls G)

/-- **The vault's call to itself fails**: its gas runs out, the gauge does not tell its stake, or
it does not index the stakers' part. -/
def SettlementFails (gas : StakerGas) (g : G) (marketId : Bytes32) (asset : Address) (amount : ℕ)
    (feeId : Bytes32) : Prop :=
  gas.settlement = false ∨ (∃ e, calls.effectiveTotalActiveStock marketId g = .error e) ∨
    ∃ activeStock e, calls.effectiveTotalActiveStock marketId g = .ok activeStock ∧
      activeStock ≠ 0 ∧ amount ≠ 0 ∧ calls.creditStakerFee marketId asset amount feeId g = .error e

/-- **What an outcome says of the gauge**: with no stake it is unchanged; if it has settled, it has
indexed the stakers' part, if that is anything; and it is abandoned, unchanged, only if the vault's
call to itself has failed. -/
def Outcome.Of (gas : StakerGas) (g g' : G) (marketId : Bytes32) (asset : Address) (feeId : Bytes32)
    (stakingEnabled : Bool) (amount : ℕ) : Outcome → Prop
  | .noStake => g' = g ∧
      (stakingEnabled = false ∨ calls.effectiveTotalActiveStock marketId g = .ok 0)
  | .settled activeStock => stakingEnabled = true ∧ activeStock ≠ 0 ∧
      calls.effectiveTotalActiveStock marketId g = .ok activeStock ∧
      if amount = 0 then g' = g else calls.creditStakerFee marketId asset amount feeId g = .ok g'
  | .abandoned => stakingEnabled = true ∧ g' = g ∧
      SettlementFails calls gas g marketId asset amount feeId

variable {calls} {v : Immutables} {gas : StakerGas} {session : Session} {g g' : G}
  {marketId feeId : Bytes32} {asset : Address} {amount activeStock : ℕ} {attempt : StakerAttempt}

/-- What the vault's call to itself did. -/
theorem settleV4StakerFee_eq_ok {caller : Address}
    (h : settleV4StakerFee calls v caller session g marketId asset amount feeId
      = .ok (activeStock, g')) :
    calls.effectiveTotalActiveStock marketId g = .ok activeStock ∧
      if activeStock ≠ 0 ∧ amount ≠ 0 then calls.creditStakerFee marketId asset amount feeId g = .ok g'
      else g' = g := by
  simp only [settleV4StakerFee, bind_eq_ok] at h
  obtain ⟨-, -, stock, hstock, h⟩ := h
  by_cases hindex : stock ≠ 0 ∧ amount ≠ 0
  · rw [if_pos hindex] at h
    simp only [bind_eq_ok, pure_eq_ok, Except.ok.injEq, Prod.mk.injEq] at h
    obtain ⟨g₁, hcredit, rfl, rfl⟩ := h
    exact ⟨hstock, by rwa [if_pos hindex]⟩
  · rw [if_neg hindex] at h
    simp only [pure_eq_ok, Except.ok.injEq, Prod.mk.injEq] at h
    obtain ⟨rfl, rfl⟩ := h
    exact ⟨hstock, by rw [if_neg hindex]⟩

/-- A call of the vault to itself, while it finalises a credit, fails for one of these reasons. -/
theorem of_settlement_error {e : Revert} (hsession : session.creditState = .finalizing)
    (h : ifGas gas.settlement
      (settleV4StakerFee calls v v.self session g marketId asset amount feeId) = .error e) :
    SettlementFails calls gas g marketId asset amount feeId := by
  cases hgas : gas.settlement with
  | false => exact .inl hgas
  | true =>
    have hself : ¬ (v.self ≠ v.self ∨ session.creditState ≠ .finalizing) :=
      not_or.mpr ⟨not_not.mpr rfl, not_not.mpr hsession⟩
    rw [hgas, ifGas, if_pos rfl, settleV4StakerFee, revertIf_neg hself] at h
    cases hstock : calls.effectiveTotalActiveStock marketId g with
    | error e => exact .inr (.inl ⟨e, hstock⟩)
    | ok activeStock =>
      have hindex : activeStock ≠ 0 ∧ amount ≠ 0 := by
        by_contra hnot
        simp only [hstock, ok_bind, if_neg hnot] at h
        cases h
      simp only [hstock, ok_bind, if_pos hindex] at h
      cases hcredit : calls.creditStakerFee marketId asset amount feeId g with
      | error e => exact .inr (.inr ⟨activeStock, e, hstock, hindex.1, hindex.2, hcredit⟩)
      | ok g₁ =>
        rw [hcredit] at h
        cases h

/-- The outcome that an attempt reports. -/
def StakerAttempt.outcome (attempt : StakerAttempt) : Outcome :=
  if attempt.abandoned then .abandoned
  else if attempt.activeStock = 0 then .noStake else .settled attempt.activeStock

theorem outcome_settled (h : activeStock ≠ 0) :
    (⟨activeStock, false⟩ : StakerAttempt).outcome = .settled activeStock := by
  simp [StakerAttempt.outcome, h]

/-- A probe that answers says that there is no stake. -/
theorem of_knownEmpty (h : knownEmpty calls gas g marketId = true) :
    calls.effectiveTotalActiveStock marketId g = .ok 0 := by
  unfold knownEmpty at h
  split at h
  · assumption
  · cases h

/-- What comes back from the vault's call to itself, and from one that fails. -/
theorem of_tryStakerSettlement (hsession : session.creditState = .finalizing)
    (h : tryStakerSettlement calls v gas session g marketId asset amount feeId
      = .ok (attempt, g')) :
    attempt.outcome.Of calls gas g g' marketId asset feeId true amount := by
  unfold tryStakerSettlement at h
  by_cases hempty : knownEmpty calls gas g marketId
  · rw [if_pos hempty] at h
    simp only [Except.ok.injEq, Prod.mk.injEq] at h
    obtain ⟨rfl, rfl⟩ := h
    exact ⟨rfl, Or.inr (of_knownEmpty hempty)⟩
  · rw [if_neg hempty, bind_eq_ok] at h
    obtain ⟨-, -, h⟩ := h
    cases hcall : ifGas gas.settlement
        (settleV4StakerFee calls v v.self session g marketId asset amount feeId) with
    | error e =>
      rw [hcall] at h
      simp only [pure_eq_ok, Except.ok.injEq, Prod.mk.injEq] at h
      obtain ⟨rfl, rfl⟩ := h
      exact ⟨rfl, rfl, of_settlement_error hsession hcall⟩
    | ok result =>
      obtain ⟨stock, g₁⟩ := result
      rw [hcall] at h
      simp only [pure_eq_ok, Except.ok.injEq, Prod.mk.injEq] at h
      obtain ⟨rfl, rfl⟩ := h
      have hsettle : settleV4StakerFee calls v v.self session g marketId asset amount feeId
          = .ok (stock, g₁) := (ifGas_eq_ok.mp hcall).2
      obtain ⟨hstock, hindexed⟩ := settleV4StakerFee_eq_ok hsettle
      rcases eq_or_ne stock 0 with rfl | hne
      · rw [if_neg fun hboth => hboth.1 rfl] at hindexed
        exact ⟨hindexed, Or.inr hstock⟩
      · rw [outcome_settled hne]
        refine ⟨rfl, hne, hstock, ?_⟩
        rcases eq_or_ne amount 0 with rfl | hamount
        · rw [if_neg fun hboth => hboth.2 rfl] at hindexed
          rwa [if_pos rfl]
        · rw [if_pos ⟨hne, hamount⟩] at hindexed
          rwa [if_neg hamount]

/-- A market without staking has no stakers. -/
theorem of_attemptStakerSettlement {record : V4CreditRecord} {config : MarketConfig}
    {tax baseFee : ℕ} (hsession : session.creditState = .finalizing)
    (hbase : record.nonLpAmount = baseFee + tax)
    (h : attemptStakerSettlement calls v gas session g record config tax = .ok (attempt, g')) :
    attempt.outcome.Of calls gas g g' record.marketId record.feeAsset record.feeId
      config.stakingEnabled (Credits.portion baseFee) := by
  unfold attemptStakerSettlement at h
  by_cases hstaking : config.stakingEnabled
  · rw [if_pos hstaking] at h
    simp only [bind_eq_ok, usub_eq_ok, mulDiv_eq_ok] at h
    obtain ⟨_, ⟨-, rfl⟩, _, ⟨-, -, rfl⟩, h⟩ := h
    rw [hbase, Nat.add_sub_cancel] at h
    rw [hstaking]
    exact of_tryStakerSettlement hsession h
  · rw [if_neg hstaking] at h
    simp only [Except.ok.injEq, Prod.mk.injEq] at h
    obtain ⟨rfl, rfl⟩ := h
    exact ⟨rfl, Or.inl (Bool.eq_false_of_not_eq_true hstaking)⟩

end Settlement

/-! ### The whole credit -/

section Whole

variable {G : Type} {calls : GaugeCalls G} {platform : Platform} {v : Immutables}
  {c : Surroundings} {gas : StakerGas} {caller asset : Address} {s s' : State} {g g' : G}
  {marketId feeId : Bytes32} {l : Ledger} {base totalFee lpAmount nonLpAmount feeNonce : ℕ}

/-- The stakers' part of a division. -/
theorem stakerShare_outcome {attempt : StakerAttempt} {amount staker : ℕ}
    (h : MarketFeeAccounting.stakerShare amount
      (if attempt.abandoned then 1 else attempt.activeStock) = .ok staker) :
    staker = Credits.stakerPortion attempt.outcome amount := by
  have hshare : ∀ stock, stock ≠ 0 → MarketFeeAccounting.stakerShare amount stock = .ok staker →
      staker = Credits.portion amount := by
    intro stock hne hstock
    rw [MarketFeeAccounting.stakerShare, if_pos hne, mulDiv_eq_ok] at hstock
    exact hstock.2.2
  obtain ⟨stock, abandoned⟩ := attempt
  cases abandoned with
  | true => exact hshare 1 one_ne_zero h
  | false =>
    rcases eq_or_ne stock 0 with rfl | hne
    · exact (Except.ok.inj h).symm
    · rw [outcome_settled hne]
      exact hshare stock hne h

/-- The division of a base fee. -/
theorem splitV4_outcome {attempt : StakerAttempt} {total lp amount : ℕ}
    {buckets : MarketFeeAccounting.V4Buckets}
    (h : MarketFeeAccounting.splitV4 total lp amount
      (if attempt.abandoned then 1 else attempt.activeStock) = .ok buckets) :
    lp = 0 ∧ amount = total ∧ buckets.creatorAmount = Credits.residue attempt.outcome amount ∧
      buckets.stakerAmount = Credits.stakerPortion attempt.outcome amount ∧
      buckets.platformAmount = Credits.portion amount := by
  obtain ⟨hlp, htotal, hsum, hstaker, hplatform⟩ := MarketFeeAccounting.splitV4_eq_ok h
  have hstaker := stakerShare_outcome hstaker
  have hplatform : buckets.platformAmount = Credits.portion amount := hplatform
  refine ⟨hlp, htotal, ?_, hstaker, hplatform⟩
  unfold Credits.residue
  omega

/-- **The stakers' part of an abandoned attempt** goes to the reserve. -/
theorem Credited.abandonStakerFee {l₀ l₁ : Ledger} {record : V4CreditRecord}
    {attempt : StakerAttempt} {e : Epoch} {creator platformAmount holder baseFee amount : ℕ}
    (hl : Credited l₀ l record.marketId record.feeAsset e
      ⟨creator, Credits.stakerPortion attempt.outcome baseFee, platformAmount, holder, 0⟩ amount)
    (h : abandonStakerFee v l record attempt (Credits.stakerPortion attempt.outcome baseFee)
      = .ok l₁) :
    Credited l₀ l₁ record.marketId record.feeAsset e
      ⟨creator, (Credits.attribution false attempt.outcome baseFee 0).staker, platformAmount, holder,
        (Credits.attribution false attempt.outcome baseFee 0).reserve⟩ amount := by
  obtain ⟨stock, abandoned⟩ := attempt
  unfold ProtocolFeeVault.abandonStakerFee at h
  cases abandoned with
  | false =>
    rw [if_neg fun hboth => Bool.false_ne_true hboth.1] at h
    obtain rfl := Except.ok.inj h
    rcases eq_or_ne stock 0 with rfl | hne
    · exact hl
    · rw [outcome_settled hne] at hl ⊢
      exact hl
  | true =>
    change Credited l₀ l _ _ e ⟨creator, Credits.portion baseFee, platformAmount, holder, 0⟩ amount
      at hl
    change Credited l₀ l₁ _ _ e ⟨creator, 0, platformAmount, holder, Credits.portion baseFee⟩ amount
    by_cases hzero : Credits.portion baseFee = 0
    · rw [if_neg fun hboth => hboth.2 hzero] at h
      obtain rfl := Except.ok.inj h
      rwa [hzero] at hl ⊢
    · rw [if_pos ⟨rfl, hzero⟩, bind_eq_ok] at h
      obtain ⟨l₂, hreserve, h⟩ := h
      obtain rfl := Except.ok.inj h
      exact (hl.reserveForfeiture hreserve).emit

/-- The credit with the holders' half. -/
theorem Credited.of_creditTradingFeeLiabilities {self : Address} {b : Balances} {l' : Ledger}
    {e : Epoch} {residue staker platformAmount tax holder amount : ℕ} {config : MarketConfig}
    (h : creditTradingFeeLiabilities self b l marketId asset e amount (residue + tax) staker
      platformAmount tax config = .ok (l', holder)) :
    holder = (if config.creatorFeesToHolders then residue / 2 else 0) ∧
      Credited l l' marketId asset e ⟨tax + (residue - holder), staker, platformAmount, holder, 0⟩
        amount := by
  simp only [creditTradingFeeLiabilities, bind_eq_ok, Nat.add_sub_cancel] at h
  obtain ⟨-, -, l₁, hcredit, h⟩ := h
  have hl := of_creditFeeLiabilities hcredit
  by_cases hassign : config.creatorFeesToHolders ∧ residue / 2 ≠ 0
  · rw [if_pos hassign] at h
    simp only [bind_eq_ok, pure_eq_ok, Except.ok.injEq, Prod.mk.injEq] at h
    obtain ⟨l₂, hholders, rfl, rfl⟩ := h
    have hle : residue / 2 ≤ residue := Nat.div_le_self _ _
    have hcreator : residue + tax - residue / 2 = tax + (residue - residue / 2) := by omega
    refine ⟨(if_pos hassign.1).symm, ?_⟩
    rw [← hcreator]
    exact hl.assignToHolders (by omega) hholders
  · rw [if_neg hassign] at h
    simp only [pure_eq_ok, Except.ok.injEq, Prod.mk.injEq] at h
    obtain ⟨rfl, rfl⟩ := h
    refine ⟨?_, by rwa [Nat.sub_zero, Nat.add_comm tax residue]⟩
    split
    · rename_i hholders
      exact (not_not.mp fun hne => hassign ⟨hholders, hne⟩).symm
    · rfl

/-- **What `_settleV4Attribution` credits**, by the outcome of its attempt. -/
theorem of_settleV4Attribution {record : V4CreditRecord} {value : MarketView} {tax : ℕ}
    (hsession : s.session.creditState = .finalizing)
    (h : settleV4Attribution calls v c gas s g record value tax = .ok (l, g')) :
    ∃ outcome : Outcome, record.totalFee = record.nonLpAmount ∧
      outcome.Of calls gas g g' record.marketId record.feeAsset record.feeId
        value.config.stakingEnabled
        (Credits.portion (record.nonLpAmount - tax)) ∧
      Credited s.ledger l record.marketId record.feeAsset (c.currentCreatorEpoch record.marketId)
        (Credits.attribution value.config.creatorFeesToHolders outcome (record.nonLpAmount - tax) tax)
        record.nonLpAmount := by
  simp only [settleV4Attribution, bind_eq_ok, usub_eq_ok, uadd_eq_ok, pure_eq_ok, Except.ok.injEq,
    Prod.mk.injEq] at h
  obtain ⟨⟨attempt, g₁⟩, hattempt, _, ⟨hfee, rfl⟩, _, ⟨htax, rfl⟩, buckets, hsplit, _, ⟨-, rfl⟩, -, -,
    ⟨l₁, holder⟩, hcredit, l₂, habandon, _, -, rfl, rfl⟩ := h
  obtain ⟨hlp, hamount, hcreator, hstaker, hplatform⟩ := splitV4_outcome hsplit
  rw [hcreator, hstaker, hplatform] at hcredit
  rw [hstaker] at habandon
  obtain ⟨hholder, hcredited⟩ := Credited.of_creditTradingFeeLiabilities hcredit
  have hbase : record.nonLpAmount = record.nonLpAmount - tax + tax := (Nat.sub_add_cancel htax).symm
  refine ⟨attempt.outcome, by omega, of_attemptStakerSettlement hsession hbase hattempt, ?_⟩
  have hall := hcredited.abandonStakerFee habandon
  rw [hholder] at hall
  exact hall.emit

/-- **The attribution of a fee**: who was credited what for it, and what the gauge was told. -/
structure Attributed (calls : GaugeCalls G) (c : Surroundings) (gas : StakerGas)
    (marketId : Bytes32) (asset : Address) (feeId : Bytes32) (base nonLpAmount : ℕ) (l l' : Ledger) (g g' : G)
    (value : MarketView) (baseFee tax : ℕ) (outcome : Outcome) (credits : Credits) : Prop where
  /-- The surcharge and the base fee are those of the market, and both were received. -/
  market : MarketRegistry.market c.registries marketId = .ok value
  tax_eq : CreatorTax.amount base value.config.creatorTaxBps = .ok tax
  baseFee_eq : baseFee = base * feePips / feePipsDenominator
  nonLpAmount_eq : nonLpAmount = baseFee + tax
  /-- The credits are added to the account of the market in the asset of the fee. -/
  credited : Credited l l' marketId asset (c.currentCreatorEpoch marketId) credits nonLpAmount
  /-- They sum to the amount outside the pool. -/
  sum_eq : credits.creator + credits.staker + credits.platform + credits.holder + credits.reserve
    = nonLpAmount
  /-- The whole surcharge is the creator's: without it, everybody else gets the same. -/
  credits_eq : credits = Credits.attribution value.config.creatorFeesToHolders outcome baseFee tax
  untaxed : credits = { Credits.attribution value.config.creatorFeesToHolders outcome baseFee 0 with
    creator := tax +
      (Credits.attribution value.config.creatorFeesToHolders outcome baseFee 0).creator }
  untaxed_sum :
    (Credits.attribution value.config.creatorFeesToHolders outcome baseFee 0).sum = baseFee
  /-- The stakers and the platform get at most three tenths of the base fee. -/
  staker_le : credits.staker * 10000 ≤ 3000 * baseFee
  platform_le : credits.platform * 10000 ≤ 3000 * baseFee
  /-- Without stake the stakers get nothing. -/
  noStake : outcome = .noStake → credits.staker = 0 ∧ credits.reserve = 0 ∧ g' = g ∧
    (value.config.stakingEnabled = false ∨ calls.effectiveTotalActiveStock marketId g = .ok 0)
  /-- A gauge that settles indexes what the bucket of the stakers grows by. -/
  settled : ∀ activeStock, outcome = .settled activeStock → activeStock ≠ 0 ∧
    calls.effectiveTotalActiveStock marketId g = .ok activeStock ∧ credits.reserve = 0 ∧
    if credits.staker = 0 then g' = g
    else calls.creditStakerFee marketId asset credits.staker feeId g = .ok g'
  /-- The call is abandoned if it has failed; the gauge is unchanged, and the stakers' part is in
  the reserve. -/
  abandoned : outcome = .abandoned → value.config.stakingEnabled = true ∧ g' = g ∧
    SettlementFails calls gas g marketId asset (Credits.portion baseFee) feeId ∧
    credits.staker = 0 ∧ credits.reserve = Credits.portion baseFee

/-- The attribution of an outcome has these properties. -/
theorem Attributed.of_outcome {value : MarketView} {tax : ℕ} {outcome : Outcome}
    {l' : Ledger} (hmarket : MarketRegistry.market c.registries marketId = .ok value)
    (htax : CreatorTax.amount base value.config.creatorTaxBps = .ok tax)
    (hof : outcome.Of calls gas g g' marketId asset feeId value.config.stakingEnabled
      (Credits.portion (base * feePips / feePipsDenominator)))
    (hcredited : Credited l l' marketId asset (c.currentCreatorEpoch marketId)
      (Credits.attribution value.config.creatorFeesToHolders outcome
        (base * feePips / feePipsDenominator) tax) (base * feePips / feePipsDenominator + tax)) :
    Attributed calls c gas marketId asset feeId base (base * feePips / feePipsDenominator + tax) l l' g
      g' value (base * feePips / feePipsDenominator) tax outcome
      (Credits.attribution value.config.creatorFeesToHolders outcome
        (base * feePips / feePipsDenominator) tax) where
  market := hmarket
  tax_eq := htax
  baseFee_eq := rfl
  nonLpAmount_eq := rfl
  credited := hcredited
  sum_eq := Credits.sum_attribution
  credits_eq := rfl
  untaxed := by simp [Credits.attribution]
  untaxed_sum := Credits.sum_attribution
  staker_le := by
    have hle := Credits.portion_mul_le (base * feePips / feePipsDenominator)
    cases outcome with
    | noStake => exact (Nat.zero_mul _).trans_le (Nat.zero_le _)
    | settled _ => exact hle
    | abandoned => exact (Nat.zero_mul _).trans_le (Nat.zero_le _)
  platform_le := Credits.portion_mul_le _
  noStake := by
    rintro rfl
    exact ⟨rfl, rfl, hof⟩
  settled := by
    rintro activeStock rfl
    obtain ⟨-, hne, hstock, hindexed⟩ := hof
    exact ⟨hne, hstock, rfl, hindexed⟩
  abandoned := by
    rintro rfl
    obtain ⟨hstaking, hsame, hfails⟩ := hof
    exact ⟨hstaking, hsame, hfails, rfl, rfl⟩

/-- **The attribution of the fee of a swap**, for every credit that is finalised. -/
theorem v4_fee_attribution
    (h : finalizeV4Credit calls platform v c gas caller s g marketId asset base totalFee lpAmount
      nonLpAmount feeNonce feeId = .ok (s', g')) :
    ∃ value baseFee tax outcome credits, Attributed calls c gas marketId asset feeId base nonLpAmount
      s.ledger s'.ledger g g' value baseFee tax outcome credits := by
  simp only [finalizeV4Credit, bind_eq_ok, pure_eq_ok, Except.ok.injEq, Prod.mk.injEq] at h
  obtain ⟨-, -, -, -, value, hvalue, -, -, tax, hrecord, ⟨l, _⟩, hsettle, rfl, rfl⟩ := h
  simp only [requireActiveV4Source, bind_eq_ok, pure_eq_ok, Except.ok.injEq] at hvalue
  obtain ⟨_, hmarket, -, -, -, -, rfl⟩ := hvalue
  simp only [validateV4Record, bind_eq_ok, mulDiv_eq_ok, uadd_eq_ok, revertIf_eq_ok, not_or,
    not_not, pure_eq_ok, Except.ok.injEq] at hrecord
  obtain ⟨-, -, tax', htax, _, ⟨-, -, rfl⟩, _, ⟨-, rfl⟩, -, ⟨-, htotal⟩, _, -, -, -, heq⟩ := hrecord
  obtain rfl : tax' = tax := heq
  obtain ⟨outcome, hnonLp, hof, hcredited⟩ := of_settleV4Attribution rfl hsettle
  dsimp only at htotal hnonLp hof hcredited
  obtain rfl : nonLpAmount = base * feePips / feePipsDenominator + tax' := hnonLp.symm.trans htotal
  rw [Nat.add_sub_cancel] at hof hcredited
  exact ⟨_, _, tax', outcome, _, .of_outcome hmarket htax hof hcredited⟩

end Whole

/-! ### A small fee

A swap of 10000 pays a base fee of 100 and a surcharge of 100 to a market that shares with its
holders. -/

namespace AttributionSample

/-- The market of the sample, with the specification that the platform hashes. -/
def config : RegisteredConfig :=
  { UserStockVault.Sample.config with
    executionSpecId := executionSpecId DocumentedV4.platform
    identified := by decide
    quoteAsset_ne_memeToken := by decide
    hook_permissions := by decide
    stakingShape := by decide
    lpFee_allowed := by decide }

/-- The vault holds this much of the native currency. -/
def around (held : ℕ) : Surroundings :=
  { Sample.around held with
    registries :=
      { Sample.registries with
        markets := fun id => if id = 1
          then some ⟨config, ⟨9, 1, launchPhasePoolCreated⟩⟩ else none } }

/-- A gauge that counts what it has indexed, and may fail. -/
def calls (stock : ℕ) (fails : Bool) : GaugeCalls ℕ where
  effectiveTotalActiveStock _ _ := .ok stock
  creditStakerFee _ _ amount _ g := if fails then .error .noReason else .ok (g + amount)
  consumeClaimableAssets _ _ _ g := .ok (g, 0, 0)

/-- The identifier of the fee, its first in the pool. -/
def feeId : Bytes32 :=
  expectedV4FeeId DocumentedV4.platform Sample.vault
    { marketId := 1, feeAsset := 0, base := 10000, totalFee := 200, lpAmount := 0,
      nonLpAmount := 200, sourceVersion := 1, feeNonce := 1, feeId := 0 } 9

/-- The hook of the market announces a fee of two hundred. -/
def begun : Except Revert State :=
  beginV4Credit Sample.vault (around 0).toWorld 0x2044 Sample.fresh 1 0 200 1 feeId

theorem begun_isOk : begun.isOk = true := by decide +kernel

/-- The fee has come in, and is credited while some stock is active, or while the gauge fails. -/
def finalized (stock : ℕ) (fails : Bool) : Except Revert (State × ℕ) :=
  finalizeV4Credit (calls stock fails) DocumentedV4.platform Sample.vault (around 200)
    ⟨true, true, true⟩ 0x2044 (value begun begun_isOk) 0 1 0 10000 200 0 200 1 feeId

theorem settled_isOk : (finalized 5 false).isOk = true := by decide +kernel

theorem abandoned_isOk : (finalized 5 true).isOk = true := by decide +kernel

/-- The state and the gauge after the credit, when the gauge settles it and when it fails. -/
def settled : State × ℕ := value (finalized 5 false) settled_isOk

/-- The gauge fails, and the part of the stakers is abandoned. -/
def abandoned : State × ℕ := value (finalized 5 true) abandoned_isOk

end AttributionSample

/-- The attribution of that fee: the gauge has indexed the stakers' part, or is unchanged. -/
theorem v4_fee_attribution_sample :
    (AttributionSample.settled.2 = 30 ∧ ∃ view baseFee tax outcome credits,
      Attributed (AttributionSample.calls 5 false) (AttributionSample.around 200)
        ⟨true, true, true⟩ 1 0 AttributionSample.feeId 10000 200
        (value AttributionSample.begun AttributionSample.begun_isOk).ledger
        AttributionSample.settled.1.ledger 0 AttributionSample.settled.2 view baseFee tax outcome
        credits) ∧
    AttributionSample.abandoned.2 = 0 ∧ ∃ view baseFee tax outcome credits,
      Attributed (AttributionSample.calls 5 true) (AttributionSample.around 200)
        ⟨true, true, true⟩ 1 0 AttributionSample.feeId 10000 200
        (value AttributionSample.begun AttributionSample.begun_isOk).ledger
        AttributionSample.abandoned.1.ledger 0 AttributionSample.abandoned.2 view baseFee tax outcome
        credits :=
  ⟨⟨by decide +kernel, v4_fee_attribution (eq_ok_value AttributionSample.settled_isOk)⟩,
    by decide +kernel, v4_fee_attribution (eq_ok_value AttributionSample.abandoned_isOk)⟩

end ProtocolFeeVault

end TickerGarden
