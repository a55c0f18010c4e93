import TickerGarden.Fees.Partition
import TickerGarden.Lib.Sums
import TickerGarden.World

/-!
# The liabilities of the fee vault

What the fee vault owes, by market and asset: four buckets, the creator's divided again
by the epoch of the beneficiary and the holders' by the funding bucket, and a reserve of
forfeited rewards that has left the stakers' bucket and not yet reached the platform's.
A total is kept for each asset. Every function here changes one account – a market in an
asset – and the total of its asset, and `TickerGarden.ProtocolFeeVault.LedgerSound`,
that the nested amounts add up, is kept by each of them.

| function                    | account                                   | total      |
|-----------------------------|-------------------------------------------|------------|
| `creditFeeLiabilities`      | three buckets and an epoch grow           | grows      |
| `creditTradingFeeLiabilities` | the same, then half of it to the holders | grows      |
| `reserveForfeiture`         | stakers to reserve                        | unchanged  |
| `convertForfeitureReserve`  | reserve to platform                       | unchanged  |
| `debitLiability`            | a bucket shrinks                          | shrinks    |
| `debitHolderFee`            | the holders' bucket and its part shrink   | shrinks    |

The ledger carries the log of what was emitted, which no function reads.
-/

namespace TickerGarden

open Checked Function

namespace ProtocolFeeVault

/-- `BUCKET_CREATOR_REVENUE`, …, `BUCKET_HOLDER_REWARD`. -/
inductive Bucket
  | creatorRevenue
  | stakerReward
  | platformRevenue
  | holderReward
deriving DecidableEq

instance : Fintype Bucket where
  elems := {.creatorRevenue, .stakerReward, .platformRevenue, .holderReward}
  complete b := by cases b <;> decide

/-- The events of the fee vault that tell what happens to its liabilities. -/
inductive Event
  | holderFeesAccrued (marketId : Bytes32) (epochId : Epoch) (feeAsset : Address) (amount : ℕ)
  | feeBucketsCredited (marketId : Bytes32) (creatorEpoch : Epoch) (feeAsset : Address)
      (feeId : Bytes32) (creatorAmount stakerAmount platformAmount activeStock : ℕ)
  | curveFeesSwept (marketId : Bytes32) (creatorEpoch : Epoch) (quoteAsset : Address)
      (sweepNonce : ℕ) (feeId : Bytes32) (amount creatorAmount platformAmount : ℕ)
  | feeClaimed (beneficiaryType : ℕ) (beneficiary : Address) (marketId : Bytes32)
      (beneficiaryEpoch : Epoch) (feeAsset : Address) (amount : ℕ)
  | forfeitureReserved (marketId : Bytes32) (user feeAsset : Address) (amount reserveBalance : ℕ)
  | forfeitureReserveConverted (marketId : Bytes32) (feeAsset : Address) (amount : ℕ)
  | stakerFeeAbandoned (marketId feeId : Bytes32) (feeAsset : Address) (amount : ℕ)
  | feeAssetDeficitCovered (asset contributor : Address) (amount remainingDeficit : ℕ)
  | userRewardsClaimed (marketId : Bytes32) (user : Address) (role : ℕ) (creatorEpoch : Epoch)
      (quotePaid memePaid : ℕ)
  | memeFeesBurned (marketId : Bytes32) (beneficiary : Address) (role : ℕ) (creatorEpoch : Epoch)
      (token : Address) (amount : ℕ)
  | holderFundingResult (marketId : Bytes32) (asset status amount : ℕ)
  | holderFundingBatchStopped (nextMarket nextAsset : ℕ)
deriving DecidableEq

/-! ### An account -/

/-- What is owed for a market in an asset. -/
structure Account where
  /-- `_bucketLiabilities`. -/
  bucketLiabilities : Bucket → ℕ
  /-- `_creatorLiabilities`. -/
  creatorLiabilities : Epoch → ℕ
  holderLiability : Epoch → ℕ
  /-- `_forfeitureReserves`. -/
  forfeitureReserve : ℕ

namespace Account

variable (a : Account)

/-- An account of nothing. -/
def empty : Account where
  bucketLiabilities _ := 0
  creatorLiabilities _ := 0
  holderLiability _ := 0
  forfeitureReserve := 0

/-- Everything that is owed: the buckets and the reserve. -/
def liability : ℕ := ∑ b, a.bucketLiabilities b + a.forfeitureReserve

/-- **The nested amounts add up**: the creators' bucket is the sum over the epochs, and
the holders' bucket the sum over theirs. -/
structure Sound : Prop where
  creator : a.bucketLiabilities .creatorRevenue = ∑ e, a.creatorLiabilities e
  holder : a.bucketLiabilities .holderReward = ∑ e, a.holderLiability e

theorem sound_empty : empty.Sound where
  creator := Finset.sum_const_zero.symm
  holder := Finset.sum_const_zero.symm

theorem liability_empty : empty.liability = 0 := by
  simp [liability, empty]

/-- What is owed, one bucket after the other. -/
theorem liability_eq : a.liability = a.bucketLiabilities .creatorRevenue
    + a.bucketLiabilities .stakerReward + a.bucketLiabilities .platformRevenue
    + a.bucketLiabilities .holderReward + a.forfeitureReserve := by
  have huniv : (Finset.univ : Finset Bucket)
      = {.creatorRevenue, .stakerReward, .platformRevenue, .holderReward} := rfl
  simp only [liability, huniv]
  rw [Finset.sum_insert (by decide), Finset.sum_insert (by decide), Finset.sum_insert (by decide),
    Finset.sum_singleton]
  omega

end Account

/-! ### The ledger -/

/-- The liabilities of the vault, with the log of its events. -/
structure Ledger where
  account : Bytes32 → Address → Account
  /-- `_totalLiabilities`. -/
  totalLiabilities : Address → ℕ
  log : List Event

namespace Ledger

/-- A ledger of nothing. -/
def empty : Ledger where
  account _ _ := Account.empty
  totalLiabilities _ := 0
  log := []

/-- The ledger with an account and the total of its asset replaced. -/
def put (l : Ledger) (marketId : Bytes32) (asset : Address) (a : Account) (total : ℕ) : Ledger :=
  { l with
    account := update l.account marketId
      (update (l.account marketId) asset a)
    totalLiabilities := update l.totalLiabilities asset total }

/-- An event is written to the log. -/
def emit (l : Ledger) (e : Event) : Ledger := { l with log := l.log ++ [e] }

variable {l : Ledger} {marketId id : Bytes32} {asset asset' : Address} {a : Account} {total : ℕ}
  {e : Event}

theorem account_put_self : (l.put marketId asset a total).account marketId asset = a := by
  simp [put]

theorem account_put_of_asset_ne (h : asset' ≠ asset) :
    (l.put marketId asset a total).account id asset' = l.account id asset' := by
  rcases eq_or_ne id marketId with rfl | hid
  · simp [put, h]
  · simp [put, hid]

theorem account_put_of_market_ne (h : id ≠ marketId) :
    (l.put marketId asset a total).account id asset' = l.account id asset' := by
  simp [put, h]

@[simp] theorem totalLiabilities_put_self :
    (l.put marketId asset a total).totalLiabilities asset = total :=
  update_self ..

theorem totalLiabilities_put_of_ne (h : asset' ≠ asset) :
    (l.put marketId asset a total).totalLiabilities asset' = l.totalLiabilities asset' :=
  update_of_ne h ..

/-- The last replacement counts. -/
theorem put_put {a' : Account} {total' : ℕ} :
    (l.put marketId asset a total).put marketId asset a' total' = l.put marketId asset a' total' := by
  simp [put]

/-- Replacements in two assets can be made in either order. -/
theorem put_comm {a' : Account} {total' : ℕ} (h : asset ≠ asset') :
    (l.put marketId asset' a' total').put marketId asset a total
      = (l.put marketId asset a total).put marketId asset' a' total' := by
  simp [put, Function.update_comm h]

end Ledger

/-! ### The source functions -/

section Functions

variable (self : Address) (b : Balances) (l : Ledger) (marketId : Bytes32) (feeAsset : Address)

/-- `_requireSolvent`. -/
def requireSolvent (required : ℕ) : Except Revert Unit :=
  revertIf (b feeAsset self < required)
    (.feeVault (.feeVaultInsolvent feeAsset (b feeAsset self) required))

/-- `_requireAssetSolvent`. -/
def requireAssetSolvent : Except Revert Unit :=
  requireSolvent self b feeAsset (l.totalLiabilities feeAsset)

/-- `_creditFeeLiabilities`. -/
def creditFeeLiabilities (creatorEpoch : Epoch)
    (amount creatorAmount stakerAmount platformAmount : ℕ) : Except Revert Ledger := do
  let staked ← uadd creatorAmount stakerAmount
  let bucketTotal ← uadd staked platformAmount
  revertIf (amount = 0 ∨ bucketTotal ≠ amount ∨ creatorEpoch = 0)
    (.feeVault (.invalidFeeLiabilityCredit amount bucketTotal))
  let a := l.account marketId feeAsset
  let creatorLiabilities ← Sums.credit a.creatorLiabilities creatorEpoch creatorAmount
  let buckets ← Sums.credit a.bucketLiabilities .creatorRevenue creatorAmount
  let buckets ← Sums.credit buckets .stakerReward stakerAmount
  let bucketLiabilities ← Sums.credit buckets .platformRevenue platformAmount
  let nextTotal ← uadd (l.totalLiabilities feeAsset) amount
  requireSolvent self b feeAsset nextTotal
  return l.put marketId feeAsset { a with creatorLiabilities, bucketLiabilities } nextTotal

/-- `_holderRewardBucket`. -/
def holderRewardBucket : Epoch := 1

/-- The half of a creator's fee that goes to the holders. -/
def assignToHolders (creatorEpoch : Epoch) (holderAmount : ℕ) : Except Revert Ledger := do
  let a := l.account marketId feeAsset
  let creatorLiabilities ← Sums.debit a.creatorLiabilities creatorEpoch holderAmount
  let buckets ← Sums.debit a.bucketLiabilities .creatorRevenue holderAmount
  let bucketLiabilities ← Sums.credit buckets .holderReward holderAmount
  let holderLiability ← Sums.credit a.holderLiability holderRewardBucket holderAmount
  let a := { a with creatorLiabilities, bucketLiabilities, holderLiability }
  return (l.put marketId feeAsset a (l.totalLiabilities feeAsset)).emit
    (.holderFeesAccrued marketId holderRewardBucket feeAsset holderAmount)

/-- `_creditTradingFeeLiabilities`: with what the holders get. -/
def creditTradingFeeLiabilities (creatorEpoch : Epoch)
    (amount creatorAmount stakerAmount platformAmount creatorTaxAmount : ℕ)
    (config : MarketConfig) : Except Revert (Ledger × ℕ) := do
  revertIf (creatorTaxAmount > creatorAmount)
    (.feeVault (.invalidFeeLiabilityCredit amount creatorTaxAmount))
  let l ← creditFeeLiabilities self b l marketId feeAsset creatorEpoch amount creatorAmount
    stakerAmount platformAmount
  let holderAmount := (creatorAmount - creatorTaxAmount) / 2
  if config.creatorFeesToHolders ∧ holderAmount ≠ 0 then
    let l ← assignToHolders l marketId feeAsset creatorEpoch holderAmount
    return (l, holderAmount)
  else return (l, 0)

/-- `_reserveForfeiture`: from the stakers to the reserve. -/
def reserveForfeiture (user : Address) (amount : ℕ) : Except Revert Ledger :=
  if amount = 0 then .ok l
  else do
    let a := l.account marketId feeAsset
    let available := a.bucketLiabilities .stakerReward
    revertIf (amount > available)
      (.feeVault (.insufficientStakerLiability marketId feeAsset available amount))
    let bucketLiabilities := update a.bucketLiabilities .stakerReward (available - amount)
    let reserveBalance ← uadd a.forfeitureReserve amount
    let a := { a with bucketLiabilities, forfeitureReserve := reserveBalance }
    return (l.put marketId feeAsset a (l.totalLiabilities feeAsset)).emit
      (.forfeitureReserved marketId user feeAsset amount reserveBalance)

/-- `_convertForfeitureReserve`: from the reserve to the platform. -/
def convertForfeitureReserve : Except Revert Ledger :=
  let amount := (l.account marketId feeAsset).forfeitureReserve
  if amount = 0 then .ok l
  else do
    let a := l.account marketId feeAsset
    let bucketLiabilities ← Sums.credit a.bucketLiabilities .platformRevenue amount
    let a := { a with bucketLiabilities, forfeitureReserve := 0 }
    return (l.put marketId feeAsset a (l.totalLiabilities feeAsset)).emit
      (.forfeitureReserveConverted marketId feeAsset amount)

/-- `_debitLiability`. -/
def debitLiability (bucket : Bucket) (amount : ℕ) : Except Revert Ledger := do
  let a := l.account marketId feeAsset
  let bucketLiabilities ← Sums.debit a.bucketLiabilities bucket amount
  let total ← usub (l.totalLiabilities feeAsset) amount
  return l.put marketId feeAsset { a with bucketLiabilities } total

/-- `delete _creatorLiabilities[..]`. -/
def deleteCreatorLiability (creatorEpoch : Epoch) : Ledger :=
  let a := l.account marketId feeAsset
  l.put marketId feeAsset
    { a with creatorLiabilities := update a.creatorLiabilities creatorEpoch 0 }
    (l.totalLiabilities feeAsset)

/-- `_debitHolderFee`. -/
def debitHolderFee (epochId : Epoch) (amount : ℕ) : Except Revert Ledger := do
  let a := l.account marketId feeAsset
  let holderLiability ← Sums.debit a.holderLiability epochId amount
  let a := { a with holderLiability }
  debitLiability (l.put marketId feeAsset a (l.totalLiabilities feeAsset)) marketId feeAsset
    .holderReward amount

/-- `_payFeeAsset`: pay, check that exactly the amount moved, and that the rest is still
covered. -/
def payFeeAsset (beneficiary : Address) (amount : ℕ) : Except Revert Balances := do
  let after ← orRevert (b.move feeAsset self beneficiary amount)
    (.feeVault (.nativeFeeClaimFailed beneficiary amount))
  let vaultDecrease := if b feeAsset self ≥ after feeAsset self
    then b feeAsset self - after feeAsset self else maxUint256
  let beneficiaryIncrease := if after feeAsset beneficiary ≥ b feeAsset beneficiary
    then after feeAsset beneficiary - b feeAsset beneficiary else maxUint256
  revertIf (feeAsset ≠ 0 ∧ (vaultDecrease ≠ amount ∨ beneficiaryIncrease ≠ amount))
    (.feeVault (.inexactFeePayment feeAsset beneficiary amount vaultDecrease beneficiaryIncrease))
  requireAssetSolvent self after l feeAsset
  return after

/-- `_burnMemeFees`, for a token that burns exactly: the supply is not kept here. -/
def burnMemeFees (beneficiary : Address) (role : ℕ) (epoch : Epoch) (amount : ℕ) :
    Except Revert (Ledger × Balances) := do
  let after ← orRevert (b.burn feeAsset self amount) (.feeVault .rewardBalanceMismatch)
  revertIf (after feeAsset self + amount ≠ b feeAsset self) (.feeVault .rewardBalanceMismatch)
  requireAssetSolvent self after l feeAsset
  return (l.emit (.memeFeesBurned marketId beneficiary role epoch feeAsset amount), after)

end Functions

/-! ### What a function does to the ledger -/

variable {l l' l'' : Ledger} {marketId : Bytes32} {asset self : Address} {b b' : Balances}
  {n m p q amount : ℕ} {e : Epoch}

/-- **One account changes**, and the total of its asset by as much. -/
structure Changes (l l' : Ledger) (marketId : Bytes32) (asset : Address)
    (credited debited : ℕ) : Prop where
  account_other : ∀ id a, (id ≠ marketId ∨ a ≠ asset) → l'.account id a = l.account id a
  sound : (l.account marketId asset).Sound → (l'.account marketId asset).Sound
  liability : (l'.account marketId asset).liability + debited
    = (l.account marketId asset).liability + credited
  total : l'.totalLiabilities asset + debited = l.totalLiabilities asset + credited
  total_other : ∀ a, a ≠ asset → l'.totalLiabilities a = l.totalLiabilities a

namespace Changes

theorem refl : Changes l l marketId asset 0 0 where
  account_other _ _ _ := rfl
  sound := id
  liability := rfl
  total := rfl
  total_other _ _ := rfl

theorem trans (h : Changes l l' marketId asset n m) (h' : Changes l' l'' marketId asset p q) :
    Changes l l'' marketId asset (n + p) (m + q) where
  account_other id a hne := (h'.account_other id a hne).trans (h.account_other id a hne)
  sound hs := h'.sound (h.sound hs)
  liability := by
    have h₁ := h.liability
    have h₂ := h'.liability
    omega
  total := by
    have h₁ := h.total
    have h₂ := h'.total
    omega
  total_other a hne := (h'.total_other a hne).trans (h.total_other a hne)

/-- An account replaced in the ledger. -/
theorem put {a : Account} {total : ℕ} (hsound : (l.account marketId asset).Sound → a.Sound)
    (hliability : a.liability + m = (l.account marketId asset).liability + n)
    (htotal : total + m = l.totalLiabilities asset + n) :
    Changes l (l.put marketId asset a total) marketId asset n m where
  account_other id asset' hne := by
    rcases hne with hid | hasset
    · exact Ledger.account_put_of_market_ne hid
    · exact Ledger.account_put_of_asset_ne hasset
  sound := by rwa [Ledger.account_put_self]
  liability := by rwa [Ledger.account_put_self]
  total := by rwa [Ledger.totalLiabilities_put_self]
  total_other _ hne := Ledger.totalLiabilities_put_of_ne hne

theorem emit {event : Event} (h : Changes l l' marketId asset n m) :
    Changes l (l'.emit event) marketId asset n m :=
  ⟨h.account_other, h.sound, h.liability, h.total, h.total_other⟩

end Changes

theorem requireSolvent_eq_ok {required : ℕ} {u : Unit} :
    requireSolvent self b asset required = .ok u ↔ required ≤ b asset self := by
  simp [requireSolvent]

/-- **A credit** grows by its amount, which is covered. -/
theorem of_creditFeeLiabilities {creator staker platform : ℕ}
    (h : creditFeeLiabilities self b l marketId asset e amount creator staker platform = .ok l') :
    Changes l l' marketId asset amount 0 ∧ l'.totalLiabilities asset ≤ b asset self ∧
      creator + staker + platform = amount := by
  simp only [creditFeeLiabilities, bind_eq_ok, uadd_eq_ok, revertIf_eq_ok, requireSolvent_eq_ok,
    pure_eq_ok, Except.ok.injEq, not_or, not_not] at h
  obtain ⟨_, ⟨-, rfl⟩, _, ⟨-, rfl⟩, -, ⟨-, hamount, -⟩, creators, hcreators, buckets₁, h₁, buckets₂,
    h₂, buckets, h₃, _, ⟨-, rfl⟩, -, hsolvent, rfl⟩ := h
  refine ⟨Changes.put (fun hs => ?_) ?_ rfl, ?_, hamount⟩
  · -- the creators' bucket and the epoch grow by the same amount
    have hsum := Sums.sum_credit hcreators
    have hself := Sums.credit_self h₁
    refine ⟨?_, ?_⟩ <;> dsimp only
    · rw [Sums.credit_of_ne h₃ (by decide), Sums.credit_of_ne h₂ (by decide), hself, hsum, hs.creator]
    · rw [Sums.credit_of_ne h₃ (by decide), Sums.credit_of_ne h₂ (by decide),
        Sums.credit_of_ne h₁ (by decide), hs.holder]
  · have hs₁ := Sums.sum_credit h₁
    have hs₂ := Sums.sum_credit h₂
    have hs₃ := Sums.sum_credit h₃
    simp only [Account.liability]
    omega
  · rwa [Ledger.totalLiabilities_put_self]

/-- **What goes to the holders** stays in the account. -/
theorem of_assignToHolders (h : assignToHolders l marketId asset e amount = .ok l') :
    Changes l l' marketId asset 0 0 := by
  simp only [assignToHolders, bind_eq_ok, pure_eq_ok, Except.ok.injEq] at h
  obtain ⟨creators, hcreators, buckets₁, h₁, buckets, h₂, holders, hholders, rfl⟩ := h
  refine (Changes.put (fun hs => ⟨?_, ?_⟩) ?_ rfl).emit
  · dsimp only
    have hsum := Sums.sum_debit hcreators
    have hself := Sums.debit_self h₁
    have hcreator := hs.creator
    rw [Sums.credit_of_ne h₂ (by decide)]
    omega
  · dsimp only
    rw [Sums.credit_self h₂, Sums.debit_of_ne h₁ (by decide), Sums.sum_credit hholders, hs.holder]
  · have hs₁ := Sums.sum_debit h₁
    have hs₂ := Sums.sum_credit h₂
    simp only [Account.liability]
    omega

theorem of_creditTradingFeeLiabilities {creator staker platform tax holder : ℕ}
    {config : MarketConfig}
    (h : creditTradingFeeLiabilities self b l marketId asset e amount creator staker platform tax
      config = .ok (l', holder)) :
    Changes l l' marketId asset amount 0 ∧ l'.totalLiabilities asset ≤ b asset self := by
  simp only [creditTradingFeeLiabilities, bind_eq_ok, revertIf_eq_ok] at h
  obtain ⟨-, -, l₁, hcredit, h⟩ := h
  obtain ⟨hchanges, hcovered, -⟩ := of_creditFeeLiabilities hcredit
  split at h
  · simp only [bind_eq_ok, pure_eq_ok, Except.ok.injEq, Prod.mk.injEq] at h
    obtain ⟨l₂, hassign, rfl, -⟩ := h
    have hassigned := of_assignToHolders hassign
    have htotal := hassigned.total
    exact ⟨hchanges.trans hassigned, by omega⟩
  · simp only [pure_eq_ok, Except.ok.injEq, Prod.mk.injEq] at h
    obtain ⟨rfl, -⟩ := h
    exact ⟨hchanges, hcovered⟩

/-- **A forfeiture** stays in the account. -/
theorem of_reserveForfeiture {user : Address}
    (h : reserveForfeiture l marketId asset user amount = .ok l') :
    Changes l l' marketId asset 0 0 := by
  unfold reserveForfeiture at h
  split at h
  · obtain rfl := Except.ok.inj h
    exact Changes.refl
  · simp only [bind_eq_ok, revertIf_eq_ok, uadd_eq_ok, pure_eq_ok, Except.ok.injEq, not_lt] at h
    obtain ⟨-, hle, _, ⟨-, rfl⟩, rfl⟩ := h
    refine (Changes.put (fun hs => ⟨?_, ?_⟩) ?_ rfl).emit
    · dsimp only
      rw [update_of_ne (by decide), hs.creator]
    · dsimp only
      rw [update_of_ne (by decide), hs.holder]
    · have hsum := Sums.sum_update (l.account marketId asset).bucketLiabilities .stakerReward
        ((l.account marketId asset).bucketLiabilities .stakerReward - amount)
      simp only [Account.liability]
      omega

theorem of_convertForfeitureReserve (h : convertForfeitureReserve l marketId asset = .ok l') :
    Changes l l' marketId asset 0 0 := by
  unfold convertForfeitureReserve at h
  dsimp only at h
  split at h
  · obtain rfl := Except.ok.inj h
    exact Changes.refl
  · simp only [bind_eq_ok, pure_eq_ok, Except.ok.injEq] at h
    obtain ⟨buckets, hcredit, rfl⟩ := h
    refine (Changes.put (fun hs => ⟨?_, ?_⟩) ?_ rfl).emit
    · dsimp only
      rw [Sums.credit_of_ne hcredit (by decide), hs.creator]
    · dsimp only
      rw [Sums.credit_of_ne hcredit (by decide), hs.holder]
    · have hsum := Sums.sum_credit hcredit
      simp only [Account.liability]
      omega

/-- **A debit** of a bucket that is not divided further. -/
theorem of_debitLiability {bucket : Bucket} (hcreator : bucket ≠ .creatorRevenue)
    (hholder : bucket ≠ .holderReward)
    (h : debitLiability l marketId asset bucket amount = .ok l') :
    Changes l l' marketId asset 0 amount := by
  simp only [debitLiability, bind_eq_ok, usub_eq_ok, pure_eq_ok, Except.ok.injEq] at h
  obtain ⟨buckets, hdebit, _, ⟨hle, rfl⟩, rfl⟩ := h
  refine Changes.put (fun hs => ⟨?_, ?_⟩) ?_ (by omega)
  · dsimp only
    rw [Sums.debit_of_ne hdebit hcreator.symm, hs.creator]
  · dsimp only
    rw [Sums.debit_of_ne hdebit hholder.symm, hs.holder]
  · have hsum := Sums.sum_debit hdebit
    simp only [Account.liability]
    omega

/-- **The claim of an epoch**: all of it, off the epoch and off the bucket. -/
theorem of_claimCreator
    (h : debitLiability (deleteCreatorLiability l marketId asset e) marketId asset .creatorRevenue
      ((l.account marketId asset).creatorLiabilities e) = .ok l') :
    Changes l l' marketId asset 0 ((l.account marketId asset).creatorLiabilities e) := by
  simp only [debitLiability, deleteCreatorLiability, Ledger.account_put_self,
    Ledger.totalLiabilities_put_self, bind_eq_ok, usub_eq_ok, pure_eq_ok, Except.ok.injEq] at h
  obtain ⟨buckets, hdebit, _, ⟨hle, rfl⟩, rfl⟩ := h
  rw [Ledger.put_put]
  refine Changes.put (fun hs => ⟨?_, ?_⟩) ?_ (by omega)
  · dsimp only
    have hself := Sums.debit_self hdebit
    have hsum := Sums.sum_update (l.account marketId asset).creatorLiabilities e 0
    have hcreator := hs.creator
    omega
  · dsimp only
    rw [Sums.debit_of_ne hdebit (by decide), hs.holder]
  · have hsum := Sums.sum_debit hdebit
    simp only [Account.liability]
    omega

theorem of_debitHolderFee (h : debitHolderFee l marketId asset e amount = .ok l') :
    Changes l l' marketId asset 0 amount := by
  simp only [debitHolderFee, debitLiability, Ledger.account_put_self,
    Ledger.totalLiabilities_put_self, bind_eq_ok, usub_eq_ok, pure_eq_ok, Except.ok.injEq] at h
  obtain ⟨holders, hholders, buckets, hdebit, _, ⟨hle, rfl⟩, rfl⟩ := h
  rw [Ledger.put_put]
  refine Changes.put (fun hs => ⟨?_, ?_⟩) ?_ (by omega)
  · dsimp only
    rw [Sums.debit_of_ne hdebit (by decide), hs.creator]
  · dsimp only
    have hself := Sums.debit_self hdebit
    have hsum := Sums.sum_debit hholders
    have hholder := hs.holder
    omega
  · have hsum := Sums.sum_debit hdebit
    simp only [Account.liability]
    omega

/-- **A payment** leaves the vault covered. -/
theorem of_payFeeAsset {beneficiary : Address}
    (h : payFeeAsset self b l asset beneficiary amount = .ok b') :
    b.move asset self beneficiary amount = some b' ∧ l.totalLiabilities asset ≤ b' asset self := by
  simp only [payFeeAsset, requireAssetSolvent, bind_eq_ok, orRevert_eq_ok, revertIf_eq_ok,
    requireSolvent_eq_ok, pure_eq_ok, Except.ok.injEq] at h
  obtain ⟨_, hmove, -, -, -, hcovered, rfl⟩ := h
  exact ⟨hmove, hcovered⟩

theorem of_burnMemeFees {beneficiary : Address} {role : ℕ}
    (h : burnMemeFees self b l marketId asset beneficiary role e amount = .ok (l', b')) :
    b.burn asset self amount = some b' ∧ l.totalLiabilities asset ≤ b' asset self ∧
      l' = l.emit (.memeFeesBurned marketId beneficiary role e asset amount) := by
  simp only [burnMemeFees, requireAssetSolvent, bind_eq_ok, orRevert_eq_ok, revertIf_eq_ok,
    requireSolvent_eq_ok, pure_eq_ok, Except.ok.injEq, Prod.mk.injEq] at h
  obtain ⟨_, hburn, -, -, -, hcovered, rfl, rfl⟩ := h
  exact ⟨hburn, hcovered, rfl⟩

/-! ### The invariant -/

/-- **The ledger is sound**: its accounts are, and the total of an asset is what is owed in
it over all markets. -/
structure LedgerSound (l : Ledger) : Prop where
  account : ∀ id a, (l.account id a).Sound
  total : ∀ a, l.totalLiabilities a = ∑ id, (l.account id a).liability

theorem ledgerSound_empty : LedgerSound Ledger.empty where
  account _ _ := Account.sound_empty
  total _ := (Finset.sum_eq_zero fun _ _ => Account.liability_empty).symm

/-- **A ledger stays sound** when one account changes. -/
theorem LedgerSound.of_changes (h : LedgerSound l) (hl : Changes l l' marketId asset n m) :
    LedgerSound l' where
  account id a := by
    by_cases hne : id ≠ marketId ∨ a ≠ asset
    · rw [hl.account_other id a hne]
      exact h.account id a
    · obtain ⟨rfl, rfl⟩ : id = marketId ∧ a = asset := by
        simpa only [not_or, not_not] using hne
      exact hl.sound (h.account id a)
  total a := by
    have hbefore := h.total a
    rcases eq_or_ne a asset with rfl | hne
    · have hsum := Sums.sum_of_eq_off (fun id => (l.account id a).liability)
        (fun id => (l'.account id a).liability)
        fun id (hid : id ≠ marketId) => by rw [hl.account_other id a (Or.inl hid)]
      have htotal := hl.total
      have hliability := hl.liability
      omega
    · rw [hl.total_other a hne, hbefore]
      exact Finset.sum_congr rfl fun id _ => by rw [hl.account_other id a (Or.inr hne)]

end ProtocolFeeVault

end TickerGarden
