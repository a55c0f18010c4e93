import TickerGarden.Fees.HolderFunding
import TickerGarden.Fees.Conservation
import TickerGarden.Lib.Batch

/-!
# A batch of fundings

What `fundHolderRewardsBatch` leaves is what its items leave, performed one by one as calls of
their own, up to the position it returns. Two facts carry this. While a child runs, the lock is
closed, and then no entry of the vault goes through (`TickerGarden.ProtocolFeeVault.Funding.not_runEntry`):
whatever the strangers do, the vault's storage stays as the child has left it. And what a child
does to the vault, `TickerGarden.ProtocolFeeVault.Funding.Funded`, is a preorder: a liability is
left or cleared, the approvals are taken back, and what was covered is covered.

The solvency is that of the assets that move as assets should. No vault can answer for a token
that takes back what it has given; but such a token can be among the assets of a batch, and the
others are as safe as before.
-/

namespace TickerGarden

open Checked Function

namespace ProtocolFeeVault

namespace Funding

variable {G E : Type} {calls : GaugeCalls G} {platform : Platform} {v : Immutables}
  {encodeRevert : Revert → List (BitVec 8)} {exact : Address → Prop} {ext : External G E}
  {x y z : Chain G E}

/-! ### The lock -/

/-- The lock is open, and no credit is pending. -/
def Chain.Open (x : Chain G E) : Prop := x.vault.session = Session.start

/-- The lock is closed by an operation that stands alone. -/
def Chain.Locked (x : Chain G E) : Prop :=
  x.vault.session = { Session.start with creditState := .finalizing }

section Lock

theorem requireCreditIdle_eq_ok {s : State} {operationId : Bytes32} {u : Unit} :
    requireCreditIdle s operationId = .ok u ↔ s.session.creditState = .idle := by
  rw [requireCreditIdle, revertIf_eq_ok, not_not]

theorem Chain.Locked.not_idle (h : x.Locked) : x.vault.session.creditState ≠ .idle := by
  rw [h]
  exact fun hidle => nomatch hidle

theorem enter_eq_ok {operationId : Bytes32} :
    x.enter operationId = .ok y ↔ x.vault.session.creditState = .idle ∧
      y = x.withVault (setCreditState x.vault .finalizing) := by
  simp only [Chain.enter, bind_eq_ok, requireCreditIdle_eq_ok, pure_eq_ok, Except.ok.injEq]
  constructor
  · rintro ⟨_, hidle, heq⟩
    exact ⟨hidle, heq.symm⟩
  · rintro ⟨hidle, heq⟩
    exact ⟨(), hidle, heq.symm⟩

/-- **While the lock is closed, no entry goes through.** -/
theorem not_runEntry (hlocked : x.Locked) {caller : Address} (hcaller : caller ≠ 0) (e : Entry G E) :
    runEntry calls platform v encodeRevert caller x e ≠ .ok y := by
  intro h
  have hstate : x.vault.session.creditState = .finalizing := by rw [hlocked]
  cases e with
  | beginV4Credit =>
    simp only [runEntry, beginV4Credit, bind_eq_ok, revertIf_eq_ok, not_or, not_not] at h
    obtain ⟨_, ⟨_, ⟨hidle, -⟩, -⟩, -⟩ := h
    exact hlocked.not_idle hidle
  | finalizeV4Credit =>
    simp only [runEntry, finalizeV4Credit, bind_eq_ok, revertIf_eq_ok, not_or, not_not] at h
    obtain ⟨_, ⟨_, ⟨hpending, -⟩, -⟩, -⟩ := h
    rw [hstate] at hpending
    cases hpending
  | receive =>
    simp only [runEntry, receiveNative, bind_eq_ok, revertIf_eq_ok, not_or, not_not] at h
    obtain ⟨_, ⟨hpending, -⟩, -⟩ := h
    rw [hstate] at hpending
    cases hpending
  | beginCurveCredit =>
    simp only [runEntry, beginCurveCredit, requireStandaloneCredit, bind_eq_ok,
      requireCreditIdle_eq_ok] at h
    obtain ⟨_, ⟨_, ⟨-, -, -, -, hidle⟩, -⟩, -⟩ := h
    exact hlocked.not_idle hidle
  | finalizeCurveCredit =>
    -- it does not look at the lock, but at who has begun the credit
    simp only [runEntry, finalizeCurveCredit, bind_eq_ok, revertIf_eq_ok, not_or, not_not] at h
    obtain ⟨_, ⟨_, ⟨-, -, -, -, -, -, -, hsource⟩, -⟩, -⟩ := h
    rw [hlocked] at hsource
    exact hcaller hsource.symm
  | coverAssetDeficit =>
    simp only [runEntry, coverAssetDeficit, bind_eq_ok, requireCreditIdle_eq_ok] at h
    obtain ⟨_, ⟨_, -, _, hidle, -⟩, -⟩ := h
    exact hlocked.not_idle hidle
  | claimPlatform =>
    simp only [runEntry, claimPlatform, bind_eq_ok, requireCreditIdle_eq_ok] at h
    obtain ⟨_, ⟨_, hidle, -⟩, -⟩ := h
    exact hlocked.not_idle hidle
  | recordForfeiture =>
    simp only [runEntry, recordForfeiture, bind_eq_ok, requireCreditIdle_eq_ok] at h
    obtain ⟨_, ⟨_, hidle, -⟩, -⟩ := h
    exact hlocked.not_idle hidle
  | claimUserRewards =>
    simp only [runEntry, claimUserRewards, bind_eq_ok, requireCreditIdle_eq_ok] at h
    obtain ⟨_, ⟨-, -, -, -, _, hidle, -⟩, -⟩ := h
    exact hlocked.not_idle hidle
  | executePlatformTreasury =>
    simp only [runEntry, bind_eq_ok, requireCreditIdle_eq_ok] at h
    obtain ⟨_, hidle, -⟩ := h
    exact hlocked.not_idle hidle
  | fundHolderRewards =>
    simp only [runEntry, fundHolderRewards, bind_eq_ok, enter_eq_ok] at h
    obtain ⟨_, ⟨_, ⟨hidle, -⟩, -⟩, -⟩ := h
    exact hlocked.not_idle hidle
  | fundHolderMemeRewards =>
    simp only [runEntry, fundHolderMemeRewards, bind_eq_ok, enter_eq_ok] at h
    obtain ⟨_, ⟨_, ⟨hidle, -⟩, -⟩, -⟩ := h
    exact hlocked.not_idle hidle
  | fundHolderRewardsBatch =>
    simp only [runEntry, fundHolderRewardsBatch, bind_eq_ok, requireCreditIdle_eq_ok] at h
    obtain ⟨_, ⟨-, -, _, hidle, -⟩, -⟩ := h
    exact hlocked.not_idle hidle

end Lock

/-! ### Moves of the rest of the world -/

namespace Moves

theorem refl (x : Chain G E) : Moves v exact x x :=
  ⟨rfl, fun _ _ _ => le_rfl, fun _ _ _ => le_rfl⟩

theorem trans (h : Moves v exact x y) (h' : Moves v exact y z) : Moves v exact x z where
  vault := h'.vault.trans h.vault
  allowance_le asset hexact spender :=
    (h'.allowance_le asset hexact spender).trans (h.allowance_le asset hexact spender)
  balance_le asset hexact hzero := by
    have hzero' : ∀ spender, y.allowance asset spender = 0 := fun spender =>
      Nat.le_zero.mp (hzero spender ▸ h.allowance_le asset hexact spender)
    exact (h.balance_le asset hexact hzero).trans (h'.balance_le asset hexact hzero')

theorem locked (h : Moves v exact x y) (hx : x.Locked) : y.Locked := by
  rw [Chain.Locked, h.vault]
  exact hx

end Moves

/-- **Behind the closed lock strangers only move the rest of the world.** -/
theorem Foreign.toMoves (h : Foreign calls platform v encodeRevert exact x y) (hx : x.Locked) :
    Moves v exact x y := by
  induction h with
  | refl => exact Moves.refl _
  | moves _ hmove ih => exact ih.trans hmove
  | call caller e hcaller _ hrun ih => exact absurd hrun (not_runEntry (ih.locked hx) hcaller e)

/-! ### What a child does to the vault -/

/-- Nobody is approved for an asset. -/
def Chain.Unapproved (x : Chain G E) (asset : Address) : Prop :=
  ∀ spender, x.allowance asset spender = 0

/-- An asset is covered: the vault holds what it owes. -/
def Chain.Covered (v : Immutables) (x : Chain G E) (asset : Address) : Prop :=
  x.vault.ledger.totalLiabilities asset ≤ x.around.balances asset v.self

/-- What the holders are owed. -/
def Chain.holderLiability (x : Chain G E) (id : Bytes32) (asset : Address) (e : Epoch) : ℕ :=
  (x.vault.ledger.account id asset).holderLiability e

/-- **A part of a funding**: only the ledger of the vault changes, the holders' liabilities are
left or cleared, and the exact assets stay unapproved and covered. -/
structure Funded (v : Immutables) (exact : Address → Prop) (x y : Chain G E) : Prop where
  vault : ∃ l, y.vault = { x.vault with ledger := l }
  cleared : ∀ id asset e, y.holderLiability id asset e = x.holderLiability id asset e ∨
    y.holderLiability id asset e = 0
  unapproved : ∀ asset, exact asset → x.Unapproved asset → y.Unapproved asset
  covered : ∀ asset, exact asset → x.Unapproved asset → x.Covered v asset → y.Covered v asset

namespace Funded

theorem refl (x : Chain G E) : Funded v exact x x :=
  ⟨⟨x.vault.ledger, rfl⟩, fun _ _ _ => Or.inl rfl, fun _ _ => id, fun _ _ _ => id⟩

theorem trans (h : Funded v exact x y) (h' : Funded v exact y z) : Funded v exact x z where
  vault := by
    obtain ⟨l, hl⟩ := h.vault
    obtain ⟨l', hl'⟩ := h'.vault
    exact ⟨l', by rw [hl', hl]⟩
  cleared id asset e := by
    rcases h'.cleared id asset e with hsame | hzero
    · rw [hsame]
      exact h.cleared id asset e
    · exact Or.inr hzero
  unapproved asset hexact hx := h'.unapproved asset hexact (h.unapproved asset hexact hx)
  covered asset hexact hx hcovered :=
    h'.covered asset hexact (h.unapproved asset hexact hx) (h.covered asset hexact hx hcovered)

theorem locked (h : Funded v exact x y) (hx : x.Locked) : y.Locked := by
  obtain ⟨l, hl⟩ := h.vault
  rw [Chain.Locked, hl]
  exact hx

/-- The log of the ledger does not count. -/
theorem emit (h : Funded v exact x y) (e : Event) :
    Funded v exact x (y.withLedger (y.vault.ledger.emit e)) where
  vault := by
    obtain ⟨l, hl⟩ := h.vault
    exact ⟨y.vault.ledger.emit e, by rw [Chain.withLedger, Chain.withVault, hl]⟩
  cleared := h.cleared
  unapproved := h.unapproved
  covered := h.covered

end Funded

/-! #### The pieces of a transfer -/

theorem Chain.spend_zero (self asset : Address) : x.spend self asset 0 = x := by
  have hsame : x.around.balances.set asset self (x.around.balances asset self - 0)
      = x.around.balances := by
    funext a owner
    rw [Nat.sub_zero, Balances.set]
    split_ifs with h
    · rw [h.1, h.2]
    · rfl
  rw [Chain.spend, hsame]
  rfl

theorem Chain.balances_spend_of_ne {self asset a : Address} {n : ℕ} (h : a ≠ asset) :
    (x.spend self asset n).around.balances a self = x.around.balances a self := by
  simp [Chain.spend, Surroundings.withBalances, Balances.set, h]

theorem Chain.unapproved_approve_of_ne {asset spender a : Address} {n : ℕ} (h : a ≠ asset)
    (hx : x.Unapproved a) : (x.approve asset spender n).Unapproved a := by
  intro s
  rw [Chain.approve]
  dsimp only
  rw [update_of_ne h]
  exact hx s

/-- **A debit of the holders clears one liability.** -/
theorem holderLiability_debitHolderFee {l l' : Ledger} {marketId : Bytes32} {asset : Address}
    {e : Epoch} {n : ℕ} (hn : (l.account marketId asset).holderLiability e = n)
    (h : debitHolderFee l marketId asset e n = .ok l') (id : Bytes32) (a : Address) (e' : Epoch) :
    (l'.account id a).holderLiability e' = (l.account id a).holderLiability e' ∨
      (l'.account id a).holderLiability e' = 0 := by
  by_cases hother : id ≠ marketId ∨ a ≠ asset
  · exact Or.inl (by rw [(of_debitHolderFee h).account_other id a hother])
  · rw [not_or, not_not, not_not] at hother
    obtain ⟨rfl, rfl⟩ := hother
    simp only [debitHolderFee, debitLiability, Ledger.account_put_self, bind_eq_ok, usub_eq_ok,
      pure_eq_ok, Except.ok.injEq] at h
    obtain ⟨holders, hholders, _, -, _, -, rfl⟩ := h
    rw [Ledger.account_put_self]
    rcases eq_or_ne e' e with rfl | hne
    · have hself := Sums.debit_self hholders
      exact Or.inr (by dsimp only; omega)
    · exact Or.inl (Sums.debit_of_ne hholders hne)

/-- **What is left by the calls of a transfer**: the vault is the same, the exact assets are
unapproved again, and only the transferred asset has gone down. -/
structure Transferred (v : Immutables) (exact : Address → Prop) (asset : Address)
    (x y : Chain G E) : Prop where
  vault : y.vault = x.vault
  unapproved : ∀ a, exact a → x.Unapproved a → y.Unapproved a
  balance_le : ∀ a, exact a → a ≠ asset → x.Unapproved a →
    x.around.balances a v.self ≤ y.around.balances a v.self

theorem Moves.unapproved (h : Moves v exact x y) {a : Address} (ha : exact a)
    (hx : x.Unapproved a) : y.Unapproved a := fun spender =>
  Nat.le_zero.mp (hx spender ▸ h.allowance_le a ha spender)

/-- What is sent along leaves the vault. -/
theorem Moves.transferred {asset : Address} {n : ℕ} (h : Moves v exact (x.spend v.self asset n) y) :
    Transferred v exact asset x y where
  vault := h.vault
  unapproved a ha hx := h.unapproved ha hx
  balance_le a ha hne hx := by
    have hle := h.balance_le a ha hx
    rwa [Chain.balances_spend_of_ne hne] at hle

/-- What is approved may be taken, and the approval is taken back. -/
theorem Moves.transferred_of_approve {x₁ x₂ : Chain G E} {asset distributor : Address} {n : ℕ}
    (h₁ : Moves v exact (x.approve asset distributor n) x₁) (h₂ : Moves v exact x₁ x₂)
    (h₃ : Moves v exact (x₂.approve asset distributor 0) y) : Transferred v exact asset x y where
  vault := h₃.vault.trans (h₂.vault.trans h₁.vault)
  unapproved a ha hx := by
    rcases eq_or_ne a asset with rfl | hne
    · refine h₃.unapproved ha fun spender => ?_
      rw [Chain.approve]
      dsimp only
      rw [update_self]
      rcases eq_or_ne spender distributor with rfl | hspender
      · exact update_self ..
      · -- another spender had no approval, and nobody has given it one
        have hle := (h₂.allowance_le a ha spender).trans (h₁.allowance_le a ha spender)
        rw [Chain.approve] at hle
        dsimp only at hle
        rw [update_self, update_of_ne hspender, hx spender] at hle
        rw [update_of_ne hspender]
        exact Nat.le_zero.mp hle
    · exact h₃.unapproved ha (Chain.unapproved_approve_of_ne hne
        (h₂.unapproved ha (h₁.unapproved ha (Chain.unapproved_approve_of_ne hne hx))))
  balance_le a ha hne hx := by
    have hx₁ := h₁.unapproved ha (Chain.unapproved_approve_of_ne (n := n) hne hx)
    have hx₂ := h₂.unapproved ha hx₁
    have hfirst := h₁.balance_le a ha (Chain.unapproved_approve_of_ne hne hx)
    exact (hfirst.trans (h₂.balance_le a ha hx₁)).trans
      (h₃.balance_le a ha (Chain.unapproved_approve_of_ne hne hx₂))

/-- **A debit and its transfer** are a part of a funding, if the asset is covered after them. -/
theorem Funded.of_transferred {l : Ledger} {marketId : Bytes32} {asset : Address} {e : Epoch} {n : ℕ}
    (hn : x.holderLiability marketId asset e = n)
    (hdebit : debitHolderFee x.vault.ledger marketId asset e n = .ok l)
    (h : Transferred v exact asset (x.withLedger l) y)
    (hcovered : x.Covered v asset → y.Covered v asset) : Funded v exact x y where
  vault := ⟨l, h.vault⟩
  cleared id a e' := by
    have hcleared := holderLiability_debitHolderFee hn hdebit id a e'
    rw [Chain.holderLiability, h.vault]
    exact hcleared
  unapproved a ha hx := h.unapproved a ha hx
  covered a ha hx hcov := by
    rcases eq_or_ne a asset with rfl | hne
    · exact hcovered hcov
    · have htotal := (of_debitHolderFee hdebit).total_other a hne
      have hvault : y.vault.ledger = l := congrArg State.ledger h.vault
      rw [Chain.Covered, hvault, htotal]
      exact hcov.trans (h.balance_le a ha hne hx)

/-! ### The functions of a child -/

section Child

variable {marketId : Bytes32} {asset token quote distributor beneficiary : Address} {e : Epoch}
  {n m role : ℕ} {u : Unit} {config : MarketConfig}

theorem of_assetBalance (h : assetBalance v ext x asset = .ok n) :
    n = x.around.balances asset v.self := by
  simp only [assetBalance, bind_eq_ok, pure_eq_ok, Except.ok.injEq] at h
  obtain ⟨_, -, rfl⟩ := h
  rfl

theorem covered_of_requireAssetSolvent (h : requireAssetSolvent v ext x asset = .ok u) :
    x.Covered v asset := by
  simp only [requireAssetSolvent, bind_eq_ok, revertIf_eq_ok, not_lt] at h
  obtain ⟨_, hbalance, hcovered⟩ := h
  rwa [of_assetBalance hbalance] at hcovered

theorem of_requirePaid {err : FeeVaultError} (h : requirePaid v ext x asset n m err = .ok u) :
    x.around.balances asset v.self + m = n ∧ m ≤ maxUint256 := by
  simp only [requirePaid, bind_eq_ok, uadd_eq_ok, revertIf_eq_ok, not_not] at h
  obtain ⟨_, hbalance, _, ⟨hle, rfl⟩, hpaid⟩ := h
  rw [of_assetBalance hbalance] at hpaid hle
  exact ⟨hpaid, (Nat.le_add_left _ _).trans hle⟩

/-! #### Amounts are words -/

theorem le_of_settleHolderMemeBurn
    (h : settleHolderMemeBurn v ext x marketId config = .ok (y, n)) : n ≤ maxUint256 := by
  unfold settleHolderMemeBurn at h
  dsimp only at h
  split at h
  · obtain ⟨-, rfl⟩ := Prod.mk.inj (Except.ok.inj h)
    exact Nat.zero_le _
  · simp only [burnMemeFees, bind_eq_ok, pure_eq_ok, Except.ok.injEq, Prod.mk.injEq] at h
    obtain ⟨-, -, _, -, _, ⟨_, -, _, -, _, -, _, hpaid, -⟩, -, rfl⟩ := h
    exact (of_requirePaid hpaid).2

theorem le_of_fundHolderQuote (h : fundHolderQuote v ext x marketId e quote distributor n = .ok y) :
    n ≤ maxUint256 := by
  unfold fundHolderQuote at h
  split at h
  · next hzero => exact hzero ▸ Nat.zero_le _
  · simp only [bind_eq_ok] at h
    obtain ⟨-, -, _, -, _, -, _, -, _, -, _, -, _, hpaid, -⟩ := h
    exact (of_requirePaid hpaid).2

theorem le_of_fundHolderMeme (h : fundHolderMeme v ext x marketId token distributor n = .ok y) :
    n ≤ maxUint256 := by
  unfold fundHolderMeme at h
  split at h
  · next hzero => exact hzero ▸ Nat.zero_le _
  · simp only [bind_eq_ok] at h
    obtain ⟨-, -, _, -, _, -, _, -, _, -, _, -, _, hpaid, -⟩ := h
    exact (of_requirePaid hpaid).2

theorem le_of_fundItem {i : ℕ} (h : fundItem v ext x marketId i = .ok (y, n)) : n ≤ maxUint256 := by
  unfold fundItem at h
  split at h
  · simp only [fundHolderRewards, bind_eq_ok] at h
    obtain ⟨_, -, _, -, _, -, _, -, _, hfund, h⟩ := h
    split at h <;> simp only [bind_eq_ok, pure_eq_ok, Except.ok.injEq, Prod.mk.injEq] at h
    · obtain ⟨-, -, -, rfl⟩ := h
      exact le_of_fundHolderQuote hfund
    · obtain ⟨-, rfl⟩ := h
      exact le_of_fundHolderQuote hfund
  · simp only [fundHolderMemeRewards, bind_eq_ok] at h
    obtain ⟨_, -, _, -, _, -, h⟩ := h
    split at h <;> simp only [bind_eq_ok, pure_eq_ok, Except.ok.injEq, Prod.mk.injEq] at h
    · obtain ⟨_, hburn, -, rfl⟩ := h
      exact le_of_settleHolderMemeBurn hburn
    · obtain ⟨_, hfund, -, rfl⟩ := h
      exact le_of_fundHolderMeme hfund

theorem idle_of_fundHolderRewards (h : fundHolderRewards v ext x marketId e = .ok (y, n)) :
    x.vault.session.creditState = .idle := by
  simp only [fundHolderRewards, bind_eq_ok, enter_eq_ok] at h
  obtain ⟨_, ⟨hidle, -⟩, -⟩ := h
  exact hidle

theorem idle_of_fundHolderMemeRewards (h : fundHolderMemeRewards v ext x marketId = .ok (y, n)) :
    x.vault.session.creditState = .idle := by
  simp only [fundHolderMemeRewards, bind_eq_ok, enter_eq_ok] at h
  obtain ⟨_, ⟨hidle, -⟩, -⟩ := h
  exact hidle

/-! #### What the functions do -/

variable (hlawful : ext.Lawful calls platform v encodeRevert exact)
include hlawful

/-- **The burning of what the holders are owed** in the market's token. -/
theorem funded_of_settleHolderMemeBurn (hx : x.Locked)
    (h : settleHolderMemeBurn v ext x marketId config = .ok (y, n)) : Funded v exact x y := by
  unfold settleHolderMemeBurn at h
  dsimp only at h
  split at h
  · obtain ⟨rfl, -⟩ := Prod.mk.inj (Except.ok.inj h)
    exact Funded.refl _
  · simp only [burnMemeFees, bind_eq_ok, pure_eq_ok, Except.ok.injEq, Prod.mk.injEq] at h
    obtain ⟨-, -, l, hdebit, _, ⟨_, -, _, -, z, hburn, _, -, _, -, _, -, _, -, _, hsolvent, rfl⟩,
      rfl, -⟩ := h
    have hlocked : ((x.withLedger l).spend v.self config.memeToken
        ((x.vault.ledger.account marketId config.memeToken).holderLiability 1)).Locked := hx
    have htransfer := ((hlawful.burn hburn).toMoves hlocked).transferred
    have hcovered := covered_of_requireAssetSolvent hsolvent
    exact (Funded.of_transferred rfl hdebit htransfer fun _ => hcovered).emit _

omit hlawful in
/-- After a payment in full an asset is as covered as before. -/
theorem covered_of_paid {l : Ledger}
    (hdebit : debitHolderFee x.vault.ledger marketId asset e n = .ok l)
    (hledger : y.vault.ledger = l)
    (hpaid : y.around.balances asset v.self + n = x.around.balances asset v.self)
    (hx : x.Covered v asset) : y.Covered v asset := by
  have htotal := (of_debitHolderFee hdebit).total
  rw [Chain.Covered] at hx ⊢
  rw [hledger]
  omega

/-- The calls of `fundHolderRewards`: in the native currency the amount is sent along, in a token
it is approved. -/
theorem transferred_of_fundQuoteRewards {x₁ x₂ : Chain G E} (hx : x.Locked)
    (h₁ : approveQuote ext x quote distributor n = .ok x₁)
    (h₂ : ext.fundQuoteRewards distributor (if quote = 0 then n else 0) marketId e n x₁ = .ok x₂)
    (h₃ : approveQuote ext x₂ quote distributor 0 = .ok y) : Transferred v exact quote x y := by
  unfold approveQuote at h₁ h₃
  by_cases hnative : quote = 0
  · rw [if_neg (not_not.mpr hnative), Except.ok.injEq] at h₁ h₃
    rw [if_pos hnative] at h₂
    subst h₁ h₃ hnative
    have hlocked : (x.spend v.self 0 n).Locked := hx
    exact ((hlawful.fundQuoteRewards h₂).toMoves hlocked).transferred
  · rw [if_pos hnative] at h₁ h₃
    rw [if_neg hnative] at h₂
    have hlocked : (x.approve quote distributor n).Locked := hx
    have happroved := (hlawful.forceApprove h₁).toMoves hlocked
    have hfunded := hlawful.fundQuoteRewards h₂
    rw [Chain.spend_zero] at hfunded
    have hmoved := hfunded.toMoves (happroved.locked hlocked)
    have hlocked' : (x₂.approve quote distributor 0).Locked := hmoved.locked (happroved.locked hlocked)
    exact happroved.transferred_of_approve hmoved ((hlawful.forceApprove h₃).toMoves hlocked')

/-- **The transfer to the distributor**, in the quote. -/
theorem funded_of_fundHolderQuote (hx : x.Locked) (hn : x.holderLiability marketId quote e = n)
    (h : fundHolderQuote v ext x marketId e quote distributor n = .ok y) : Funded v exact x y := by
  unfold fundHolderQuote at h
  split at h
  · obtain rfl := Except.ok.inj h
    exact Funded.refl _
  · simp only [bind_eq_ok, pure_eq_ok, Except.ok.injEq] at h
    obtain ⟨-, -, _, hbefore, l, hdebit, x₁, h₁, x₂, h₂, x₃, h₃, _, hpaid, -, -, rfl⟩ := h
    have hlocked : (x.withLedger l).Locked := hx
    have htransfer := transferred_of_fundQuoteRewards hlawful hlocked h₁ h₂ h₃
    obtain ⟨hpaid, -⟩ := of_requirePaid hpaid
    rw [of_assetBalance hbefore] at hpaid
    exact Funded.of_transferred hn hdebit htransfer
      (covered_of_paid hdebit (congrArg State.ledger htransfer.vault) hpaid)

/-- **The transfer to the distributor**, in the market's token. -/
theorem funded_of_fundHolderMeme (hx : x.Locked) (hn : x.holderLiability marketId token 1 = n)
    (h : fundHolderMeme v ext x marketId token distributor n = .ok y) : Funded v exact x y := by
  unfold fundHolderMeme at h
  split at h
  · obtain rfl := Except.ok.inj h
    exact Funded.refl _
  · simp only [bind_eq_ok, pure_eq_ok, Except.ok.injEq] at h
    obtain ⟨-, -, _, hbefore, l, hdebit, x₁, h₁, x₂, h₂, x₃, h₃, _, hpaid, rfl⟩ := h
    have hlocked : ((x.withLedger l).approve token distributor n).Locked := hx
    have happroved := (hlawful.forceApprove h₁).toMoves hlocked
    have hmoved := (hlawful.fundMemeFees h₂).toMoves (happroved.locked hlocked)
    have hlocked' : (x₂.approve token distributor 0).Locked := hmoved.locked (happroved.locked hlocked)
    have htransfer :=
      happroved.transferred_of_approve hmoved ((hlawful.forceApprove h₃).toMoves hlocked')
    obtain ⟨hpaid, -⟩ := of_requirePaid hpaid
    rw [of_assetBalance hbefore] at hpaid
    exact Funded.of_transferred hn hdebit htransfer
      (covered_of_paid hdebit (congrArg State.ledger htransfer.vault) hpaid)

omit hlawful in
/-- What happens behind the lock, seen from outside. -/
theorem Funded.exit (hx : x.Open)
    (h : Funded v exact (x.withVault (setCreditState x.vault .finalizing)) y) :
    Funded v exact x y.exit where
  vault := by
    obtain ⟨l, hl⟩ := h.vault
    refine ⟨l, ?_⟩
    have hsession : ({ x.vault.session with creditState := .idle } : Session) = x.vault.session := by
      rw [hx]
      rfl
    change setCreditState y.vault .idle = _
    rw [hl]
    change ({ x.vault with
      ledger := l, session := { x.vault.session with creditState := .idle } } : State) = _
    rw [hsession]
  cleared := h.cleared
  unapproved := h.unapproved
  covered := h.covered

omit hlawful in
theorem Funded.open (h : Funded v exact x y) (hx : x.Open) : y.Open := by
  obtain ⟨l, hl⟩ := h.vault
  rw [Chain.Open, hl]
  exact hx

omit hlawful in
theorem locked_enter (hx : x.Open) :
    (x.withVault (setCreditState x.vault .finalizing)).Locked := by
  rw [Chain.Locked, Chain.withVault, setCreditState, hx]

/-- **The funding in the quote.** -/
theorem funded_of_fundHolderRewards (hx : x.Open)
    (h : fundHolderRewards v ext x marketId e = .ok (y, n)) : Funded v exact x y := by
  simp only [fundHolderRewards, bind_eq_ok, enter_eq_ok] at h
  obtain ⟨_, ⟨-, rfl⟩, _, -, distributor, -, ⟨x₁, _⟩, hburn, x₂, hfund, h⟩ := h
  have hlocked := locked_enter hx
  have hburned := funded_of_settleHolderMemeBurn hlawful hlocked hburn
  have hfunded := hburned.trans
    (funded_of_fundHolderQuote hlawful (hburned.locked hlocked) rfl hfund)
  split at h <;> simp only [bind_eq_ok, pure_eq_ok, Except.ok.injEq, Prod.mk.injEq] at h
  · obtain ⟨-, -, rfl, -⟩ := h
    exact hfunded.exit hx
  · obtain ⟨rfl, -⟩ := h
    exact hfunded.exit hx

/-- **The funding in the market's token.** -/
theorem funded_of_fundHolderMemeRewards (hx : x.Open)
    (h : fundHolderMemeRewards v ext x marketId = .ok (y, n)) : Funded v exact x y := by
  simp only [fundHolderMemeRewards, bind_eq_ok, enter_eq_ok] at h
  obtain ⟨_, ⟨-, rfl⟩, _, -, distributor, -, h⟩ := h
  have hlocked := locked_enter hx
  split at h <;> simp only [bind_eq_ok, pure_eq_ok, Except.ok.injEq, Prod.mk.injEq] at h
  · obtain ⟨⟨x₁, _⟩, hburn, rfl, -⟩ := h
    exact (funded_of_settleHolderMemeBurn hlawful hlocked hburn).exit hx
  · obtain ⟨x₁, hfund, rfl, -⟩ := h
    exact (funded_of_fundHolderMeme hlawful hlocked rfl hfund).exit hx

theorem funded_of_fundItem {i : ℕ} (hx : x.Open) (h : fundItem v ext x marketId i = .ok (y, n)) :
    Funded v exact x y := by
  unfold fundItem at h
  split at h
  · exact funded_of_fundHolderRewards hlawful hx h
  · exact funded_of_fundHolderMemeRewards hlawful hx h

end Child

/-! ### The items of a batch -/

/-- An asset of a market, by the position of the market in the list. -/
structure Item where
  index : ℕ
  marketId : Bytes32
  asset : ℕ
deriving DecidableEq

namespace Item

/-- The call that an item is. -/
def entry (item : Item) (ext : External G E) : Entry G E :=
  if item.asset = 1 then .fundHolderRewards ext item.marketId 1
  else .fundHolderMemeRewards ext item.marketId

/-- The order of a batch: market by market, the quote first. -/
def Before (a b : Item) : Prop := a.index < b.index ∨ a.index = b.index ∧ a.asset < b.asset

instance : DecidableRel Before := fun a b =>
  inferInstanceAs (Decidable (a.index < b.index ∨ a.index = b.index ∧ a.asset < b.asset))

/-- The items of a market. -/
def ofMarket (assets : BitVec 8) (todo : List ℕ) (i : ℕ) (marketId : Bytes32) : List Item :=
  (todo.filter (selected assets)).map fun asset => ⟨i, marketId, asset⟩

/-- The items of the markets in a list, the first of which has a position. -/
def ofMarkets (assets : BitVec 8) : ℕ → List Bytes32 → List Item
  | _, [] => []
  | i, marketId :: todo => ofMarket assets [1, 2] i marketId ++ ofMarkets assets (i + 1) todo

variable {assets : BitVec 8} {ids : List Bytes32} {i : ℕ} {item : Item}

theorem Before.asymm (a b : Item) (h : a.Before b) : ¬ b.Before a := by
  unfold Before at *
  omega

theorem index_of_mem (h : item ∈ ofMarkets assets i ids) :
    i ≤ item.index ∧ item.index < i + ids.length := by
  induction ids generalizing i with
  | nil => cases h
  | cons id ids ih =>
    rw [List.length_cons]
    rcases List.mem_append.mp h with hfirst | hrest
    · obtain ⟨asset, -, rfl⟩ := List.mem_map.mp hfirst
      dsimp only
      omega
    · obtain ⟨hle, hlt⟩ := ih hrest
      omega

/-- **The items come in order.** -/
theorem pairwise_ofMarkets : (ofMarkets assets i ids).Pairwise Before := by
  induction ids generalizing i with
  | nil => exact List.Pairwise.nil
  | cons id ids ih =>
    refine List.pairwise_append.mpr ⟨?_, ih, fun a ha b hb => ?_⟩
    · have hsorted : ([1, 2] : List ℕ).Pairwise (· < ·) := by decide
      exact List.pairwise_map.mpr ((hsorted.filter _).imp fun hlt => Or.inr ⟨rfl, hlt⟩)
    · obtain ⟨asset, -, rfl⟩ := List.mem_map.mp ha
      exact Or.inl (index_of_mem hb).1

end Item

/-! ### One by one -/

section OneByOne

variable (calls : GaugeCalls G) (platform : Platform) (v : Immutables)
  (encodeRevert : Revert → List (BitVec 8)) (attempts : ℕ → ℕ → Attempt G E)

/-- What a call of an item's own gives, if its gas lasts. -/
def Item.result (x : Chain G E) (item : Item) : Except Revert (Chain G E) :=
  let attempt := attempts item.index item.asset
  ifGas attempt.lasts (runEntry calls platform v encodeRevert v.self x (item.entry attempt.external))

/-- **An item is performed**: a call that fails changes nothing. -/
def perform (x : Chain G E) (item : Item) : Chain G E :=
  match item.result calls platform v encodeRevert attempts x with
  | .ok y => y
  | .error _ => x

/-- What the batch reports of an item. -/
def report (x : Chain G E) (item : Item) : FundingEvent :=
  let attempt := attempts item.index item.asset
  match ifGas attempt.lasts (fundItem v attempt.external x item.marketId item.asset) with
  | .ok (_, n) => .holderFundingResult item.marketId item.asset (if n = 0 then 0 else 1) n 0
  | .error e =>
    let data := encodeRevert e
    .holderFundingResult item.marketId item.asset 2 0
      (if data.length ≥ 4 then outputWord data / 2 ^ 224 else 0)

/-- What the batch reports of the items, each where the ones before it have led. -/
def reports : List Item → Chain G E → List FundingEvent
  | [], _ => []
  | item :: items, x => report v encodeRevert attempts x item
      :: reports items (perform calls platform v encodeRevert attempts x item)

end OneByOne

section Loops

variable (calls : GaugeCalls G) (platform : Platform) {attempts : ℕ → ℕ → Attempt G E}
  {assets : BitVec 8} {gasPerAsset i : ℕ} {marketId : Bytes32} {p : Progress G E}

/-- The result of an item is the result of its child. -/
theorem Item.result_eq {item : Item} : item.result calls platform v encodeRevert attempts x
    = (ifGas (attempts item.index item.asset).lasts
        (fundItem v (attempts item.index item.asset).external x item.marketId item.asset)).map
        Prod.fst := by
  have hentry : runEntry calls platform v encodeRevert v.self x
      (item.entry (attempts item.index item.asset).external)
      = (fundItem v (attempts item.index item.asset).external x item.marketId item.asset).map
        Prod.fst := by
    rw [Item.entry, fundItem]
    by_cases hquote : item.asset = 1
    · simp only [if_pos hquote, runEntry]
      cases fundHolderRewards v (attempts item.index item.asset).external x item.marketId 1 <;> rfl
    · simp only [if_neg hquote, runEntry]
      cases fundHolderMemeRewards v (attempts item.index item.asset).external x item.marketId <;> rfl
  rw [Item.result, hentry, ifGas, ifGas]
  split <;> rfl

/-- The batch goes on from an item. -/
def Progress.next (v : Immutables) (encodeRevert : Revert → List (BitVec 8))
    (attempts : ℕ → ℕ → Attempt G E) (p : Progress G E) (item : Item) : Progress G E :=
  ⟨perform calls platform v encodeRevert attempts p.chain item,
    p.events ++ [report v encodeRevert attempts p.chain item]⟩

/-- **An attempt never fails**: it performs its item, and reports it. In particular a child that
succeeds has returned a word. -/
theorem attemptHolderFunding_eq (item : Item) :
    attemptHolderFunding v encodeRevert (attempts item.index item.asset) item.marketId item.asset p
      = .ok (p.next calls platform v encodeRevert attempts item) := by
  rw [Progress.next, perform, Item.result_eq, report]
  unfold attemptHolderFunding selfCall
  dsimp only
  cases hchild : ifGas (attempts item.index item.asset).lasts
      (fundItem v (attempts item.index item.asset).external p.chain item.marketId item.asset) with
  | error e => rfl
  | ok result =>
    obtain ⟨y, n⟩ := result
    have hle : n ≤ maxUint256 := le_of_fundItem (ifGas_eq_ok.mp hchild).2
    have hlength : (abiEncode n).length = 32 := length_bytesOf 32 n
    dsimp only
    rw [if_pos rfl, hlength, revertIf_neg (not_not.mpr rfl), outputWord_abiEncode hle]
    rfl

/-- Where a batch has stopped. -/
def stopped (todo : List Item) (p : Progress G E) : Progress G E × Option (ℕ × ℕ) :=
  match todo with
  | [] => (p, none)
  | item :: _ =>
    (⟨p.chain, p.events ++ [.holderFundingBatchStopped item.index item.asset]⟩,
      some (item.index, item.asset))

/-- **The inner loop** is a batch of the items of its market. -/
theorem fundAssets_eq (todo : List ℕ) :
    fundAssets v encodeRevert attempts assets gasPerAsset i marketId todo p
      = .ok (stopped
        (Batch.resume (fun item => lowGas attempts gasPerAsset item.index item.asset)
          (Progress.next calls platform v encodeRevert attempts)
          (Item.ofMarket assets todo i marketId) p).2
        (Batch.resume (fun item => lowGas attempts gasPerAsset item.index item.asset)
          (Progress.next calls platform v encodeRevert attempts)
          (Item.ofMarket assets todo i marketId) p).1) := by
  induction todo generalizing p with
  | nil => rfl
  | cons asset todo ih =>
    rw [fundAssets]
    by_cases hselected : selected assets asset = true
    · have hcons : Item.ofMarket assets (asset :: todo) i marketId
          = ⟨i, marketId, asset⟩ :: Item.ofMarket assets todo i marketId := by
        rw [Item.ofMarket, List.filter_cons_of_pos hselected, List.map_cons, Item.ofMarket]
      rw [if_neg (not_not.mpr hselected), hcons, Batch.resume]
      by_cases hlow : lowGas attempts gasPerAsset i asset = true
      · rw [if_pos hlow, if_pos hlow]
        rfl
      · have hattempt : attemptHolderFunding v encodeRevert (attempts i asset) marketId asset p
            = .ok (p.next calls platform v encodeRevert attempts ⟨i, marketId, asset⟩) :=
          attemptHolderFunding_eq calls platform ⟨i, marketId, asset⟩
        rw [if_neg hlow, if_neg hlow, hattempt, ok_bind, ih]
    · have hskip : Item.ofMarket assets (asset :: todo) i marketId
          = Item.ofMarket assets todo i marketId := by
        rw [Item.ofMarket, List.filter_cons_of_neg hselected, Item.ofMarket]
      rw [if_pos hselected, hskip, ih]

/-- The end of a batch, or where it has stopped. -/
def concluded (length : ℕ) (todo : List Item) (p : Progress G E) : Progress G E × ℕ × ℕ :=
  match todo with
  | [] => (p, length, 0)
  | item :: _ =>
    (⟨p.chain, p.events ++ [.holderFundingBatchStopped item.index item.asset]⟩, item.index,
      item.asset)

/-- **The two loops** are one batch of items. -/
theorem fundMarkets_eq (ids : List Bytes32) :
    fundMarkets v encodeRevert attempts assets gasPerAsset i ids p
      = .ok (concluded (i + ids.length)
        (Batch.resume (fun item => lowGas attempts gasPerAsset item.index item.asset)
          (Progress.next calls platform v encodeRevert attempts) (Item.ofMarkets assets i ids) p).2
        (Batch.resume (fun item => lowGas attempts gasPerAsset item.index item.asset)
          (Progress.next calls platform v encodeRevert attempts) (Item.ofMarkets assets i ids) p).1) := by
  induction ids generalizing i p with
  | nil => rfl
  | cons id ids ih =>
    rw [fundMarkets, fundAssets_eq calls platform, ok_bind, Item.ofMarkets, Batch.resume_append]
    cases htodo : (Batch.resume (fun item => lowGas attempts gasPerAsset item.index item.asset)
        (Progress.next calls platform v encodeRevert attempts) (Item.ofMarket assets [1, 2] i id)
        p).2 with
    | nil =>
      have hlength : i + (id :: ids).length = i + 1 + ids.length := by
        rw [List.length_cons]
        omega
      rw [if_pos rfl, stopped, hlength]
      exact ih
    | cons item todo =>
      rw [if_neg (List.cons_ne_nil _ _), stopped]
      rfl

/-- The batch goes on from item to item. -/
theorem foldl_next (items : List Item) :
    items.foldl (Progress.next calls platform v encodeRevert attempts) p
      = ⟨items.foldl (perform calls platform v encodeRevert attempts) p.chain,
        p.events ++ reports calls platform v encodeRevert attempts items p.chain⟩ := by
  induction items generalizing p with
  | nil => rw [List.foldl_nil, List.foldl_nil, reports, List.append_nil]
  | cons item items ih =>
    rw [List.foldl_cons, ih, List.foldl_cons, reports, Progress.next]
    dsimp only
    rw [List.append_assoc, List.singleton_append]

theorem chain_concluded (length : ℕ) (todo : List Item) (p : Progress G E) :
    (concluded length todo p).1.chain = p.chain := by
  cases todo <;> rfl

end Loops

/-! ### What the items leave -/

section Items

variable {attempts : ℕ → ℕ → Attempt G E} {items : List Item}

/-- **An item** funds the holders, or changes nothing. -/
theorem funded_perform {item : Item}
    (hlawful : (attempts item.index item.asset).external.Lawful calls platform v encodeRevert exact)
    (hx : x.Open) : Funded v exact x (perform calls platform v encodeRevert attempts x item) := by
  rw [perform, Item.result_eq]
  cases hchild : ifGas (attempts item.index item.asset).lasts
      (fundItem v (attempts item.index item.asset).external x item.marketId item.asset) with
  | error e => exact Funded.refl x
  | ok result =>
    obtain ⟨y, n⟩ := result
    exact funded_of_fundItem hlawful hx (ifGas_eq_ok.mp hchild).2

variable (hlawful : ∀ i asset,
    (attempts i asset).external.Lawful calls platform v encodeRevert exact)
include hlawful

/-- **The items together** fund the holders. -/
theorem funded_foldl (hx : x.Open) :
    Funded v exact x (items.foldl (perform calls platform v encodeRevert attempts) x) := by
  have hboth : Funded v exact x (items.foldl (perform calls platform v encodeRevert attempts) x) ∧
      (items.foldl (perform calls platform v encodeRevert attempts) x).Open := by
    refine Batch.foldl_invariant (I := fun y => Funded v exact x y ∧ y.Open)
      (fun y item hy => ?_) ⟨Funded.refl x, hx⟩
    have hfunded := funded_perform (hlawful item.index item.asset) hy.2
    exact ⟨hy.1.trans hfunded, hfunded.open hy.2⟩
  exact hboth.1

/-- **Every liability is cleared at most once**, for what it was. -/
theorem cleared_foldl (hx : x.Open) (id : Bytes32) (asset : Address) (e : Epoch) :
    ∃ m ≤ items.length, ∀ j ≤ items.length,
      ((items.take j).foldl (perform calls platform v encodeRevert attempts) x).holderLiability id
          asset e
        = if j ≤ m then x.holderLiability id asset e else 0 := by
  refine Batch.cleared_once fun j hj => ?_
  have hopen : ((items.take j).foldl (perform calls platform v encodeRevert attempts) x).Open :=
    (funded_foldl hlawful hx).open hx
  rw [List.take_succ_eq_append_getElem hj, List.foldl_append, List.foldl_cons, List.foldl_nil]
  exact (funded_perform (hlawful items[j].index items[j].asset) hopen).cleared id asset e

end Items

/-! ### The states of a deployed vault -/

/-- A credit is only pending in the state of the lock that says so. -/
structure Pending (s : Session) : Prop where
  v4 : s.creditState ≠ .pending → s.pendingV4 = .none
  curve : s.creditState ≠ .finalizing → s.pendingCurve = .none

theorem Pending.open (h : Pending x.vault.session) (hidle : x.vault.session.creditState = .idle) :
    x.Open := by
  have hv4 := h.v4 (by rw [hidle]; exact fun heq => nomatch heq)
  have hcurve := h.curve (by rw [hidle]; exact fun heq => nomatch heq)
  unfold Chain.Open
  generalize x.vault.session = s at *
  obtain ⟨creditState, pendingV4, pendingCurve⟩ := s
  dsimp only at hidle hv4 hcurve
  rw [hidle, hv4, hcurve]
  rfl

theorem pending_start : Pending Session.start := ⟨fun _ => rfl, fun _ => rfl⟩

/-- **What holds of every chain with a deployed vault**, between two steps. -/
structure Sound (exact : Address → Prop) (x : Chain G E) : Prop where
  pending : Pending x.vault.session
  unapproved : ∀ asset, exact asset → x.Unapproved asset

/-- A funding keeps the vault sound. -/
theorem Sound.of_funded (hx : Sound exact x) (hopen : x.Open) (h : Funded v exact x y) :
    Sound exact y where
  pending := by
    rw [h.open hopen]
    exact pending_start
  unapproved asset hexact := h.unapproved asset hexact (hx.unapproved asset hexact)

/-- **An entry keeps the vault sound.** -/
theorem Sound.of_runEntry (hx : Sound exact x) {caller : Address} (hcaller : caller ≠ 0)
    {e : Entry G E} (hlawful : e.Lawful calls platform v encodeRevert exact)
    (h : runEntry calls platform v encodeRevert caller x e = .ok y) : Sound exact y := by
  cases e with
  | beginV4Credit =>
    simp only [runEntry, beginV4Credit, bind_eq_ok, revertIf_eq_ok, not_or, not_not, pure_eq_ok,
      Except.ok.injEq] at h
    obtain ⟨_, ⟨_, ⟨hidle, -⟩, -, -, -, -, -, -, rfl⟩, rfl⟩ := h
    have hcurve := hx.pending.curve (by rw [hidle]; decide)
    exact ⟨⟨fun hne => absurd rfl hne, fun _ => hcurve⟩, hx.unapproved⟩
  | finalizeV4Credit =>
    simp only [runEntry, finalizeV4Credit, bind_eq_ok, revertIf_eq_ok, not_or, not_not, pure_eq_ok,
      Except.ok.injEq] at h
    obtain ⟨⟨_, _⟩, ⟨_, ⟨hpending, -⟩, -, -, _, -, -, -, _, -, ⟨_, _⟩, -, heq⟩, rfl⟩ := h
    obtain ⟨rfl, rfl⟩ := Prod.mk.inj heq
    have hcurve := hx.pending.curve (by rw [hpending]; decide)
    exact ⟨⟨fun _ => rfl, fun _ => hcurve⟩, hx.unapproved⟩
  | receive =>
    simp only [runEntry, bind_eq_ok, pure_eq_ok, Except.ok.injEq] at h
    obtain ⟨_, -, rfl⟩ := h
    exact hx
  | beginCurveCredit =>
    simp only [runEntry, beginCurveCredit, requireStandaloneCredit, bind_eq_ok,
      requireCreditIdle_eq_ok, pure_eq_ok, Except.ok.injEq] at h
    obtain ⟨_, ⟨_, ⟨-, -, -, -, hidle⟩, -, -, -, -, ⟨_, _⟩, -, rfl⟩, rfl⟩ := h
    have hv4 := hx.pending.v4 (by rw [hidle]; decide)
    exact ⟨⟨fun _ => hv4, fun hne => absurd rfl hne⟩, hx.unapproved⟩
  | finalizeCurveCredit =>
    simp only [runEntry, finalizeCurveCredit, bind_eq_ok, revertIf_eq_ok, not_or, not_not,
      pure_eq_ok, Except.ok.injEq] at h
    obtain ⟨_, ⟨_, ⟨-, -, -, -, -, -, -, hsource⟩, ⟨_, _⟩, -, -, -, -, -, -, -, _, -, _, -, _, -, _,
      -, rfl⟩, rfl⟩ := h
    -- somebody has begun this credit, so the lock is closed by it
    have hfinalizing : x.vault.session.creditState = .finalizing := by
      by_contra hne
      rw [hx.pending.curve hne] at hsource
      exact hcaller hsource.symm
    have hv4 := hx.pending.v4 (by rw [hfinalizing]; decide)
    exact ⟨⟨fun _ => hv4, fun _ => rfl⟩, hx.unapproved⟩
  | coverAssetDeficit =>
    simp only [runEntry, coverAssetDeficit, bind_eq_ok, pure_eq_ok, Except.ok.injEq] at h
    obtain ⟨⟨_, _⟩, ⟨_, -, _, -, -, -, _, -, -, -, _, -, heq⟩, rfl⟩ := h
    obtain ⟨rfl, rfl⟩ := Prod.mk.inj heq
    exact ⟨hx.pending, hx.unapproved⟩
  | claimPlatform =>
    simp only [runEntry, claimPlatform, bind_eq_ok, pure_eq_ok, Except.ok.injEq] at h
    obtain ⟨⟨_, _⟩, ⟨_, -, _, -, _, -, _, -, ⟨_, _⟩, -, heq⟩, rfl⟩ := h
    obtain ⟨rfl, rfl⟩ := Prod.mk.inj heq
    exact ⟨hx.pending, hx.unapproved⟩
  | recordForfeiture =>
    simp only [runEntry, recordForfeiture, bind_eq_ok, pure_eq_ok, Except.ok.injEq] at h
    obtain ⟨_, ⟨_, -, _, -, -, -, -, -, -, -, _, -, _, -, -, -, -, -, rfl⟩, rfl⟩ := h
    exact ⟨hx.pending, hx.unapproved⟩
  | claimUserRewards =>
    simp only [runEntry, claimUserRewards, bind_eq_ok, pure_eq_ok, Except.ok.injEq] at h
    obtain ⟨⟨_, _, _, _, _⟩, ⟨-, -, -, -, -, -, _, -, -, -, -, -, ⟨_, _, _, _⟩, -, _, -, ⟨_, _, _⟩, -, -,
      -, heq⟩, rfl⟩ := h
    simp only [Prod.mk.injEq] at heq
    obtain ⟨rfl, rfl, rfl, -⟩ := heq
    exact ⟨hx.pending, hx.unapproved⟩
  | executePlatformTreasury =>
    simp only [runEntry, bind_eq_ok, pure_eq_ok, Except.ok.injEq] at h
    obtain ⟨_, -, rfl⟩ := h
    exact ⟨hx.pending, hx.unapproved⟩
  | fundHolderRewards =>
    simp only [runEntry, bind_eq_ok, pure_eq_ok, Except.ok.injEq] at h
    obtain ⟨⟨_, _⟩, hfund, rfl⟩ := h
    have hopen : x.Open := hx.pending.open (idle_of_fundHolderRewards hfund)
    exact hx.of_funded hopen (funded_of_fundHolderRewards hlawful hopen hfund)
  | fundHolderMemeRewards =>
    simp only [runEntry, bind_eq_ok, pure_eq_ok, Except.ok.injEq] at h
    obtain ⟨⟨_, _⟩, hfund, rfl⟩ := h
    have hopen : x.Open := hx.pending.open (idle_of_fundHolderMemeRewards hfund)
    exact hx.of_funded hopen (funded_of_fundHolderMemeRewards hlawful hopen hfund)
  | fundHolderRewardsBatch attempts ids assets gasPerAsset =>
    simp only [runEntry, fundHolderRewardsBatch, bind_eq_ok, requireCreditIdle_eq_ok, pure_eq_ok,
      Except.ok.injEq, fundMarkets_eq calls platform] at h
    obtain ⟨⟨_, _⟩, ⟨-, -, _, hidle, heq⟩, rfl⟩ := h
    have hopen : x.Open := hx.pending.open hidle
    have hchain := congrArg (fun r => r.1.chain) heq
    dsimp only at hchain
    rw [chain_concluded, Batch.resume_eq, foldl_next] at hchain
    rw [← hchain]
    exact hx.of_funded hopen (funded_foldl hlawful hopen)

/-- **Every chain with a deployed vault is sound.** -/
theorem sound_of_reachable (h : Reachable calls platform v encodeRevert exact x) :
    Sound exact x := by
  refine h.invariant (I := Sound exact) (fun x hx => ?_) fun x _ y hx hstep => ?_
  · obtain ⟨⟨-, -, -, -, -, hsession⟩, hzero⟩ := hx
    exact ⟨by rw [hsession]; exact pending_start, fun asset _ => hzero asset⟩
  · cases hstep with
    | call caller e hcaller hlawful h => exact hx.of_runEntry hcaller hlawful h
    | moves h =>
      exact ⟨by rw [h.vault]; exact hx.pending,
        fun asset hexact => h.unapproved hexact (hx.unapproved asset hexact)⟩
    | endTransaction => exact ⟨pending_start, hx.unapproved⟩

/-! ### The batch -/

section Claim

/-- The arguments that a batch accepts. -/
def Accepted (ids : List Bytes32) (assets : BitVec 8) (gasPerAsset : ℕ) : Prop :=
  0 < ids.length ∧ ids.length ≤ maxHolderFundingBatch ∧ assets ≠ 0 ∧ assets ≤ 3 ∧
    minHolderFundingGas ≤ gasPerAsset ∧ gasPerAsset ≤ maxHolderFundingGas

/-- The items of a batch before a position. -/
def itemsBefore (ids : List Bytes32) (assets : BitVec 8) (cursor : ℕ × ℕ) : List Item :=
  (Item.ofMarkets assets 0 ids).filter fun item =>
    item.index < cursor.1 ∨ item.index = cursor.1 ∧ item.asset < cursor.2

/-- **What a batch has done** when it returns a position. -/
structure Performed (calls : GaugeCalls G) (platform : Platform) (v : Immutables)
    (encodeRevert : Revert → List (BitVec 8)) (exact : Address → Prop)
    (attempts : ℕ → ℕ → Attempt G E) (ids : List Bytes32) (assets : BitVec 8) (gasPerAsset : ℕ)
    (x : Chain G E) (p : Progress G E) (cursor : ℕ × ℕ) : Prop where
  /-- The position is the end, or the first item before which the gas was low. -/
  cursor_eq : cursor = (ids.length, 0) ∨ ∃ item ∈ Item.ofMarkets assets 0 ids,
    cursor = (item.index, item.asset) ∧ lowGas attempts gasPerAsset item.index item.asset = true
  enough : ∀ item ∈ itemsBefore ids assets cursor,
    lowGas attempts gasPerAsset item.index item.asset = false
  /-- The chain is the one that the items before the position lead to, one by one. -/
  chain_eq : p.chain = (itemsBefore ids assets cursor).foldl
    (perform calls platform v encodeRevert attempts) x
  /-- Every item before the position is attempted once, in order, and no other. -/
  events_eq : p.events = reports calls platform v encodeRevert attempts
    (itemsBefore ids assets cursor) x
      ++ if cursor.2 = 0 then [] else [.holderFundingBatchStopped cursor.1 cursor.2]
  /-- Of the vault only the ledger has changed. -/
  vault : ∃ l, p.chain.vault = { x.vault with ledger := l }
  /-- What the holders are owed is cleared at most once, for what it was. -/
  cleared : ∀ id asset e, ∃ m ≤ (itemsBefore ids assets cursor).length,
    ∀ j ≤ (itemsBefore ids assets cursor).length,
      (((itemsBefore ids assets cursor).take j).foldl
          (perform calls platform v encodeRevert attempts) x).holderLiability id asset e
        = if j ≤ m then x.holderLiability id asset e else 0
  /-- The exact assets stay covered. -/
  covered : ∀ asset, exact asset → x.Covered v asset → p.chain.Covered v asset

variable {attempts : ℕ → ℕ → Attempt G E} {ids : List Bytes32} {assets : BitVec 8}
  {gasPerAsset : ℕ} {p : Progress G E} {cursor : ℕ × ℕ}

/-- The assets have numbers. -/
theorem asset_pos_of_mem {i : ℕ} {item : Item} (h : item ∈ Item.ofMarkets assets i ids) :
    0 < item.asset := by
  induction ids generalizing i with
  | nil => cases h
  | cons id ids ih =>
    rcases List.mem_append.mp h with hfirst | hrest
    · obtain ⟨asset, hasset, rfl⟩ := List.mem_map.mp hfirst
      have hmem := (List.mem_filter.mp hasset).1
      dsimp only
      rcases List.mem_cons.mp hmem with rfl | hmem
      · exact Nat.one_pos
      · rw [List.mem_singleton.mp hmem]
        exact Nat.two_pos
    · exact ih hrest

/-- **The position says what has been attempted.** -/
theorem concluded_eq {todo : List Item} {q : Progress G E}
    (htodo : (Item.ofMarkets assets 0 ids).dropWhile
      (fun item => !lowGas attempts gasPerAsset item.index item.asset) = todo)
    (h : concluded ids.length todo q = (p, cursor)) :
    itemsBefore ids assets cursor = (Item.ofMarkets assets 0 ids).takeWhile
        (fun item => !lowGas attempts gasPerAsset item.index item.asset) ∧
      p.events = q.events
        ++ (if cursor.2 = 0 then [] else [.holderFundingBatchStopped cursor.1 cursor.2]) ∧
      (cursor = (ids.length, 0) ∨ ∃ item ∈ Item.ofMarkets assets 0 ids,
        cursor = (item.index, item.asset) ∧
          lowGas attempts gasPerAsset item.index item.asset = true) := by
  cases todo with
  | nil =>
    obtain ⟨rfl, rfl⟩ := Prod.mk.inj h
    have hwhole := List.takeWhile_append_dropWhile (l := Item.ofMarkets assets 0 ids)
      (p := fun item => !lowGas attempts gasPerAsset item.index item.asset)
    rw [htodo, List.append_nil] at hwhole
    refine ⟨?_, by rw [if_pos rfl, List.append_nil], Or.inl rfl⟩
    rw [hwhole]
    refine List.filter_eq_self.mpr fun item hitem => decide_eq_true (Or.inl ?_)
    have hlt := (Item.index_of_mem hitem).2
    rwa [Nat.zero_add] at hlt
  | cons item todo =>
    obtain ⟨rfl, rfl⟩ := Prod.mk.inj h
    have hmem : item ∈ Item.ofMarkets assets 0 ids :=
      (List.dropWhile_sublist _).subset (htodo ▸ List.mem_cons_self)
    have hlow := List.head_dropWhile_not
      (fun item => !lowGas attempts gasPerAsset item.index item.asset)
      (l := Item.ofMarkets assets 0 ids) (by rw [htodo]; exact List.cons_ne_nil _ _)
    refine ⟨?_, by rw [if_neg (asset_pos_of_mem hmem).ne'], Or.inr ⟨item, hmem, rfl, ?_⟩⟩
    · exact (Batch.takeWhile_eq_filter Item.Before.asymm Item.pairwise_ofMarkets htodo).symm
    · simpa [htodo] using hlow

/-- The batch, once its arguments and the lock are checked. -/
theorem fundHolderRewardsBatch_eq_ok :
    fundHolderRewardsBatch v encodeRevert attempts assets gasPerAsset ids x = .ok (p, cursor) ↔
      Accepted ids assets gasPerAsset ∧ x.vault.session.creditState = .idle ∧
      fundMarkets v encodeRevert attempts assets gasPerAsset 0 ids ⟨x, []⟩ = .ok (p, cursor) := by
  have haccepted : (¬ (ids.length = 0 ∨ ids.length > maxHolderFundingBatch ∨ assets = 0 ∨ assets > 3 ∨
      gasPerAsset < minHolderFundingGas ∨ gasPerAsset > maxHolderFundingGas)) ↔
      Accepted ids assets gasPerAsset := by
    simp only [not_or, Accepted, gt_iff_lt, not_lt, BitVec.not_lt, ← Nat.pos_iff_ne_zero, ne_eq]
  simp only [fundHolderRewardsBatch, bind_eq_ok, revertIf_eq_ok, requireCreditIdle_eq_ok, haccepted,
    exists_const]

/-- **A batch of fundings is isolated and can be resumed.** From every chain with a deployed
vault, whatever the tokens and the distributors do: an accepted batch returns; what it leaves is
what the items before the returned position leave, each performed as a call of its own that
changes nothing if it fails; and no child returns anything but a word. -/
theorem holder_funding_batch (hreach : Reachable calls platform v encodeRevert exact x)
    (hlawful : ∀ i asset, (attempts i asset).external.Lawful calls platform v encodeRevert exact) :
    (Accepted ids assets gasPerAsset → x.vault.session.creditState = .idle → ∃ p cursor,
      fundHolderRewardsBatch v encodeRevert attempts assets gasPerAsset ids x = .ok (p, cursor)) ∧
    (∀ p cursor,
      fundHolderRewardsBatch v encodeRevert attempts assets gasPerAsset ids x = .ok (p, cursor) →
        Performed calls platform v encodeRevert exact attempts ids assets gasPerAsset x p cursor) ∧
    fundHolderRewardsBatch v encodeRevert attempts assets gasPerAsset ids x
      ≠ .error (.feeVault .unexpectedHolderFundingReturn) := by
  refine ⟨fun haccepted hidle => ?_, fun p cursor h => ?_, fun h => ?_⟩
  · exact ⟨_, _, fundHolderRewardsBatch_eq_ok.mpr
      ⟨haccepted, hidle, fundMarkets_eq calls platform ids⟩⟩
  · obtain ⟨-, hidle, hrun⟩ := fundHolderRewardsBatch_eq_ok.mp h
    have hsound := sound_of_reachable hreach
    have hopen : x.Open := hsound.pending.open hidle
    rw [fundMarkets_eq calls platform, Nat.zero_add, Batch.resume_eq, foldl_next,
      Except.ok.injEq] at hrun
    obtain ⟨hbefore, hevents, hcursor⟩ := concluded_eq rfl hrun
    have hchain := congrArg (fun r => r.1.chain) hrun
    dsimp only at hchain
    rw [chain_concluded, ← hbefore] at hchain
    have hfunded : Funded v exact x p.chain := by
      rw [← hchain]
      exact funded_foldl hlawful hopen
    exact {
      cursor_eq := hcursor
      enough := fun item hitem => by
        rw [hbefore] at hitem
        simpa using List.all_eq_true.mp List.all_takeWhile item hitem
      chain_eq := hchain.symm
      events_eq := by rw [hevents, List.nil_append, hbefore]
      vault := hfunded.vault
      cleared := cleared_foldl hlawful hopen
      covered := fun asset hexact =>
        hfunded.covered asset hexact (hsound.unapproved asset hexact) }
  · simp only [fundHolderRewardsBatch, bind_eq_error, revertIf_eq_error, requireCreditIdle,
      fundMarkets_eq calls platform] at h
    obtain ⟨-, heq⟩ | ⟨_, -, ⟨-, heq⟩ | ⟨_, -, heq⟩⟩ := h <;> cases heq

end Claim

/-! ### A small batch

After the sweep of the small vault its market's holders are owed something in the native
currency. A batch funds them, fails at a market that does not exist, and stops there. -/

namespace Sample

/-- A chain of the small vault. -/
def chain (held : ℕ) (s : State) : Chain Unit Unit :=
  ⟨⟨ProtocolFeeVault.Sample.around held, (), s⟩, fun _ _ => 0, ()⟩

/-- A distributor that keeps what it gets. -/
def strangers : External Unit Unit where
  balanceUnavailable _ _ := false
  totalSupply _ _ := .ok 0
  holderRewardsDistributor x token := .ok (x.around.holderRewardsDistributor token)
  forceApprove token spender amount x := .ok (x.approve token spender amount)
  burn token amount x := .ok (x.spend 80 token amount)
  fundQuoteRewards _ native _ _ _ x := .ok (x.spend 80 0 native)
  fundMemeFees _ _ _ x := .ok x

theorem lawful_strangers (calls : GaugeCalls Unit) (encodeRevert : Revert → List (BitVec 8)) :
    strangers.Lawful calls DocumentedV4.platform ProtocolFeeVault.Sample.vault encodeRevert (· = 0) where
  forceApprove h := by
    obtain rfl := Except.ok.inj h
    exact .refl _
  burn h := by
    obtain rfl := Except.ok.inj h
    exact .refl _
  fundQuoteRewards h := by
    obtain rfl := Except.ok.inj h
    exact .refl _
  fundMemeFees h := by
    obtain rfl := Except.ok.inj h
    exact .refl _

/-- The vault after the sweep. -/
def swept : Chain Unit Unit :=
  chain 100 (value ProtocolFeeVault.Sample.finalized ProtocolFeeVault.Sample.finalized_isOk)

/-- The gas is low at the last position. -/
def attempts (i asset : ℕ) : Attempt Unit Unit :=
  ⟨if i = 1 ∧ asset = 2 then 80000 else 10000000, true, strangers⟩

/-- A market that is not registered fails without a word. -/
def batch : Except Revert (Progress Unit Unit × ℕ × ℕ) :=
  fundHolderRewardsBatch ProtocolFeeVault.Sample.vault (fun _ => []) attempts 3 200000 [1, 2] swept

theorem batch_isOk : batch.isOk = true := by decide +kernel

/-- The sweep, step by step. -/
theorem reachable_swept : Reachable ProtocolFeeVault.Sample.calls DocumentedV4.platform
    ProtocolFeeVault.Sample.vault (fun _ => []) (· = 0) swept := by
  have hinit : Init ProtocolFeeVault.Sample.vault (chain 0 ProtocolFeeVault.Sample.fresh) :=
    ⟨⟨rfl, by decide, fun _ => rfl, fun _ => rfl, fun _ => rfl, rfl⟩, fun _ _ => rfl⟩
  have hbegin : runEntry ProtocolFeeVault.Sample.calls DocumentedV4.platform
      ProtocolFeeVault.Sample.vault (fun _ => []) 7 (chain 0 ProtocolFeeVault.Sample.fresh)
      (.beginCurveCredit ProtocolFeeVault.Sample.credit)
      = .ok (chain 0 (value ProtocolFeeVault.Sample.begun ProtocolFeeVault.Sample.begun_isOk)) :=
    bind_eq_ok.mpr ⟨_, eq_ok_value ProtocolFeeVault.Sample.begun_isOk, rfl⟩
  have hpaid : Moves ProtocolFeeVault.Sample.vault (· = 0)
      (chain 0 (value ProtocolFeeVault.Sample.begun ProtocolFeeVault.Sample.begun_isOk))
      (chain 100 (value ProtocolFeeVault.Sample.begun ProtocolFeeVault.Sample.begun_isOk)) :=
    ⟨rfl, fun _ _ _ => le_rfl, fun asset hasset _ => by subst hasset; decide⟩
  have hfinalize : runEntry ProtocolFeeVault.Sample.calls DocumentedV4.platform
      ProtocolFeeVault.Sample.vault (fun _ => []) 7
      (chain 100 (value ProtocolFeeVault.Sample.begun ProtocolFeeVault.Sample.begun_isOk))
      (.finalizeCurveCredit 100 ProtocolFeeVault.Sample.credit) = .ok swept :=
    bind_eq_ok.mpr ⟨_, eq_ok_value ProtocolFeeVault.Sample.finalized_isOk, rfl⟩
  have hbegun : Reachable ProtocolFeeVault.Sample.calls DocumentedV4.platform
      ProtocolFeeVault.Sample.vault (fun _ => []) (· = 0)
      (chain 0 (value ProtocolFeeVault.Sample.begun ProtocolFeeVault.Sample.begun_isOk)) :=
    (Transition.Reachable.of_init hinit).next (Step.call 7 (.beginCurveCredit ProtocolFeeVault.Sample.credit) (by decide) trivial hbegin)
  exact (hbegun.next (Step.moves hpaid)).next
    (Step.call 7 (.finalizeCurveCredit 100 ProtocolFeeVault.Sample.credit) (by decide) trivial
      hfinalize)

end Sample

/-- What the small batch has done: the market is funded with 31, the next one fails, and the batch
stops. -/
theorem holder_funding_batch_sample :
    Performed ProtocolFeeVault.Sample.calls DocumentedV4.platform ProtocolFeeVault.Sample.vault
        (fun _ => []) (· = 0) Sample.attempts [1, 2] 3 200000 Sample.swept
        (value Sample.batch Sample.batch_isOk).1 (value Sample.batch Sample.batch_isOk).2 ∧
      (value Sample.batch Sample.batch_isOk).2 = (1, 2) ∧
      (value Sample.batch Sample.batch_isOk).1.events
        = [.holderFundingResult 1 1 1 31 0, .holderFundingResult 1 2 0 0 0,
          .holderFundingResult 2 1 2 0 0, .holderFundingBatchStopped 1 2] :=
  ⟨(holder_funding_batch Sample.reachable_swept
      fun _ _ => Sample.lawful_strangers _ _).2.1 _ _ (eq_ok_value Sample.batch_isOk),
    by decide +kernel, by decide +kernel⟩

end Funding

end ProtocolFeeVault

end TickerGarden
