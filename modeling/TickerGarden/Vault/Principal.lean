import TickerGarden.Vault.Vault

/-!
# The principal ledger

The vault keeps seven ledgers of the same principal: what a user has deposited and
allocated, what is allocated by a user to a market, by all users to a market and by all
users to all markets, the part of a market's allocations that is active and the part
that is pending. Every operation moves them together:
`TickerGarden.UserStockVault.LedgerSound` is the invariant of one asset, and
`TickerGarden.UserStockVault.StateSound` the one of the vault, which also speaks of the
tokens it holds and of the accounts it deals with. The result is
`TickerGarden.UserStockVault.principal_ledger`.

Each function of the source has one lemma that says what a successful call has checked
and what it leaves; the invariants are derived from these.
-/

namespace TickerGarden

open Checked Function

namespace UserStockVault

/-! ### What a successful call has checked -/

section Identity

variable {v : Immutables} {w w' : World} {assetUid marketId : Bytes32}

/-- An asset the vault accepts. -/
structure Canonical (v : Immutables) (w : World) (assetUid : Bytes32) : Prop where
  uid_ne : assetUid ≠ 0
  hasCode : w.hasCode (w.registries.asset assetUid).stockToken = true
  status_ge : assetStatusActive ≤ (w.registries.asset assetUid).status
  status_le : (w.registries.asset assetUid).status ≤ assetStatusRetired
  vault : (w.registries.asset assetUid).userStockVault = v.self

theorem canonicalAsset_eq_ok {view : AssetView} :
    UserStockVaultIdentity.canonicalAsset v w assetUid = .ok view ↔
      Canonical v w assetUid ∧ view = w.registries.asset assetUid := by
  simp only [UserStockVaultIdentity.canonicalAsset, bind_eq_ok, revertIf_eq_ok, pure_eq_ok,
    Except.ok.injEq, not_or, not_not, not_lt]
  constructor
  · rintro ⟨-, huid, -, ⟨hcode, hge, hle⟩, -, hvault, rfl⟩
    exact ⟨⟨huid, hcode, hge, hle, hvault⟩, rfl⟩
  · rintro ⟨⟨huid, hcode, hge, hle, hvault⟩, rfl⟩
    exact ⟨(), huid, (), ⟨hcode, hge, hle⟩, (), hvault, rfl⟩

/-- An accepted asset is registered. -/
theorem Canonical.status_ne (h : Canonical v w assetUid) :
    (w.registries.asset assetUid).status ≠ 0 :=
  Nat.ne_of_gt h.status_ge

/-- The vault accepts an asset for good. -/
theorem Canonical.of_evolves {platform : Platform} {bindings : MarketRegistry.Bindings}
    {custodian : Address → Prop} (h : Canonical v w assetUid)
    (hw : World.Evolves platform bindings custodian w w')
    (hsound : Registries.AssetsSound w.registries) : Canonical v w' assetUid := by
  obtain ⟨hset, hasset⟩ := hw.frozen.asset assetUid h.status_ne
  have hsound' := (hw.assetsSound hsound).sound assetUid hset
  refine ⟨h.uid_ne, ?_, Nat.pos_of_ne_zero hset, hsound'.status_le, ?_⟩
  · rw [hasset]
    exact hw.hasCode _ h.hasCode
  · rw [hasset]
    exact h.vault

/-- The token of an accepted asset does not change. -/
theorem Canonical.stockToken_eq {platform : Platform} {bindings : MarketRegistry.Bindings}
    {custodian : Address → Prop} (h : Canonical v w assetUid)
    (hw : World.Evolves platform bindings custodian w w') :
    (w'.registries.asset assetUid).stockToken = (w.registries.asset assetUid).stockToken := by
  rw [(hw.frozen.asset assetUid h.status_ne).2]

theorem canonicalMarket_eq_ok {view : MarketView} :
    UserStockVaultIdentity.canonicalMarket v w assetUid marketId = .ok view ↔
      Canonical v w assetUid ∧ marketId ≠ 0 ∧ w.registries.markets marketId = some view ∧
        view.config.assetUid = assetUid := by
  simp only [UserStockVaultIdentity.canonicalMarket, UserStockVaultIdentity.marketForAsset,
    MarketRegistry.market, bind_eq_ok, canonicalAsset_eq_ok, revertIf_eq_ok, orRevert_eq_ok,
    pure_eq_ok, Except.ok.injEq, not_not]
  constructor
  · rintro ⟨_, ⟨hcanonical, -⟩, -, hid, view, hview, -, hasset, rfl⟩
    exact ⟨hcanonical, hid, hview, hasset⟩
  · rintro ⟨hcanonical, hid, hview, hasset⟩
    exact ⟨_, ⟨hcanonical, rfl⟩, (), hid, view, hview, (), hasset, rfl⟩

end Identity

section Specs

variable {v : Immutables} {w : World} {l l' : AssetLedger} {assetUid marketId : Bytes32}
  {user : Address} {amount : ℕ} {b : Balances}

theorem freeBalanceOf_eq_ok {n : ℕ} : UserStockVaultLedger.freeBalanceOf l user = .ok n ↔
    l.allocated user ≤ l.deposited user ∧ n = l.deposited user - l.allocated user := by
  simp only [UserStockVaultLedger.freeBalanceOf, bind_eq_ok, revertIf_eq_ok, pure_eq_ok,
    Except.ok.injEq, not_lt]
  constructor
  · rintro ⟨-, hle, rfl⟩
    exact ⟨hle, rfl⟩
  · rintro ⟨hle, rfl⟩
    exact ⟨(), hle, rfl⟩

/-- **A deposit** adds the amount to what the user and all users have deposited. -/
theorem of_depositStock
    (h : UserStockVaultDeposits.depositStock v w l assetUid user amount = .ok (l', b)) :
    user ≠ 0 ∧ user ≠ v.self ∧ amount ≠ 0 ∧ Canonical v w assetUid ∧
      w.balances.move (w.registries.asset assetUid).stockToken user v.self amount = some b ∧
      l.totalDeposited + amount ≤ maxUint256 ∧
      l' = { l with
        deposited := update l.deposited user (l.deposited user + amount)
        totalDeposited := l.totalDeposited + amount } := by
  simp only [UserStockVaultDeposits.depositStock, UserStockVaultIdentity.activeCanonicalAsset,
    bind_eq_ok, revertIf_eq_ok, canonicalAsset_eq_ok, orRevert_eq_ok, uadd_eq_ok, pure_eq_ok,
    Except.ok.injEq, Prod.mk.injEq, not_or] at h
  obtain ⟨-, ⟨huser, hself⟩, -, hamount, _, ⟨_, ⟨hcanonical, rfl⟩, -, -, -, -, rfl⟩, -, -, _, hmove, -,
    -, _, ⟨-, rfl⟩, _, ⟨htotal, rfl⟩, rfl, rfl⟩ := h
  exact ⟨huser, hself, hamount, hcanonical, hmove, htotal, rfl⟩

/-- **A withdrawal** takes the amount off, and pays it to the user. -/
theorem of_withdrawFreeStock
    (h : UserStockVaultExits.withdrawFreeStock v w l assetUid user amount = .ok (l', b)) :
    amount ≠ 0 ∧ Canonical v w assetUid ∧ l.allocated user ≤ l.deposited user ∧
      amount ≤ l.deposited user - l.allocated user ∧ amount ≤ l.totalDeposited ∧
      w.balances.move (w.registries.asset assetUid).stockToken v.self user amount = some b ∧
      b (w.registries.asset assetUid).stockToken v.self + amount
        = w.balances (w.registries.asset assetUid).stockToken v.self ∧
      l' = { l with
        deposited := update l.deposited user (l.deposited user - amount)
        totalDeposited := l.totalDeposited - amount } := by
  simp only [UserStockVaultExits.withdrawFreeStock, bind_eq_ok, revertIf_eq_ok, canonicalAsset_eq_ok,
    freeBalanceOf_eq_ok, orRevert_eq_ok, usub_eq_ok, pure_eq_ok, Except.ok.injEq, Prod.mk.injEq,
    not_or, not_not, not_lt] at h
  obtain ⟨-, hamount, _, ⟨hcanonical, rfl⟩, _, ⟨hle, rfl⟩, -, hfree, _, ⟨-, rfl⟩, _, ⟨htotal, rfl⟩,
    _, hmove, -, ⟨hdecrease, -⟩, rfl, rfl⟩ := h
  refine ⟨hamount, hcanonical, hle, hfree, htotal, hmove, ?_, rfl⟩
  have hafford := (Balances.move_eq_some hmove).1
  have hlose := Balances.le_of_move_sender hmove
  split at hdecrease
  · omega
  · rename_i hgain
    -- the vault cannot have gained by paying
    rcases eq_or_ne user v.self with rfl | hne
    · rw [Balances.move_self hmove] at hgain
      exact absurd le_rfl hgain
    · rw [Balances.move_sender hmove hne.symm] at hgain
      exact absurd (Nat.sub_le _ _) hgain

/-- **A lock** allocates the amount, and schedules it. -/
theorem of_lockAllocation
    (h : UserStockVaultLedger.lockAllocation v w l assetUid user marketId amount = .ok l') :
    user ≠ 0 ∧ user ≠ v.self ∧ amount ≠ 0 ∧ Canonical v w assetUid ∧ marketId ≠ 0 ∧
      (∃ view, w.registries.markets marketId = some view ∧ view.config.assetUid = assetUid) ∧
      ((l.market marketId).account user).settlementPrincipal = 0 ∧
      l.allocated user + amount ≤ l.deposited user ∧
      ∃ m, lockRewardEligibility w.now (l.market marketId) user amount = .ok m ∧
        m.marketAllocated + amount ≤ maxUint256 ∧
        l' = { l with
          allocated := update l.allocated user (l.allocated user + amount)
          totalAllocated := l.totalAllocated + amount
          market := update l.market marketId { m with
            marketAllocated := m.marketAllocated + amount
            account := update m.account user { m.account user with
              allocation := (m.account user).allocation + amount } } } := by
  simp only [UserStockVaultLedger.lockAllocation, UserStockVaultLedger.validateAccountAndAmount,
    bind_eq_ok, revertIf_eq_ok, canonicalMarket_eq_ok, freeBalanceOf_eq_ok, uadd_eq_ok, pure_eq_ok,
    Except.ok.injEq, not_or, not_not, not_lt] at h
  obtain ⟨-, ⟨-, ⟨huser, hself⟩, hamount⟩, view, ⟨hcanonical, hid, hview, hasset⟩, -, hsettled, _,
    ⟨hle, rfl⟩, -, hfree, m, hlock, _, ⟨-, rfl⟩, _, ⟨-, rfl⟩, _, ⟨hmarket, rfl⟩, _, ⟨-, rfl⟩, rfl⟩ := h
  exact ⟨huser, hself, hamount, hcanonical, hid, ⟨view, hview, hasset⟩, hsettled, by omega, m, hlock,
    hmarket, rfl⟩

theorem deallocate_eq_ok {m : MarketLedger} {account : Account} :
    UserStockVaultLedger.deallocate l user marketId m account amount = .ok l' ↔
      amount ≤ l.allocated user ∧ amount ≤ m.marketAllocated ∧ amount ≤ l.totalAllocated ∧
      l' = { l with
        allocated := update l.allocated user (l.allocated user - amount)
        totalAllocated := l.totalAllocated - amount
        market := update l.market marketId { m with
          marketAllocated := m.marketAllocated - amount
          account := update m.account user account } } := by
  simp only [UserStockVaultLedger.deallocate, bind_eq_ok, usub_eq_ok, pure_eq_ok, Except.ok.injEq]
  constructor
  · rintro ⟨_, ⟨hle, rfl⟩, _, ⟨hmarket, rfl⟩, _, ⟨htotal, rfl⟩, rfl⟩
    exact ⟨hle, hmarket, htotal, rfl⟩
  · rintro ⟨hle, hmarket, htotal, rfl⟩
    exact ⟨_, ⟨hle, rfl⟩, _, ⟨hmarket, rfl⟩, _, ⟨htotal, rfl⟩, rfl⟩

/-- **A release** removes all the user has in the market. -/
theorem of_releaseAllocation
    (h : UserStockVaultLedger.releaseAllocation v w l assetUid user marketId = .ok (l', amount)) :
    user ≠ 0 ∧ Canonical v w assetUid ∧ amount = l.allocation user marketId ∧ amount ≠ 0 ∧
      ∃ m, removeRewardEligibility w.now (l.market marketId) user amount = .ok m ∧
        UserStockVaultLedger.deallocate l user marketId m { m.account user with allocation := 0 }
          amount = .ok l' := by
  simp only [UserStockVaultLedger.releaseAllocation, bind_eq_ok, revertIf_eq_ok,
    canonicalMarket_eq_ok, pure_eq_ok, Except.ok.injEq, Prod.mk.injEq, not_or] at h
  obtain ⟨-, ⟨huser, -⟩, _, ⟨hcanonical, -⟩, -, hamount, m, hremove, l₁, hdeallocate, rfl, rfl⟩ := h
  exact ⟨huser, hcanonical, rfl, hamount, m, hremove, hdeallocate⟩

/-- **A rage quit** does the same, and leaves a tombstone. -/
theorem of_rageQuitAllocationLedger
    (h : UserStockVaultLedger.rageQuitAllocationLedger v w l assetUid user marketId
      = .ok (l', amount)) :
    user ≠ 0 ∧ Canonical v w assetUid ∧ amount = l.allocation user marketId ∧ amount ≠ 0 ∧
      ∃ m, removeRewardEligibility w.now (l.market marketId) user amount = .ok m ∧
        UserStockVaultLedger.deallocate l user marketId m { m.account user with
          cutoff := m.latest, settlementPrincipal := amount, allocation := 0 } amount = .ok l' := by
  simp only [UserStockVaultLedger.rageQuitAllocationLedger, bind_eq_ok, revertIf_eq_ok,
    canonicalAsset_eq_ok, pure_eq_ok, Except.ok.injEq, Prod.mk.injEq, not_or] at h
  obtain ⟨-, ⟨huser, -⟩, -, -, _, ⟨hcanonical, -⟩, -, hamount, -, -, m, hremove, l₁, hdeallocate, rfl,
    rfl⟩ := h
  exact ⟨huser, hcanonical, rfl, hamount, m, hremove, hdeallocate⟩

/-- **A completion** removes the tombstone. -/
theorem of_completeRageQuitRewardSettlement
    (h : UserStockVaultLedger.completeRageQuitRewardSettlement l user marketId = .ok (l', amount)) :
    amount = ((l.market marketId).account user).settlementPrincipal ∧ amount ≠ 0 ∧
      l' = { l with
        market := update l.market marketId ((l.market marketId).completed user) } := by
  simp only [UserStockVaultLedger.completeRageQuitRewardSettlement, bind_eq_ok, revertIf_eq_ok,
    pure_eq_ok, Except.ok.injEq, Prod.mk.injEq] at h
  obtain ⟨-, hprincipal, rfl, rfl⟩ := h
  exact ⟨rfl, hprincipal, rfl⟩

theorem of_recordGaugeRewardState {quoteAccumulator memeAccumulator : ℕ}
    (h : UserStockVaultLedger.recordGaugeRewardState v w l assetUid marketId quoteAccumulator
      memeAccumulator = .ok l') :
    ∃ m, recordRewardState (l.market marketId) quoteAccumulator memeAccumulator = .ok m ∧
      l' = { l with market := update l.market marketId m } := by
  simp only [UserStockVaultLedger.recordGaugeRewardState, bind_eq_ok, pure_eq_ok,
    Except.ok.injEq] at h
  obtain ⟨-, -, m, hrecord, rfl⟩ := h
  exact ⟨m, hrecord, rfl⟩

end Specs

/-! ### The ledger of an asset -/

/-- **The ledger of an asset is sound** at a time. -/
structure LedgerSound (now : ℕ) (l : AssetLedger) : Prop where
  deposited : ∑ u, l.deposited u = l.totalDeposited
  allocated_eq : ∀ u, ∑ id, l.allocation u id = l.allocated u
  allocated_le : ∀ u, l.allocated u ≤ l.deposited u
  totalAllocated_eq : ∑ id, (l.market id).marketAllocated = l.totalAllocated
  bounded : l.totalDeposited ≤ maxUint256
  market : ∀ id, MarketSound now (l.market id)

theorem ledgerSound_empty (now : ℕ) : LedgerSound now AssetLedger.empty where
  deposited := Finset.sum_const_zero
  allocated_eq _ := Finset.sum_const_zero
  allocated_le _ := le_rfl
  totalAllocated_eq := Finset.sum_const_zero
  bounded := Nat.zero_le _
  market _ := marketSound_empty now

namespace LedgerSound

variable {now : ℕ} {l l' : AssetLedger} (h : LedgerSound now l)

include h

/-- Time passes, and the ledger stays sound. -/
theorem mono {t : ℕ} (hle : now ≤ t) : LedgerSound t l where
  deposited := h.deposited
  allocated_eq := h.allocated_eq
  allocated_le := h.allocated_le
  totalAllocated_eq := h.totalAllocated_eq
  bounded := h.bounded
  market id := (h.market id).mono hle

/-- **What is allocated was deposited**: the same sum, over the markets first or over the
users first. -/
theorem totalAllocated_le : l.totalAllocated ≤ l.totalDeposited :=
  calc l.totalAllocated = ∑ id, (l.market id).marketAllocated := h.totalAllocated_eq.symm
    _ = ∑ id, ∑ u, l.allocation u id :=
        Finset.sum_congr rfl fun id _ => (h.market id).marketAllocated_eq
    _ = ∑ u, ∑ id, l.allocation u id := Finset.sum_comm
    _ = ∑ u, l.allocated u := Finset.sum_congr rfl fun u _ => h.allocated_eq u
    _ ≤ ∑ u, l.deposited u := Sums.sum_le_sum h.allocated_le
    _ = l.totalDeposited := h.deposited

theorem allocation_le (user : Address) (marketId : Bytes32) :
    l.allocation user marketId ≤ l.allocated user := by
  rw [← h.allocated_eq]
  exact Sums.le_sum (fun id => l.allocation user id) marketId

theorem marketAllocated_le (marketId : Bytes32) :
    (l.market marketId).marketAllocated ≤ l.totalAllocated := by
  rw [← h.totalAllocated_eq]
  exact Sums.le_sum (fun id => (l.market id).marketAllocated) marketId

theorem deposited_le (user : Address) : l.deposited user ≤ l.totalDeposited := by
  rw [← h.deposited]
  exact Sums.le_sum l.deposited user

theorem allocation_le_market (user : Address) (marketId : Bytes32) :
    l.allocation user marketId ≤ (l.market marketId).marketAllocated := by
  rw [(h.market marketId).marketAllocated_eq]
  exact Sums.le_sum (fun u => l.allocation u marketId) user

/-- **What one user has deposited changes**, and the total with it. -/
theorem redeposited {user : Address} {n total : ℕ} (hn : l.allocated user ≤ n)
    (htotal : total + l.deposited user = l.totalDeposited + n) (hbounded : total ≤ maxUint256) :
    LedgerSound now
      { l with deposited := update l.deposited user n, totalDeposited := total } := by
  have hsum := Sums.sum_update l.deposited user n
  have hdeposited := h.deposited
  refine ⟨?_, h.allocated_eq, fun u => ?_, h.totalAllocated_eq, hbounded, h.market⟩
  · dsimp only
    omega
  · dsimp only
    rcases eq_or_ne u user with rfl | hne
    · rwa [update_self]
    · rw [update_of_ne hne]
      exact h.allocated_le u

/-- **What one user has allocated to one market changes**, and all totals with it. -/
theorem reallocated {user : Address} {marketId : Bytes32} {m : MarketLedger}
    {allocated total : ℕ} (hm : MarketSound now m)
    (hother : ∀ v, v ≠ user → (m.account v).allocation = l.allocation v marketId)
    (hallocated : allocated + l.allocation user marketId
      = l.allocated user + (m.account user).allocation)
    (hfree : allocated ≤ l.deposited user)
    (htotal : total + (l.market marketId).marketAllocated = l.totalAllocated + m.marketAllocated) :
    LedgerSound now { l with
      allocated := update l.allocated user allocated
      totalAllocated := total
      market := update l.market marketId m } := by
  refine ⟨h.deposited, fun u => ?_, fun u => ?_, ?_, h.bounded, fun id => ?_⟩ <;> dsimp only
  · have hoff : ∀ id, id ≠ marketId →
        ((update l.market marketId m id).account u).allocation = l.allocation u id :=
      fun id hid => by rw [update_of_ne hid]; rfl
    have hsum := Sums.sum_of_eq_off (fun id => l.allocation u id)
      (fun id => ((update l.market marketId m id).account u).allocation) hoff
    rw [update_self] at hsum
    have hbefore := h.allocated_eq u
    rcases eq_or_ne u user with rfl | hne
    · rw [update_self]
      exact Nat.add_right_cancel (by rw [hallocated, ← hbefore]; exact hsum)
    · rw [update_of_ne hne, ← hbefore]
      rw [hother u hne] at hsum
      exact Nat.add_right_cancel hsum
  · rcases eq_or_ne u user with rfl | hne
    · rwa [update_self]
    · rw [update_of_ne hne]
      exact h.allocated_le u
  · have hoff : ∀ id, id ≠ marketId → (update l.market marketId m id).marketAllocated
        = (l.market id).marketAllocated := fun id hid => by rw [update_of_ne hid]
    have hsum := Sums.sum_of_eq_off (fun id => (l.market id).marketAllocated)
      (fun id => (update l.market marketId m id).marketAllocated) hoff
    rw [update_self] at hsum
    have hbefore := h.totalAllocated_eq
    omega
  · rcases eq_or_ne id marketId with rfl | hne
    · rwa [update_self]
    · rw [update_of_ne hne]
      exact h.market id

/-- **A market changes without its allocations.** -/
theorem remarketed {marketId : Bytes32} {m : MarketLedger} (hm : MarketSound now m)
    (hallocation : ∀ u, (m.account u).allocation = l.allocation u marketId)
    (hmarket : m.marketAllocated = (l.market marketId).marketAllocated) :
    LedgerSound now { l with market := update l.market marketId m } := by
  have hsame : LedgerSound now { l with
      allocated := update l.allocated 0 (l.allocated 0)
      totalAllocated := l.totalAllocated
      market := update l.market marketId m } :=
    h.reallocated hm (fun v _ => hallocation v) (by rw [hallocation]) (h.allocated_le 0)
      (by rw [hmarket])
  rwa [update_eq_self] at hsame

section Operations

variable {v : Immutables} {w : World} {assetUid marketId : Bytes32} {user : Address} {amount : ℕ}
  {b : Balances}

theorem depositStock
    (hok : UserStockVaultDeposits.depositStock v w l assetUid user amount = .ok (l', b)) :
    LedgerSound now l' := by
  obtain ⟨-, -, -, -, -, htotal, rfl⟩ := of_depositStock hok
  have hle := h.allocated_le user
  exact h.redeposited (by omega) (by omega) htotal

theorem withdrawFreeStock
    (hok : UserStockVaultExits.withdrawFreeStock v w l assetUid user amount = .ok (l', b)) :
    LedgerSound now l' := by
  obtain ⟨-, -, hle, hfree, htotal, -, -, rfl⟩ := of_withdrawFreeStock hok
  have hbounded := h.bounded
  exact h.redeposited (by omega) (by omega) (by omega)

/-- The ledger a lock leaves. -/
theorem lockAllocation_eq (hnow : w.now = now)
    (hok : UserStockVaultLedger.lockAllocation v w l assetUid user marketId amount = .ok l') :
    l' = { l with
      allocated := update l.allocated user (l.allocated user + amount)
      totalAllocated := l.totalAllocated + amount
      market := update l.market marketId ((l.market marketId).withLock now user amount) } ∧
      MarketSound now ((l.market marketId).withLock now user amount) := by
  obtain ⟨-, -, -, -, -, -, hsettled, -, m, hlock, hmax, rfl⟩ := of_lockAllocation hok
  rw [hnow] at hlock
  have hm := h.market marketId
  obtain ⟨-, -, -, rfl⟩ := hm.of_lockRewardEligibility user hlock
  refine ⟨?_, hm.withLock user hlock hsettled hmax⟩
  have haccount : ((l.market marketId).locked now user amount).account user
      = { (l.market marketId).account user with
          pendingGeneration := now + rewardActivationDelay
          pendingAmount := ((l.market marketId).account user).pendingAt now + amount } :=
    update_self ..
  rw [haccount, MarketLedger.withLock, MarketLedger.locked, Account.lockedAt]
  dsimp only
  rw [update_idem]

theorem lockAllocation (hnow : w.now = now)
    (hok : UserStockVaultLedger.lockAllocation v w l assetUid user marketId amount = .ok l') :
    LedgerSound now l' := by
  obtain ⟨-, -, -, -, -, -, -, hfree, -⟩ := of_lockAllocation hok
  obtain ⟨rfl, hm⟩ := h.lockAllocation_eq hnow hok
  refine h.reallocated hm (fun u hu => ?_) ?_ hfree ?_
  · rw [withLock_account_of_ne hu]
    rfl
  · rw [withLock_account_self, Account.lockedAt, AssetLedger.allocation]
    dsimp only
    omega
  · rw [MarketLedger.withLock]
    dsimp only
    omega

/-- **The removal of an allocation**, which leaves the account of the user vacant. -/
theorem deallocate_eq {m : MarketLedger} {account : Account} (hvacant : account.Vacant)
    (hremove : removeRewardEligibility now (l.market marketId) user (l.allocation user marketId)
      = .ok m)
    (hok : UserStockVaultLedger.deallocate l user marketId m account (l.allocation user marketId)
      = .ok l') :
    l' = { l with
      allocated := update l.allocated user (l.allocated user - l.allocation user marketId)
      totalAllocated := l.totalAllocated - l.allocation user marketId
      market := update l.market marketId
        ((l.market marketId).withRemoval now user account) } ∧ LedgerSound now l' := by
  have hm := h.market marketId
  have hremoved : m = (l.market marketId).removed now user := by
    rw [AssetLedger.allocation, hm.removeRewardEligibility_eq user, Except.ok.injEq] at hremove
    exact hremove.symm
  subst hremoved
  obtain ⟨hle, -, htotal, rfl⟩ := deallocate_eq_ok.mp hok
  -- the two updates of the account are one
  have hmarket : { (l.market marketId).removed now user with
        marketAllocated := ((l.market marketId).removed now user).marketAllocated
          - l.allocation user marketId
        account := update ((l.market marketId).removed now user).account user account }
      = (l.market marketId).withRemoval now user account := by
    rw [MarketLedger.withRemoval, MarketLedger.removed]
    dsimp only
    rw [update_idem]
    rfl
  have hle_market := h.allocation_le_market user marketId
  have hle_user := h.allocated_le user
  rw [hmarket]
  refine ⟨rfl, h.reallocated (hm.withRemoval user hvacant) (fun u hu => ?_) ?_ (by omega) ?_⟩
  · rw [withRemoval_account_of_ne hu]
    rfl
  · rw [withRemoval_account_self, hvacant.allocation]
    omega
  · have hallocated : ((l.market marketId).withRemoval now user account).marketAllocated
        = (l.market marketId).marketAllocated - l.allocation user marketId := rfl
    omega

/-- The account a removal of the eligibility leaves. -/
theorem account_of_remove {m : MarketLedger}
    (hremove : removeRewardEligibility now (l.market marketId) user (l.allocation user marketId)
      = .ok m) :
    m.account user = { (l.market marketId).account user with
      pendingGeneration := 0, pendingAmount := 0 } ∧ m.latest = (l.market marketId).latest := by
  rw [AssetLedger.allocation, (h.market marketId).removeRewardEligibility_eq user,
    Except.ok.injEq] at hremove
  subst hremove
  exact ⟨update_self .., rfl⟩

/-- The ledger a release leaves. -/
theorem releaseAllocation_eq (hnow : w.now = now)
    (hok : UserStockVaultLedger.releaseAllocation v w l assetUid user marketId = .ok (l', amount)) :
    l' = { l with
      allocated := update l.allocated user (l.allocated user - amount)
      totalAllocated := l.totalAllocated - amount
      market := update l.market marketId ((l.market marketId).withRemoval now user
        ((l.market marketId).account user).released) } ∧ LedgerSound now l' := by
  obtain ⟨-, -, rfl, -, m, hremove, hdeallocate⟩ := of_releaseAllocation hok
  rw [hnow] at hremove
  rw [(h.account_of_remove hremove).1] at hdeallocate
  exact h.deallocate_eq (Account.vacant_released _) hremove hdeallocate

/-- The ledger a rage quit leaves. -/
theorem rageQuitAllocationLedger_eq (hnow : w.now = now)
    (hok : UserStockVaultLedger.rageQuitAllocationLedger v w l assetUid user marketId
      = .ok (l', amount)) :
    l' = { l with
      allocated := update l.allocated user (l.allocated user - amount)
      totalAllocated := l.totalAllocated - amount
      market := update l.market marketId ((l.market marketId).withRemoval now user
        (((l.market marketId).account user).quit (l.market marketId).latest)) } ∧
      LedgerSound now l' := by
  obtain ⟨-, -, rfl, -, m, hremove, hdeallocate⟩ := of_rageQuitAllocationLedger hok
  rw [hnow] at hremove
  obtain ⟨haccount, hlatest⟩ := h.account_of_remove hremove
  rw [haccount, hlatest] at hdeallocate
  exact h.deallocate_eq (Account.vacant_quit _ _) hremove hdeallocate

theorem completeRageQuitRewardSettlement
    (hok : UserStockVaultLedger.completeRageQuitRewardSettlement l user marketId
      = .ok (l', amount)) : LedgerSound now l' := by
  obtain ⟨-, -, rfl⟩ := of_completeRageQuitRewardSettlement hok
  refine h.remarketed ((h.market marketId).completed user) (fun u => ?_) rfl
  rcases eq_or_ne u user with rfl | hne
  · rw [completed_account_self]
    rfl
  · rw [completed_account_of_ne hne]
    rfl

theorem recordGaugeRewardState {quoteAccumulator memeAccumulator : ℕ}
    (hok : UserStockVaultLedger.recordGaugeRewardState v w l assetUid marketId quoteAccumulator
      memeAccumulator = .ok l') : LedgerSound now l' := by
  obtain ⟨m, hrecord, rfl⟩ := of_recordGaugeRewardState hok
  obtain ⟨-, -, rfl, hm⟩ := (h.market marketId).recorded hrecord
  exact h.remarketed hm (fun _ => rfl) rfl

end Operations

end LedgerSound

/-! ### The vault -/

/-- An account the vault has an allocation of, in a market it has accepted. -/
structure Opened (v : Immutables) (w : World) (assetUid : Bytes32) (user : Address)
    (marketId : Bytes32) : Prop where
  user_ne : user ≠ 0
  user_ne_self : user ≠ v.self
  user_ne_manager : user ≠ v.allocationManager
  market_ne : marketId ≠ 0
  market : ∃ view, w.registries.markets marketId = some view ∧ view.config.assetUid = assetUid

/-- **The vault is sound**: the ledger of each asset is, and the tokens are there. -/
structure StateSound (v : Immutables) (s : State) : Prop where
  assetsSound : Registries.AssetsSound s.world.registries
  hasCode : s.world.hasCode v.self = true
  ledger : ∀ assetUid, LedgerSound s.world.now (s.ledger assetUid)
  canonical : ∀ assetUid, (s.ledger assetUid).totalDeposited ≠ 0 → Canonical v s.world assetUid
  covered : ∀ assetUid, (s.ledger assetUid).totalDeposited
    ≤ s.world.balances (s.world.registries.asset assetUid).stockToken v.self
  opened : ∀ assetUid user marketId, (s.ledger assetUid).allocation user marketId ≠ 0 →
    Opened v s.world assetUid user marketId

section Vault

variable {platform : Platform} {bindings : MarketRegistry.Bindings} {v : Immutables} {s s' : State}

theorem stateSound_of_init (h : Init v s) : StateSound v s where
  assetsSound := h.assetsSound
  hasCode := h.hasCode
  ledger assetUid := by
    rw [h.ledger assetUid]
    exact ledgerSound_empty _
  canonical assetUid hne := by
    rw [h.ledger assetUid] at hne
    exact absurd rfl hne
  covered assetUid := by
    rw [h.ledger assetUid]
    exact Nat.zero_le _
  opened assetUid user marketId hne := by
    rw [h.ledger assetUid] at hne
    exact absurd rfl hne

namespace StateSound

variable (h : StateSound v s) {assetUid marketId : Bytes32} {user : Address} {amount : ℕ}
  {l : AssetLedger} {b : Balances}

include h

/-- **The world changes, and the vault stays sound.** -/
theorem evolves {w : World} (hw : World.Evolves platform bindings (· = v.self) s.world w) :
    StateSound v { s with world := w } where
  assetsSound := hw.assetsSound h.assetsSound
  hasCode := hw.hasCode _ h.hasCode
  ledger assetUid := (h.ledger assetUid).mono hw.now_le
  canonical assetUid hne := (h.canonical assetUid hne).of_evolves hw h.assetsSound
  covered assetUid := by
    rcases eq_or_ne (s.ledger assetUid).totalDeposited 0 with h0 | hne
    · dsimp only
      rw [h0]
      exact Nat.zero_le _
    · dsimp only
      rw [(h.canonical assetUid hne).stockToken_eq hw]
      exact (h.covered assetUid).trans (hw.balances_le _ rfl _)
  opened assetUid user marketId hne := by
    obtain ⟨h1, h2, h3, h4, view, hview, hasset⟩ := h.opened assetUid user marketId hne
    obtain ⟨runtime, hview'⟩ := hw.frozen.markets marketId view hview
    exact ⟨h1, h2, h3, h4, _, hview', hasset⟩

/-- **One asset's ledger is replaced**, with the tokens that belong to it. -/
theorem put (hl : LedgerSound s.world.now l)
    (hcanonical : l.totalDeposited ≠ 0 → Canonical v s.world assetUid)
    (hcovered : l.totalDeposited ≤ b (s.world.registries.asset assetUid).stockToken v.self)
    (hother : ∀ token, token ≠ (s.world.registries.asset assetUid).stockToken →
      b token v.self = s.world.balances token v.self)
    (hset : b ≠ s.world.balances → Canonical v s.world assetUid)
    (hopened : ∀ u id, l.allocation u id ≠ 0 → (s.ledger assetUid).allocation u id ≠ 0 ∨
      Opened v s.world assetUid u id) : StateSound v (s.put assetUid l b) := by
  have hself : (s.put assetUid l b).ledger assetUid = l := update_self ..
  have hne : ∀ id, id ≠ assetUid → (s.put assetUid l b).ledger id = s.ledger id :=
    fun id hid => update_of_ne hid _ _
  refine ⟨h.assetsSound, h.hasCode, fun id => ?_, fun id hid => ?_, fun id => ?_,
    fun id u m hid => ?_⟩
  · rcases eq_or_ne id assetUid with rfl | hid
    · rw [hself]
      exact hl
    · rw [hne id hid]
      exact h.ledger id
  · rcases eq_or_ne id assetUid with rfl | hid'
    · rw [hself] at hid
      obtain ⟨h1, h2, h3, h4, h5⟩ := hcanonical hid
      exact ⟨h1, h2, h3, h4, h5⟩
    · rw [hne id hid'] at hid
      obtain ⟨h1, h2, h3, h4, h5⟩ := h.canonical id hid
      exact ⟨h1, h2, h3, h4, h5⟩
  · rcases eq_or_ne id assetUid with rfl | hid
    · rw [hself]
      exact hcovered
    · rw [hne id hid]
      rcases eq_or_ne (s.ledger id).totalDeposited 0 with h0 | hdeposited
      · rw [h0]
        exact Nat.zero_le _
      · -- another asset has another token
        have hcovered' := h.covered id
        by_cases hb : b = s.world.balances
        · rw [hb]
          exact hcovered'
        · have htoken : (s.world.registries.asset id).stockToken
              ≠ (s.world.registries.asset assetUid).stockToken := fun heq =>
            hid (h.assetsSound.token_injective (h.canonical id hdeposited).status_ne
              (hset hb).status_ne heq)
          exact hcovered'.trans (hother _ htoken).ge
  · rcases eq_or_ne id assetUid with rfl | hid'
    · rw [hself] at hid
      rcases hopened u m hid with hold | ⟨h1, h2, h3, h4, h5⟩
      · obtain ⟨h1, h2, h3, h4, h5⟩ := h.opened id u m hold
        exact ⟨h1, h2, h3, h4, h5⟩
      · exact ⟨h1, h2, h3, h4, h5⟩
    · rw [hne id hid'] at hid
      obtain ⟨h1, h2, h3, h4, h5⟩ := h.opened id u m hid
      exact ⟨h1, h2, h3, h4, h5⟩

/-- A ledger is replaced that deposits nothing and opens nothing; no tokens move. -/
theorem put_same (hl : LedgerSound s.world.now l)
    (htotal : l.totalDeposited = (s.ledger assetUid).totalDeposited)
    (hopened : ∀ u id, l.allocation u id ≠ 0 → (s.ledger assetUid).allocation u id ≠ 0 ∨
      Opened v s.world assetUid u id) : StateSound v (s.put assetUid l s.world.balances) :=
  h.put hl (fun hne => h.canonical assetUid (by rwa [htotal] at hne))
    (by rw [htotal]; exact h.covered assetUid) (fun _ _ => rfl) (fun hc => absurd rfl hc) hopened

theorem depositStock (hok : UserStockVaultDeposits.depositStock v s.world (s.ledger assetUid)
    assetUid user amount = .ok (l, b)) : StateSound v (s.put assetUid l b) := by
  have hl := (h.ledger assetUid).depositStock hok
  obtain ⟨-, huser, -, hcanonical, hmove, -, rfl⟩ := of_depositStock hok
  refine h.put hl (fun _ => hcanonical) ?_ (fun token htoken => ?_) (fun _ => hcanonical)
    fun u id hne => Or.inl hne
  · have hgain := Balances.move_recipient hmove huser
    have hcovered := h.covered assetUid
    dsimp only
    omega
  · exact Balances.move_other hmove htoken _

theorem withdrawFreeStock (hok : UserStockVaultExits.withdrawFreeStock v s.world
    (s.ledger assetUid) assetUid user amount = .ok (l, b)) : StateSound v (s.put assetUid l b) := by
  have hl := (h.ledger assetUid).withdrawFreeStock hok
  obtain ⟨-, hcanonical, -, -, -, hmove, hpaid, rfl⟩ := of_withdrawFreeStock hok
  refine h.put hl (fun _ => hcanonical) ?_ (fun token htoken => ?_) (fun _ => hcanonical)
    fun u id hne => Or.inl hne
  · have hcovered := h.covered assetUid
    dsimp only
    omega
  · exact Balances.move_other hmove htoken _

theorem lockAllocation (huser : user ≠ v.allocationManager)
    (hok : UserStockVaultLedger.lockAllocation v s.world (s.ledger assetUid) assetUid user marketId
      amount = .ok l) : StateSound v (s.put assetUid l s.world.balances) := by
  have hl := (h.ledger assetUid).lockAllocation rfl hok
  obtain ⟨hzero, hself, -, -, hid, hview, -, -, -⟩ := of_lockAllocation hok
  obtain ⟨rfl, -⟩ := (h.ledger assetUid).lockAllocation_eq rfl hok
  refine h.put_same hl rfl fun u id hne => ?_
  rw [AssetLedger.allocation] at hne
  dsimp only at hne
  rcases eq_or_ne id marketId with rfl | hid'
  · rw [update_self] at hne
    rcases eq_or_ne u user with rfl | hu
    · exact Or.inr ⟨hzero, hself, huser, hid, hview⟩
    · rw [withLock_account_of_ne hu] at hne
      exact Or.inl hne
  · rw [update_of_ne hid'] at hne
    exact Or.inl hne

/-- A removal of an allocation opens nothing. -/
theorem put_removal {account : Account} (hvacant : account.Vacant)
    (hl : LedgerSound s.world.now l)
    (heq : l = { s.ledger assetUid with
      allocated := update (s.ledger assetUid).allocated user
        ((s.ledger assetUid).allocated user - amount)
      totalAllocated := (s.ledger assetUid).totalAllocated - amount
      market := update (s.ledger assetUid).market marketId
        (((s.ledger assetUid).market marketId).withRemoval s.world.now user account) }) :
    StateSound v (s.put assetUid l s.world.balances) := by
  subst heq
  refine h.put_same hl rfl fun u id hne => Or.inl ?_
  rw [AssetLedger.allocation] at hne
  dsimp only at hne
  rcases eq_or_ne id marketId with rfl | hid
  · rw [update_self] at hne
    rcases eq_or_ne u user with rfl | hu
    · rw [withRemoval_account_self] at hne
      exact absurd hvacant.allocation hne
    · rwa [withRemoval_account_of_ne hu] at hne
  · rwa [update_of_ne hid] at hne

theorem releaseAllocation (hok : UserStockVaultLedger.releaseAllocation v s.world
    (s.ledger assetUid) assetUid user marketId = .ok (l, amount)) :
    StateSound v (s.put assetUid l s.world.balances) := by
  obtain ⟨heq, hl⟩ := (h.ledger assetUid).releaseAllocation_eq rfl hok
  exact h.put_removal (Account.vacant_released _) hl heq

theorem rageQuitAllocationLedger (hok : UserStockVaultLedger.rageQuitAllocationLedger v s.world
    (s.ledger assetUid) assetUid user marketId = .ok (l, amount)) :
    StateSound v (s.put assetUid l s.world.balances) := by
  obtain ⟨heq, hl⟩ := (h.ledger assetUid).rageQuitAllocationLedger_eq rfl hok
  exact h.put_removal (Account.vacant_quit _ _) hl heq

theorem completeRageQuitRewardSettlement
    (hok : UserStockVaultLedger.completeRageQuitRewardSettlement (s.ledger assetUid) user marketId
      = .ok (l, amount)) : StateSound v (s.put assetUid l s.world.balances) := by
  have hl := (h.ledger assetUid).completeRageQuitRewardSettlement hok
  obtain ⟨-, -, rfl⟩ := of_completeRageQuitRewardSettlement hok
  refine h.put_same hl rfl fun u id hne => Or.inl ?_
  rw [AssetLedger.allocation] at hne
  dsimp only at hne
  rcases eq_or_ne id marketId with rfl | hid
  · rw [update_self] at hne
    rcases eq_or_ne u user with rfl | hu
    · rwa [completed_account_self] at hne
    · rwa [completed_account_of_ne hu] at hne
  · rwa [update_of_ne hid] at hne

theorem recordGaugeRewardState {quoteAccumulator memeAccumulator : ℕ}
    (hok : UserStockVaultLedger.recordGaugeRewardState v s.world (s.ledger assetUid) assetUid
      marketId quoteAccumulator memeAccumulator = .ok l) :
    StateSound v (s.put assetUid l s.world.balances) := by
  have hl := (h.ledger assetUid).recordGaugeRewardState hok
  obtain ⟨m, hrecord, rfl⟩ := of_recordGaugeRewardState hok
  obtain ⟨-, -, rfl, -⟩ := ((h.ledger assetUid).market marketId).recorded hrecord
  refine h.put_same hl rfl fun u id hne => Or.inl ?_
  rw [AssetLedger.allocation] at hne
  dsimp only at hne
  rcases eq_or_ne id marketId with rfl | hid
  · rwa [update_self] at hne
  · rwa [update_of_ne hid] at hne

omit h in
/-- A withdrawal after another operation on the same asset. -/
theorem put_put {l₁ : AssetLedger} : (s.put assetUid l₁ s.world.balances).put assetUid l b
    = s.put assetUid l b := by
  rw [State.put, State.put, State.put]
  dsimp only
  rw [update_idem]

omit h in
/-- **A release or a rage quit followed by a withdrawal.** -/
theorem andWithdraw {l₁ : AssetLedger} (h₁ : StateSound v (s.put assetUid l₁ s.world.balances))
    (hok : UserStockVaultExits.withdrawFreeStock v s.world l₁ assetUid user amount = .ok (l, b)) :
    StateSound v (s.put assetUid l b) := by
  have hledger : (s.put assetUid l₁ s.world.balances).ledger assetUid = l₁ :=
    update_self ..
  have hput : (s.put assetUid l₁ s.world.balances).put assetUid l b = s.put assetUid l b := put_put
  rw [← hput]
  refine h₁.withdrawFreeStock (?_ : UserStockVaultExits.withdrawFreeStock v _ _ assetUid user amount
    = _)
  rw [hledger]
  exact hok

end StateSound

/-- **One step keeps the vault sound.** -/
theorem stateSound_of_step {u : Unit} (h : StateSound v s) (hstep : Step platform bindings v s u s') :
    StateSound v s' := by
  cases hstep with
  | depositStock caller assetUid amount hok =>
    simp only [depositStock, bind_eq_ok, pure_eq_ok, Except.ok.injEq] at hok
    obtain ⟨⟨l, b⟩, hok, rfl⟩ := hok
    exact h.depositStock hok
  | depositStockFor caller assetUid user amount hok =>
    simp only [depositStockFor, bind_eq_ok, pure_eq_ok, Except.ok.injEq] at hok
    obtain ⟨-, -, ⟨l, b⟩, hok, rfl⟩ := hok
    exact h.depositStock hok
  | withdrawFreeStock caller assetUid amount hok =>
    simp only [withdrawFreeStock, bind_eq_ok, pure_eq_ok, Except.ok.injEq] at hok
    obtain ⟨⟨l, b⟩, hok, rfl⟩ := hok
    exact h.withdrawFreeStock hok
  | rageQuit caller assetUid marketId amount hok =>
    simp only [rageQuit, UserStockVaultExits.rageQuitAndWithdraw, bind_eq_ok, pure_eq_ok,
      Except.ok.injEq, Prod.mk.injEq] at hok
    obtain ⟨_, ⟨⟨l₁, n⟩, hquit, ⟨l, b⟩, hpay, rfl⟩, rfl, -⟩ := hok
    exact StateSound.andWithdraw (h.rageQuitAllocationLedger hquit) hpay
  | lockAllocation caller assetUid user marketId amount huser hok =>
    simp only [lockAllocation, bind_eq_ok, pure_eq_ok, Except.ok.injEq] at hok
    obtain ⟨-, -, l, hok, rfl⟩ := hok
    exact h.lockAllocation huser hok
  | releaseAllocationAndWithdraw caller assetUid user marketId amount hok =>
    simp only [releaseAllocationAndWithdraw, UserStockVaultExits.releaseAllocationAndWithdraw,
      bind_eq_ok, pure_eq_ok, Except.ok.injEq, Prod.mk.injEq] at hok
    obtain ⟨-, -, _, ⟨⟨l₁, n⟩, hrelease, ⟨l, b⟩, hpay, rfl⟩, rfl, -⟩ := hok
    exact StateSound.andWithdraw (h.releaseAllocation hrelease) hpay
  | releaseAllocation caller assetUid user marketId amount hok =>
    simp only [releaseAllocation, bind_eq_ok, pure_eq_ok, Except.ok.injEq, Prod.mk.injEq] at hok
    obtain ⟨-, -, ⟨l, n⟩, hok, rfl, -⟩ := hok
    exact h.releaseAllocation hok
  | rageQuitAllocation caller assetUid user marketId amount hok =>
    simp only [rageQuitAllocation, UserStockVaultExits.rageQuitAndWithdraw, bind_eq_ok, pure_eq_ok,
      Except.ok.injEq, Prod.mk.injEq] at hok
    obtain ⟨-, -, _, ⟨⟨l₁, n⟩, hquit, ⟨l, b⟩, hpay, rfl⟩, rfl, -⟩ := hok
    exact StateSound.andWithdraw (h.rageQuitAllocationLedger hquit) hpay
  | completeRageQuitRewardSettlement caller assetUid user marketId principal hok =>
    simp only [completeRageQuitRewardSettlement, bind_eq_ok, pure_eq_ok, Except.ok.injEq,
      Prod.mk.injEq] at hok
    obtain ⟨-, -, ⟨l, n⟩, hok, rfl, -⟩ := hok
    exact h.completeRageQuitRewardSettlement hok
  | recordGaugeRewardState caller assetUid marketId quoteAccumulator memeAccumulator hok =>
    simp only [recordGaugeRewardState, bind_eq_ok, pure_eq_ok, Except.ok.injEq] at hok
    obtain ⟨-, -, l, hok, rfl⟩ := hok
    exact h.recordGaugeRewardState hok
  | world hw => exact h.evolves hw

/-- **Every reachable state is sound.** -/
theorem stateSound_of_reachable (h : Reachable v platform bindings s) : StateSound v s :=
  h.invariant (I := StateSound v) (fun _ => stateSound_of_init)
    fun _ _ _ hs hstep => stateSound_of_step hs hstep

/-- **The principal ledger**: how the seven ledgers of an asset fit together, and the
tokens behind them. -/
structure PrincipalLedger (v : Immutables) (s : State) : Prop where
  deposited : ∀ assetUid, ∑ user, (s.ledger assetUid).deposited user
    = (s.ledger assetUid).totalDeposited
  allocated : ∀ assetUid user,
    ∑ marketId, (s.ledger assetUid).allocation user marketId = (s.ledger assetUid).allocated user ∧
      (s.ledger assetUid).allocated user ≤ (s.ledger assetUid).deposited user
  marketAllocated : ∀ assetUid marketId,
    ∑ user, (s.ledger assetUid).allocation user marketId
        = ((s.ledger assetUid).market marketId).marketAllocated ∧
      ((s.ledger assetUid).market marketId).marketAllocated
        = ((s.ledger assetUid).market marketId).eligibility.active
          + ((s.ledger assetUid).market marketId).eligibility.pending
  totalAllocated : ∀ assetUid,
    ∑ marketId, ((s.ledger assetUid).market marketId).marketAllocated
        = (s.ledger assetUid).totalAllocated ∧
      (s.ledger assetUid).totalAllocated ≤ (s.ledger assetUid).totalDeposited
  settled : ∀ assetUid user marketId, (s.ledger assetUid).allocation user marketId ≠ 0 →
    (((s.ledger assetUid).market marketId).account user).settlementPrincipal = 0
  covered : ∀ assetUid, (s.ledger assetUid).totalDeposited
    ≤ s.world.balances (s.world.registries.asset assetUid).stockToken v.self

/-- **The principal ledger holds in every reachable state**, after any run of deposits,
withdrawals, locks, releases, rage quits and checkpoints, in any order. -/
theorem principal_ledger (h : Reachable v platform bindings s) : PrincipalLedger v s := by
  have hs := stateSound_of_reachable h
  refine ⟨fun id => ?_, fun id u => ⟨?_, ?_⟩, fun id m => ⟨?_, ?_⟩, fun id => ⟨?_, ?_⟩,
    fun id u m hne => ?_, hs.covered⟩
  · exact (hs.ledger id).deposited
  · exact (hs.ledger id).allocated_eq u
  · exact (hs.ledger id).allocated_le u
  · exact ((hs.ledger id).market m).marketAllocated_eq.symm
  · rw [((hs.ledger id).market m).marketAllocated_eq, ((hs.ledger id).market m).total]
  · exact (hs.ledger id).totalAllocated_eq
  · exact (hs.ledger id).totalAllocated_le
  · exact ((hs.ledger id).market m).settled u hne

end Vault

/-! ### A small vault

One asset, whose token is account 100, and one market that stakes it. User 200 deposits
a thousand tokens and allocates half of them. -/

namespace Sample

/-- The vault is account 50, its manager account 60. -/
def vault : Immutables := ⟨50, 60⟩

/-- The bindings of the market. -/
def bindings : MarketRegistry.Bindings := ⟨20, 9, 6⟩

theorem zero_ne_memeToken : (0 : Address) ≠ 5 := by decide

theorem hookPermissions_graduatedHook :
    (0x2044 : Address) &&& PoolMath.allHookPermissionBits = PoolMath.hookPermissionMask := by decide

theorem isAllowed_zero : StaticLPFee.isAllowed 0 = true := by decide

/-- The market. -/
def config : RegisteredConfig where
  assetUid := 1
  tickerGardenBaselineId := 2
  quoteAssetConfigId := 3
  launchTemplateId := 4
  feePolicyId := 5
  executionSpecId := 6
  expectedEconomics := 7
  launchConfigId := 0
  creatorRevenueBeneficiaryAtCreation := 12
  memeToken := 5
  curve := 7
  gauge := 70
  quoteAsset := 0
  graduatedHook := 0x2044
  creatorTaxBps := 100
  creatorFeesToHolders := true
  stakingEnabled := true
  burnMemeFees := false
  lpFeePips := 0
  identified := by decide
  quoteAsset_ne_memeToken := zero_ne_memeToken
  hook_permissions := hookPermissions_graduatedHook
  stakingShape := by decide
  lpFee_allowed := isAllowed_zero

/-- One asset is registered, and one market. -/
def registries : Registries where
  asset id := if id = 1
    then { stockToken := 100, userStockVault := 50, tokenDecimals := 18, status := 1 }
    else { stockToken := 0, userStockVault := 0, tokenDecimals := 0, status := 0 }
  assetIdentityCurrent _ := true
  minimumAllocation _ := 414
  assetUidByStockToken token := if token = 100 then 1 else 0
  assetPausedAt _ := 0
  quoteConfig _ := {
    tickerGardenBaselineId := 2, quoteAsset := 0, quoteDecimals := 18, phantomQuote := 100,
    graduationThreshold := 100, economicsHash := 3, status := configStatusActive }
  quoteIdentityCurrent _ := true
  quotePausedAt _ := 0
  baseline _ := {
    referenceChainId := 1, referenceFactory := 1, referenceFactoryCodeHash := 1,
    launchConfigId := 0, supply := 400, curveFeeBps := 100, poolFee := 0, tickSpacing := 1,
    behaviorVectorRoot := 1, status := configStatusActive }
  baselinePausedAt _ := 0
  launchTemplate _ := {
    graduatedHook := 0x2044, graduationExecutor := 9, feePolicyId := 5, executionSpecId := 6,
    status := configStatusActive }
  markets id := if id = 1 then some ⟨config, ⟨0, 1, launchPhasePoolCreated⟩⟩ else none
  marketIdsByToken token := if token = 5 then 1 else 0

/-- A user has five thousand of the stock. -/
def world : World where
  registries := registries
  hasCode _ := true
  now := 1000
  balances token holder := if token = 100 ∧ holder = 200 then 5000 else 0

/-- The vault before the first deposit. -/
def start : State := ⟨world, fun _ => AssetLedger.empty⟩

/-- One asset is registered. -/
theorem eq_one_of_status {id : Bytes32} (hset : (registries.asset id).status ≠ 0) : id = 1 := by
  by_contra hid
  exact hset (congrArg AssetView.status (if_neg hid))

theorem assetsSound : Registries.AssetsSound registries where
  sound id hset := by
    obtain rfl := eq_one_of_status hset
    exact ⟨by decide, by decide, by decide, by decide, by decide, by decide⟩
  token_uid id hset := by
    obtain rfl := eq_one_of_status hset
    rfl

theorem init_start : Init vault start := ⟨assetsSound, rfl, fun _ => rfl⟩

/-- The deposit. -/
def deposit : Except Revert State := depositStock vault 200 start 1 1000

theorem deposit_isOk : deposit.isOk = true := by decide +kernel

/-- The allocation. -/
def lock : Except Revert State := lockAllocation vault 60 (value deposit deposit_isOk) 1 200 1 500

theorem lock_isOk : lock.isOk = true := by decide +kernel

/-- The vault after both. -/
def locked : State := value lock lock_isOk

theorem reachable_locked : Reachable vault DocumentedV4.platform bindings locked :=
  ((Transition.Reachable.of_init init_start).next
    (Step.depositStock 200 1 1000 (eq_ok_value deposit_isOk))).next
      (Step.lockAllocation 60 1 200 1 500 (by decide) (eq_ok_value lock_isOk))

end Sample

/-- The principal of the small vault. -/
theorem principal_ledger_sample : PrincipalLedger Sample.vault Sample.locked :=
  principal_ledger Sample.reachable_locked

end UserStockVault

end TickerGarden
