import TickerGarden.Staking.AllocationManager
import TickerGarden.Vault.Principal

/-!
# A rage quit is never blocked

Whoever has an allocation can leave with it, at any time and in any state of the asset,
of the market and of the gauge: through the vault, and through the manager. Both go
through `TickerGarden.UserStockVaultExits.rageQuitAndWithdraw`, whose every guard follows
from the soundness of the vault; the manager's own checks follow from what the registries
keep about a market. The gauge is an arbitrary interface here, and may fail in any way.
-/

namespace TickerGarden

open Checked Function

namespace UserStockVault

variable {platform : Platform} {bindings : MarketRegistry.Bindings} {v : Immutables}
  {s s' : State} {assetUid marketId : Bytes32} {user : Address}

/-- The same vault at another time. -/
def State.atTime (s : State) (t : ℕ) : State := { s with world := { s.world with now := t } }

/-- Time alone can pass. -/
theorem evolves_atTime {custodian : Address → Prop} {w : World} {t : ℕ} (h : w.now ≤ t) :
    World.Evolves platform bindings custodian w { w with now := t } where
  registries := ⟨[], .refl _⟩
  now_le := h
  hasCode _ ha := ha
  balances_le _ _ _ := le_rfl

/-- **What a rage quit does**: the whole allocation goes from the vault to the user, and
nobody else's account is touched. -/
structure Escaped (v : Immutables) (assetUid : Bytes32) (user : Address) (marketId : Bytes32)
    (s s' : State) : Prop where
  paid : s'.world.balances (s.world.registries.asset assetUid).stockToken user
    = s.world.balances (s.world.registries.asset assetUid).stockToken user
      + (s.ledger assetUid).allocation user marketId
  charged : s'.world.balances (s.world.registries.asset assetUid).stockToken v.self
      + (s.ledger assetUid).allocation user marketId
    = s.world.balances (s.world.registries.asset assetUid).stockToken v.self
  allocation : (s'.ledger assetUid).allocation user marketId = 0
  deposited : ∀ id u, id ≠ assetUid ∨ u ≠ user →
    (s'.ledger id).deposited u = (s.ledger id).deposited u
  allocated : ∀ id u, id ≠ assetUid ∨ u ≠ user →
    (s'.ledger id).allocated u = (s.ledger id).allocated u
  account : ∀ id m u, id ≠ assetUid ∨ m ≠ marketId ∨ u ≠ user →
    ((s'.ledger id).market m).account u = ((s.ledger id).market m).account u

namespace StateSound

variable (h : StateSound v s) (hne : (s.ledger assetUid).allocation user marketId ≠ 0)

include h

variable (assetUid marketId user) in
/-- What is allocated was deposited. -/
theorem allocation_le_totalDeposited :
    (s.ledger assetUid).allocation user marketId ≤ (s.ledger assetUid).totalDeposited :=
  ((h.ledger assetUid).allocation_le user marketId).trans
    (((h.ledger assetUid).allocated_le user).trans ((h.ledger assetUid).deposited_le user))

include hne

/-- The vault accepts an asset it has an allocation of. -/
theorem canonical_of_allocation : Canonical v s.world assetUid := by
  have hle := h.allocation_le_totalDeposited assetUid marketId user
  exact h.canonical assetUid (by omega)

/-- **The ledger of a rage quit always goes through.** -/
theorem rageQuitAllocationLedger_isOk :
    ∃ l, UserStockVaultLedger.rageQuitAllocationLedger v s.world (s.ledger assetUid) assetUid user
      marketId = .ok (l, (s.ledger assetUid).allocation user marketId) := by
  have hl := h.ledger assetUid
  have hm := hl.market marketId
  have hopened := h.opened assetUid user marketId hne
  have hcanonical := canonicalAsset_eq_ok.mpr ⟨h.canonical_of_allocation hne, rfl⟩
  have hsettled := hm.settled user hne
  have hremove : removeRewardEligibility s.world.now ((s.ledger assetUid).market marketId) user
      ((s.ledger assetUid).allocation user marketId)
      = .ok (((s.ledger assetUid).market marketId).removed s.world.now user) :=
    hm.removeRewardEligibility_eq user
  obtain ⟨l, hdeallocate⟩ : ∃ l, UserStockVaultLedger.deallocate (s.ledger assetUid) user marketId
      (((s.ledger assetUid).market marketId).removed s.world.now user)
      { (((s.ledger assetUid).market marketId).removed s.world.now user).account user with
        cutoff := (((s.ledger assetUid).market marketId).removed s.world.now user).latest
        settlementPrincipal := (s.ledger assetUid).allocation user marketId
        allocation := 0 }
      ((s.ledger assetUid).allocation user marketId) = .ok l :=
    ⟨_, deallocate_eq_ok.mpr ⟨hl.allocation_le user marketId, hl.allocation_le_market user marketId,
      (hl.allocation_le_market user marketId).trans (hl.marketAllocated_le marketId), rfl⟩⟩
  refine ⟨l, ?_⟩
  rw [UserStockVaultLedger.rageQuitAllocationLedger,
    revertIf_neg (not_or.mpr ⟨hopened.user_ne, hopened.user_ne_self⟩), ok_bind,
    revertIf_neg hopened.market_ne, ok_bind, hcanonical, ok_bind]
  dsimp only
  rw [AssetLedger.allocation] at hne hremove hdeallocate ⊢
  rw [revertIf_neg hne, ok_bind, revertIf_neg (not_not.mpr hsettled), ok_bind, hremove, ok_bind,
    hdeallocate]
  rfl

end StateSound

/-- **A withdrawal the vault can afford goes through**, and exactly the amount moves. -/
theorem withdrawFreeStock_isOk {w : World} {l : AssetLedger} {amount : ℕ} (hamount : amount ≠ 0)
    (hcanonical : Canonical v w assetUid) (huser : user ≠ v.self)
    (hle : l.allocated user ≤ l.deposited user)
    (hfree : amount ≤ l.deposited user - l.allocated user) (htotal : amount ≤ l.totalDeposited)
    (hcovered : amount ≤ w.balances (w.registries.asset assetUid).stockToken v.self) :
    ∃ b, UserStockVaultExits.withdrawFreeStock v w l assetUid user amount
        = .ok ({ l with
          deposited := update l.deposited user (l.deposited user - amount)
          totalDeposited := l.totalDeposited - amount }, b) ∧
      b (w.registries.asset assetUid).stockToken user
        = w.balances (w.registries.asset assetUid).stockToken user + amount ∧
      b (w.registries.asset assetUid).stockToken v.self + amount
        = w.balances (w.registries.asset assetUid).stockToken v.self := by
  obtain ⟨b, hmove⟩ : ∃ b, w.balances.move (w.registries.asset assetUid).stockToken v.self user
      amount = some b := Balances.move_isSome hcovered
  have hpaid := Balances.move_recipient hmove huser.symm
  have hcharged := Balances.move_sender hmove huser.symm
  refine ⟨b, ?_, hpaid, by omega⟩
  simp only [UserStockVaultExits.withdrawFreeStock, bind_eq_ok, revertIf_eq_ok, canonicalAsset_eq_ok,
    freeBalanceOf_eq_ok, orRevert_eq_ok, usub_eq_ok, pure_eq_ok, Except.ok.injEq, not_or, not_not,
    not_lt]
  refine ⟨(), hamount, _, ⟨hcanonical, rfl⟩, _, ⟨hle, rfl⟩, (), hfree, _, ⟨by omega, rfl⟩, _,
    ⟨htotal, rfl⟩, b, hmove, (), ⟨?_, ?_⟩, rfl⟩
  · rw [hcharged, if_pos (Nat.sub_le _ _)]
    omega
  · rw [hpaid, if_pos (Nat.le_add_right _ _)]
    omega

namespace StateSound

variable (h : StateSound v s) (hne : (s.ledger assetUid).allocation user marketId ≠ 0)

include h hne

/-- **A rage quit always goes through**, and pays the allocation. -/
theorem rageQuitAndWithdraw_isOk :
    ∃ l b, UserStockVaultExits.rageQuitAndWithdraw v s.world (s.ledger assetUid) assetUid user marketId
        = .ok (l, b, (s.ledger assetUid).allocation user marketId) ∧
      Escaped v assetUid user marketId s (s.put assetUid l b) := by
  have hl := h.ledger assetUid
  have hopened := h.opened assetUid user marketId hne
  obtain ⟨l₁, hquit⟩ := h.rageQuitAllocationLedger_isOk hne
  obtain ⟨heq, hl₁⟩ := hl.rageQuitAllocationLedger_eq rfl hquit
  have hallocation := hl.allocation_le user marketId
  have hallocated := hl.allocated_le user
  have htotal := h.allocation_le_totalDeposited assetUid marketId user
  -- what is released is free to be withdrawn
  have hself : l₁.allocated user
      = (s.ledger assetUid).allocated user - (s.ledger assetUid).allocation user marketId := by
    rw [heq]
    exact update_self ..
  have hdeposited : l₁.deposited = (s.ledger assetUid).deposited := by rw [heq]
  have htotalDeposited : l₁.totalDeposited = (s.ledger assetUid).totalDeposited := by rw [heq]
  obtain ⟨b, hpay, hpaid, hcharged⟩ := withdrawFreeStock_isOk (l := l₁) hne
    (h.canonical_of_allocation hne) hopened.user_ne_self (by rw [hself, hdeposited]; omega)
    (by rw [hself, hdeposited]; omega) (by rw [htotalDeposited]; exact htotal)
    (htotal.trans (h.covered assetUid))
  refine ⟨{ l₁ with
    deposited := update l₁.deposited user
      (l₁.deposited user - (s.ledger assetUid).allocation user marketId)
    totalDeposited := l₁.totalDeposited - (s.ledger assetUid).allocation user marketId },
    b, ?_, ?_⟩
  · rw [UserStockVaultExits.rageQuitAndWithdraw, hquit, ok_bind]
    dsimp only
    rw [hpay]
    rfl
  · subst heq
    refine ⟨hpaid, hcharged, ?_, fun id u hid => ?_, fun id u hid => ?_, fun id m u hid => ?_⟩
    · rw [State.put]
      dsimp only
      rw [update_self, AssetLedger.allocation]
      dsimp only
      rw [update_self, withRemoval_account_self]
      rfl
    · exact Sums.field_update (AssetLedger.deposited · u) fun hid' =>
        update_of_ne (hid.resolve_left (not_not.mpr hid')) _ _
    · exact Sums.field_update (AssetLedger.allocated · u) fun hid' =>
        update_of_ne (hid.resolve_left (not_not.mpr hid')) _ _
    · refine Sums.field_update (fun l : AssetLedger => (l.market m).account u) fun hid' =>
        Sums.field_update (MarketLedger.account · u) fun hm => withRemoval_account_of_ne ?_
      exact (hid.resolve_left (not_not.mpr hid')).resolve_left (not_not.mpr hm)

/-- The manager finds the market of an allocation. -/
theorem rageQuitContext_isOk : ∃ context : AllocationManager.ExitContext,
    AllocationManager.rageQuitContext s.world marketId = .ok context ∧
      context.assetUid = assetUid := by
  have hopened := h.opened assetUid user marketId hne
  have hcanonical := h.canonical_of_allocation hne
  obtain ⟨view, hview, rfl⟩ := hopened.market
  have hsound := h.assetsSound.sound _ hcanonical.status_ne
  refine ⟨⟨view.config.gauge, view.config.assetUid⟩, ?_, rfl⟩
  simp only [AllocationManager.rageQuitContext, MarketRegistry.market, bind_eq_ok, revertIf_eq_ok,
    orRevert_eq_ok, pure_eq_ok, not_or, not_not, not_lt]
  refine ⟨(), hopened.market_ne, view, hview, (), ⟨hcanonical.status_ne, hcanonical.status_le,
    hsound.decimals_ge, hsound.decimals_le, hcanonical.hasCode, ?_, hsound.token_ne_vault⟩, rfl⟩
  rw [hcanonical.vault]
  exact h.hasCode

end StateSound

/-- Removing the tombstone touches nobody else. -/
theorem Escaped.completed {v' : Immutables} {caller : Address} {principal : ℕ} {s₁ s₂ : State}
    (h : Escaped v assetUid user marketId s s₁)
    (hok : completeRageQuitRewardSettlement v' caller s₁ assetUid user marketId
      = .ok (s₂, principal)) : Escaped v assetUid user marketId s s₂ := by
  simp only [completeRageQuitRewardSettlement, bind_eq_ok, pure_eq_ok, Except.ok.injEq,
    Prod.mk.injEq] at hok
  obtain ⟨-, -, ⟨l, n⟩, hok, rfl, -⟩ := hok
  obtain ⟨-, -, rfl⟩ := of_completeRageQuitRewardSettlement hok
  refine ⟨h.paid, h.charged, ?_, fun id u hid => ?_, fun id u hid => ?_, fun id m u hid => ?_⟩
  · rw [State.put]
    dsimp only
    rw [update_self, AssetLedger.allocation]
    dsimp only
    rw [update_self, completed_account_self]
    exact h.allocation
  · rw [← h.deposited id u hid]
    exact Sums.field_update (AssetLedger.deposited · u) fun _ => rfl
  · rw [← h.allocated id u hid]
    exact Sums.field_update (AssetLedger.allocated · u) fun _ => rfl
  · rw [← h.account id m u hid]
    refine Sums.field_update (fun l : AssetLedger => (l.market m).account u) fun hid' =>
      Sums.field_update (MarketLedger.account · u) fun hm => completed_account_of_ne ?_
    exact (hid.resolve_left (not_not.mpr hid')).resolve_left (not_not.mpr hm)

/-- **The cleanup cannot take the escape back**, whatever the gauge does. -/
theorem Escaped.tryComplete {G : Type} {s₁ : State} (h : Escaped v assetUid user marketId s s₁)
    (calls : AllocationManager.GaugeCalls G) (gas : AllocationManager.Gas)
    (context : AllocationManager.ExitContext) (g : G) (principal : ℕ)
    (hcontext : context.assetUid = assetUid) :
    Escaped v assetUid user marketId s
      (AllocationManager.tryCompleteRageQuitRewards calls v user marketId gas context principal s₁
        g).1.1 := by
  rw [AllocationManager.tryCompleteRageQuitRewards]
  split
  · exact h
  · split
    · exact h
    · split
      · exact h
      · split
        · exact h
        · split
          · exact h
          · split
            · exact h
            · rename_i s₂ completed hcompletion
              have hok : completeRageQuitRewardSettlement v v.allocationManager s₁ context.assetUid
                  user marketId = .ok (s₂, completed) := (ifGas_eq_ok.mp hcompletion).2
              rw [hcontext] at hok
              split
              · exact h.completed hok
              · exact h.completed hok

/-- **A rage quit is never blocked.** In every reachable state, at every later time,
whoever has an allocation can leave with it, through the vault and through the manager,
whatever the gauge answers and however much gas there is for the cleanup. -/
theorem rage_quit_never_blocked (hs : Reachable v platform bindings s) {t : ℕ}
    (ht : s.world.now ≤ t) (hne : (s.ledger assetUid).allocation user marketId ≠ 0) :
    (∃ s', rageQuit v user (s.atTime t) assetUid marketId
        = .ok (s', (s.ledger assetUid).allocation user marketId) ∧
      Escaped v assetUid user marketId (s.atTime t) s') ∧
    ∀ (G : Type) (calls : AllocationManager.GaugeCalls G) (gas : AllocationManager.Gas) (g : G),
      ∃ s' g' quoteForfeited memeForfeited completed,
        AllocationManager.rageQuitAllocationWithSettlement calls v user marketId gas (s.atTime t) g
          = .ok ((s', g'), (s.ledger assetUid).allocation user marketId, quoteForfeited,
              memeForfeited, completed) ∧
        Escaped v assetUid user marketId (s.atTime t) s' := by
  have htime : World.Evolves platform bindings (· = v.self) s.world { s.world with now := t } :=
    evolves_atTime ht
  have hsound : StateSound v (s.atTime t) := (stateSound_of_reachable hs).evolves htime
  have hne' : ((s.atTime t).ledger assetUid).allocation user marketId ≠ 0 := hne
  obtain ⟨l, b, hquit, hescaped⟩ := hsound.rageQuitAndWithdraw_isOk hne'
  refine ⟨⟨(s.atTime t).put assetUid l b, ?_, hescaped⟩, fun G calls gas g => ?_⟩
  · rw [rageQuit, hquit]
    rfl
  · obtain ⟨context, hcontext, hasset⟩ := hsound.rageQuitContext_isOk hne'
    have hopened := hsound.opened assetUid user marketId hne'
    subst hasset
    have hgone := hescaped.allocation
    let principal := (s.ledger context.assetUid).allocation user marketId
    let after := AllocationManager.tryCompleteRageQuitRewards calls v user marketId gas context
      principal ((s.atTime t).put context.assetUid l b) g
    refine ⟨after.1.1, after.1.2, after.2.1, after.2.2.1, after.2.2.2, ?_,
      hescaped.tryComplete calls gas context g principal rfl⟩
    rw [AllocationManager.rageQuitAllocationWithSettlement,
      revertIf_neg (not_or.mpr ⟨hopened.user_ne, hopened.user_ne_manager⟩), ok_bind, hcontext, ok_bind]
    dsimp only
    rw [revertIf_neg hne', ok_bind, rageQuitAllocation, onlyAllocationManager,
      revertIf_neg (not_not.mpr rfl), ok_bind, hquit, ok_bind]
    dsimp only
    rw [pure_eq_ok, ok_bind]
    dsimp only
    rw [revertIf_neg (not_or.mpr ⟨not_not.mpr rfl, not_not.mpr hgone⟩), ok_bind]
    rfl

/-- The user of the small vault leaves ten seconds later, before the allocation counts. -/
theorem rage_quit_never_blocked_sample :
    ∃ s', rageQuit Sample.vault 200 (Sample.locked.atTime 1010) 1 1
        = .ok (s', (Sample.locked.ledger 1).allocation 200 1) ∧
      Escaped Sample.vault 1 200 1 (Sample.locked.atTime 1010) s' :=
  (rage_quit_never_blocked Sample.reachable_locked (by decide +kernel) (by decide +kernel)).1

end UserStockVault

end TickerGarden
