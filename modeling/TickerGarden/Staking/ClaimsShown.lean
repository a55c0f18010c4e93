import TickerGarden.Staking.ActivationWheels

/-!
# The claim that is shown

A gauge shows a user what it could claim, `positionOf`, and pays it out in
`consumeClaimableAssets`. The two compute it apart: the view walks the terms of the stored
position, and the payment first checkpoints the wheel, materialises what is pending and
settles the rewards, with the additions in another order. In every run they agree,
`TickerGarden.MemeStockGauge.claims_shown`: what is shown is what is paid, and what is shown
afterwards is what was not selected.

The settlement leaves a position that is *settled*, `TickerGarden.MemeStockGauge.Settled`:
its rewards are paid up to the accumulators, and nothing of what is pending is recorded in a
snapshot. Of such a position the view shows the stored claim, and paying one asset out keeps
it settled.
-/

namespace TickerGarden

open Checked TimingWheel

namespace MemeStockGauge

open UserStockVault (Immutables State)

/-! ### One term -/

section Term

variable {reward reward' : GaugeUserReward} {amount starting current claimable remainder : ℕ}

/-- **The view of a term** that accrues: the claim and the fraction, added up in another
order. -/
theorem previewTerm_of_accrueRewardTerm
    (hok : accrueRewardTerm reward amount starting current = .ok reward') :
    previewTerm reward.pendingFee reward.userRemainder amount starting current
      = .ok (reward'.pendingFee, reward'.userRemainder) ∧
      starting ≤ current ∧ reward'.userRemainder < indexPrecision ∧
      reward'.accumulatorPaid = reward.accumulatorPaid := by
  simp only [accrueRewardTerm, bind_eq_ok, revertIf_eq_ok, not_lt, not_le] at hok
  obtain ⟨_, hle, _, hremainder, hok⟩ := hok
  rw [previewTerm, revertIf_neg (not_lt.mpr hle), ok_bind, revertIf_neg (not_le.mpr hremainder), ok_bind]
  dsimp only
  split at hok
  · rename_i hnone
    obtain rfl := Except.ok.inj hok
    rw [if_pos hnone]
    exact ⟨rfl, hle, hremainder, rfl⟩
  · rename_i hsome
    simp only [bind_eq_ok, uadd_eq_ok, pure_eq_ok, Except.ok.injEq] at hok
    obtain ⟨whole, hwhole, _, ⟨hmerged, rfl⟩, _, ⟨-, rfl⟩, _, ⟨hclaim, rfl⟩, rfl⟩ := hok
    rw [if_neg hsome]
    simp only [bind_eq_ok, uadd_eq_ok, pure_eq_ok, Except.ok.injEq, Prod.mk.injEq]
    refine ⟨⟨whole, hwhole, _, ⟨hmerged, rfl⟩, _, ⟨?_, rfl⟩, _, ⟨?_, rfl⟩, ?_, rfl⟩, hle,
      Nat.mod_lt _ (by decide), trivial⟩
    · exact (Nat.add_le_add_left (Nat.le_add_right _ _) _).trans hclaim
    · rwa [Nat.add_assoc]
    · exact Nat.add_assoc _ _ _

/-- Nothing accrues while the accumulator stands still. -/
theorem previewTerm_self (hremainder : remainder < indexPrecision) :
    previewTerm claimable remainder amount current current = .ok (claimable, remainder) := by
  rw [previewTerm, revertIf_neg (lt_irrefl current), ok_bind, revertIf_neg (not_le.mpr hremainder), ok_bind]
  dsimp only
  rw [if_pos (Or.inr (Nat.sub_self current))]

theorem accrueRewardTerm_self (hok : accrueRewardTerm reward amount current current = .ok reward') :
    reward' = reward := by
  simp only [accrueRewardTerm, bind_eq_ok] at hok
  obtain ⟨-, -, -, -, hok⟩ := hok
  rw [if_pos (Or.inr (Nat.sub_self current))] at hok
  exact (Except.ok.inj hok).symm

end Term

/-! ### Settled positions -/

/-- **A position is settled**: its rewards are paid up to the accumulators. -/
structure Settled (s : Storage) (user : Address) : Prop where
  paid : ∀ i, ((s.positions user).rewards i).accumulatorPaid = s.accumulators i
  remainder : ∀ i, ((s.positions user).rewards i).userRemainder < indexPrecision
  /-- What is pending has not been activated. -/
  unrecorded : s.pendingAmount user = 0 ∨ (s.snapshots (s.generation user)).refs = 0

section Positions

variable {id : GaugeIdentity} {caller : Address} {vs : State} {s s' : Storage} {user : Address}
  {now : ℕ} {i : RewardIndex}

/-- The claim of a position whose pending amount earns nothing is that of its active one. -/
theorem previewClaimable_active {claimable remainder : ℕ}
    (hnone : s.pendingAmount user = 0 ∨ (s.snapshots (s.generation user)).refs = 0)
    (hactive : previewTerm ((s.positions user).rewards i).pendingFee
      ((s.positions user).rewards i).userRemainder (s.positions user).activeAmount
      ((s.positions user).rewards i).accumulatorPaid (s.accumulators i)
        = .ok (claimable, remainder)) : previewClaimable s user i = .ok claimable := by
  rw [previewClaimable, previewClaimableAt]
  dsimp only
  rw [hactive, ok_bind]
  dsimp only
  refine if_neg ?_
  rintro ⟨hpending, hrefs, -⟩
  exact hnone.elim (fun h0 => hpending h0) fun h0 => hrefs h0

/-- **Of a settled position the stored claim is shown.** -/
theorem Settled.previewClaimable_eq (h : Settled s user) (i : RewardIndex) :
    previewClaimable s user i = .ok ((s.positions user).rewards i).pendingFee := by
  have hactive : previewTerm ((s.positions user).rewards i).pendingFee
      ((s.positions user).rewards i).userRemainder (s.positions user).activeAmount
      ((s.positions user).rewards i).accumulatorPaid (s.accumulators i)
      = .ok (((s.positions user).rewards i).pendingFee, ((s.positions user).rewards i).userRemainder) := by
    rw [h.paid i]
    exact previewTerm_self (h.remainder i)
  exact previewClaimable_active h.unrecorded hactive

/-- **The rewards of the active amount are settled.** -/
theorem settled_of_settleActivePosition
    (hnone : s.pendingAmount user = 0 ∨ (s.snapshots (s.generation user)).refs = 0)
    (hok : settleActivePosition user s = .ok s') : Settled s' user ∧
      ∀ i, ∃ remainder, previewTerm ((s.positions user).rewards i).pendingFee
        ((s.positions user).rewards i).userRemainder (s.positions user).activeAmount
        ((s.positions user).rewards i).accumulatorPaid (s.accumulators i)
          = .ok (((s'.positions user).rewards i).pendingFee, remainder) := by
  obtain ⟨p, hsettle, rfl⟩ := of_settleActivePosition hok
  have hterm := (settleRewards_eq_ok.mp hsettle).1
  have hrewards : ∀ i, ∃ reward, accrueRewardTerm ((s.positions user).rewards i)
      (s.positions user).activeAmount ((s.positions user).rewards i).accumulatorPaid
      (s.accumulators i) = .ok reward ∧
        p.rewards i = { reward with accumulatorPaid := s.accumulators i } := fun i => by
    have hi := hterm i
    simp only [settleRewardToCurrent, bind_eq_ok, pure_eq_ok, Except.ok.injEq] at hi
    obtain ⟨reward, haccrue, heq⟩ := hi
    exact ⟨reward, haccrue, heq.symm⟩
  refine ⟨⟨fun i => ?_, fun i => ?_, ?_⟩, fun i => ?_⟩
  · obtain ⟨reward, -, hreward⟩ := hrewards i
    rw [setPosition_self]
    dsimp only
    rw [hreward]
    rfl
  · obtain ⟨reward, haccrue, hreward⟩ := hrewards i
    rw [setPosition_self]
    dsimp only
    rw [hreward]
    exact (previewTerm_of_accrueRewardTerm haccrue).2.2.1
  · rw [Storage.pendingAmount, Storage.generation, setPosition_self]
    exact hnone
  · obtain ⟨reward, haccrue, hreward⟩ := hrewards i
    refine ⟨reward.userRemainder, ?_⟩
    rw [setPosition_self]
    dsimp only
    rw [hreward]
    exact (previewTerm_of_accrueRewardTerm haccrue).1

/-- **The claim of a position that is materialised**: what the active amount earns, and what
the pending one has earned since its snapshot. -/
theorem previewClaimable_materialized {settled : GaugePosition} {snapshot : StoredActivationSnapshot}
    (hpending : s.pendingAmount user ≠ 0)
    (hsnapshot : s.snapshots (s.generation user) = snapshot ∧ snapshot.refs ≠ 0 ∨
      (s.snapshots (s.generation user)).refs = 0 ∧ snapshot.accumulator = s.accumulators)
    (hsettle : settleMaterializingPosition (s.positions user) snapshot s.accumulators = .ok settled)
    (i : RewardIndex) :
    previewClaimable s user i = .ok (settled.rewards i).pendingFee ∧
      (settled.rewards i).userRemainder < indexPrecision ∧
      (settled.rewards i).accumulatorPaid = s.accumulators i := by
  have hi := (settleRewards_eq_ok.mp hsettle).1 i
  simp only [settleMaterializingReward, bind_eq_ok, pure_eq_ok, Except.ok.injEq] at hi
  obtain ⟨active, hactive, pending, haccrue, heq⟩ := hi
  obtain ⟨hpreview, -, -, -⟩ := previewTerm_of_accrueRewardTerm hactive
  obtain ⟨hpreview', hle, hremainder, -⟩ := previewTerm_of_accrueRewardTerm haccrue
  rw [← heq]
  refine ⟨?_, hremainder, rfl⟩
  rcases hsnapshot with ⟨hsnapshot, hrefs⟩ | ⟨hrefs, hcurrent⟩
  · rw [previewClaimable, previewClaimableAt]
    dsimp only
    rw [hpreview, ok_bind]
    dsimp only
    change (if s.pendingAmount user ≠ 0 ∧ (s.snapshots (s.generation user)).refs ≠ 0 ∧
      (s.snapshots (s.generation user)).accumulator i ≤ s.accumulators i then
        previewTerm active.pendingFee active.userRemainder (s.positions user).pendingAmount
          ((s.snapshots (s.generation user)).accumulator i) (s.accumulators i) >>= _ else _) = _
    rw [hsnapshot, if_pos ⟨hpending, hrefs, hle⟩, hpreview']
    rfl
  · -- the slot is activated now, and has earned nothing
    rw [hcurrent] at haccrue
    rw [accrueRewardTerm_self haccrue]
    exact previewClaimable_active (Or.inr hrefs) hpreview

variable (h : WheelSound vs.world.now s)

include h

/-- **A settlement leaves a settled position**, with the claim that was shown before. -/
theorem settled_of_settlePosition (hok : settlePosition id vs s user = .ok s') :
    Settled s' user ∧
      ∀ i, previewClaimable s user i = .ok ((s'.positions user).rewards i).pendingFee := by
  simp only [settlePosition, bind_eq_ok] at hok
  obtain ⟨s₁, hcheck, -, -, s₂, hmat, hsettle⟩ := hok
  obtain ⟨s₀, hforfeited, h₀, rfl⟩ := of_checkpointRewardActivations h hcheck
  -- the checkpoint leaves the positions and the accumulators
  have hpositions : (s₀.checkpointed vs.world.now s₀.accumulators).positions user = s.positions user :=
    congrFun hforfeited.positions user
  have haccumulators : (s₀.checkpointed vs.world.now s₀.accumulators).accumulators = s.accumulators :=
    hforfeited.accumulators
  have hzero : s.generation user = 0 ↔ s.pendingAmount user = 0 := h.generation_eq_zero
  have hgeneration : (s₀.checkpointed vs.world.now s₀.accumulators).generation user
      = s.generation user := congrArg GaugePosition.pendingGeneration hpositions
  rcases of_materializePending h₀.checkpointed hmat with ⟨rfl, hlive⟩ | ⟨settled, hg, hrefs, hmat', rfl⟩
  · -- nothing was activated for the user
    have hunrecorded : s.pendingAmount user = 0 ∨
        Live (s₀.checkpointed vs.world.now s₀.accumulators).wheel (s.generation user) := by
      rcases eq_or_ne (s.generation user) 0 with hg | hg
      · exact Or.inl (hzero.mp hg)
      · rw [hgeneration] at hlive
        exact Or.inr (hlive hg)
    have hbefore : s.pendingAmount user = 0 ∨ (s.snapshots (s.generation user)).refs = 0 :=
      hunrecorded.imp_right fun hl => by
        have hl' : Live s.wheel (s.generation user) := by
          rw [← hforfeited.wheel]
          exact (live_checkpointed.mp hl).1
        rw [h.snapshot_of_live hl']
        rfl
    have hafter : (s₀.checkpointed vs.world.now s₀.accumulators).pendingAmount user = 0 ∨
        ((s₀.checkpointed vs.world.now s₀.accumulators).snapshots
          ((s₀.checkpointed vs.world.now s₀.accumulators).generation user)).refs = 0 := by
      rw [Storage.pendingAmount, hpositions, hgeneration]
      refine hunrecorded.imp_right fun hl => ?_
      rw [h₀.checkpointed.snapshot_of_live hl]
      rfl
    obtain ⟨hsettled, hterms⟩ := settled_of_settleActivePosition hafter hsettle
    refine ⟨hsettled, fun i => ?_⟩
    obtain ⟨remainder, hterm⟩ := hterms i
    rw [hpositions, haccumulators] at hterm
    exact previewClaimable_active hbefore hterm
  · rw [hpositions, haccumulators] at hmat'
    rw [hgeneration] at hg hrefs hmat'
    -- the snapshot was there, or it is recorded at the accumulators of now
    have hsnapshot : s.snapshots (s.generation user)
          = (s₀.checkpointed vs.world.now s₀.accumulators).snapshots (s.generation user) ∧
        ((s₀.checkpointed vs.world.now s₀.accumulators).snapshots (s.generation user)).refs ≠ 0 ∨
      (s.snapshots (s.generation user)).refs = 0 ∧
        ((s₀.checkpointed vs.world.now s₀.accumulators).snapshots (s.generation user)).accumulator
          = s.accumulators := by
      rw [Storage.checkpointed] at hrefs ⊢
      dsimp only at hrefs ⊢
      by_cases hdue : Live s₀.wheel (s.generation user) ∧ s.generation user ≤ vs.world.now
      · rw [if_pos hdue]
        have hl : Live s.wheel (s.generation user) := hforfeited.wheel ▸ hdue.1
        refine Or.inr ⟨?_, hforfeited.accumulators⟩
        rw [h.snapshot_of_live hl]
        rfl
      · rw [if_neg hdue] at hrefs ⊢
        exact Or.inl ⟨(congrFun hforfeited.snapshots _).symm, hrefs⟩
    have hpending : s.pendingAmount user ≠ 0 := fun hc => hg (hzero.mpr hc)
    have hshown := previewClaimable_materialized hpending hsnapshot hmat'
    obtain ⟨hsettled, hterms⟩ := settled_of_settleActivePosition
      (Or.inl (congrArg GaugePosition.pendingAmount materializedWith_self)) hsettle
    refine ⟨hsettled, fun i => ?_⟩
    obtain ⟨hclaim, hremainder, hpaid⟩ := hshown i
    obtain ⟨remainder, hterm⟩ := hterms i
    -- the second settlement finds the rewards paid
    rw [materializedWith_self] at hterm
    change previewTerm (settled.rewards i).pendingFee (settled.rewards i).userRemainder _
      (settled.rewards i).accumulatorPaid
      ((s₀.checkpointed vs.world.now s₀.accumulators).accumulators i) = _ at hterm
    rw [hpaid, haccumulators, previewTerm_self hremainder, Except.ok.injEq, Prod.mk.injEq] at hterm
    rw [hclaim, hterm.1]

end Positions

/-! ### Payments -/

section Payments

variable {id : GaugeIdentity} {caller : Address} {vs : State} {s s' : Storage} {user : Address}
  {i j : RewardIndex}

/-- What is left of a reward that is paid out. -/
theorem rewards_consumeClaimable : (((consumeClaimable s user i).1.positions user).rewards j)
    = if j = i then { (s.positions user).rewards i with pendingFee := 0 }
      else (s.positions user).rewards j := by
  rw [consumeClaimable]
  dsimp only
  rw [setPosition_self]
  dsimp only
  split
  · rename_i hj
    rw [hj, Function.update_self]
  · rename_i hj
    rw [Function.update_of_ne hj]

/-- **Paying a reward out keeps the position settled.** -/
theorem Settled.consumed (h : Settled s user) : Settled (consumeClaimable s user i).1 user where
  paid j := by
    rw [rewards_consumeClaimable]
    split
    · rename_i hj
      rw [hj]
      exact h.paid i
    · exact h.paid j
  remainder j := by
    rw [rewards_consumeClaimable]
    split
    · exact h.remainder i
    · exact h.remainder j
  unrecorded := by
    have hposition : (consumeClaimable s user i).1.pendingAmount user = s.pendingAmount user ∧
        (consumeClaimable s user i).1.generation user = s.generation user := by
      rw [consumeClaimable, Storage.pendingAmount, Storage.generation, setPosition_self]
      exact ⟨rfl, rfl⟩
    rw [hposition.1, hposition.2]
    exact h.unrecorded

/-- **One asset of a claim**, paid out if it is selected: what is paid and what is left of it
add up, and the other asset is left. -/
theorem Settled.paidOut {selected : Prop} [Decidable selected] {out : Storage × ℕ}
    (h : Settled s user)
    (hout : out = if selected then consumeClaimable s user i else (s, 0)) :
    Settled out.1 user ∧
      out.2 = (if selected then ((s.positions user).rewards i).pendingFee else 0) ∧
      ((out.1.positions user).rewards i).pendingFee + out.2 = ((s.positions user).rewards i).pendingFee ∧
      ∀ j, j ≠ i → (out.1.positions user).rewards j = (s.positions user).rewards j := by
  subst hout
  split
  · refine ⟨h.consumed, rfl, ?_, fun j hj => ?_⟩
    · rw [rewards_consumeClaimable, if_pos rfl]
      exact Nat.zero_add _
    · rw [rewards_consumeClaimable, if_neg hj]
  · exact ⟨h, rfl, rfl, fun _ _ => rfl⟩

/-- A user that has not left is shown the claims at the accumulators of now. -/
theorem positionOf_eq {u : Unit} {quote meme : ℕ}
    (hstayed : requireNoRageQuitSettlement id vs user = .ok u)
    (hquote : previewClaimable s user .quote = .ok quote)
    (hmeme : previewClaimable s user .meme = .ok meme) :
    positionOf id vs s user = .ok {
      activeAmount := s.activeAmount user
      pendingAmount := s.pendingAmount user
      pendingGeneration := s.generation user
      unlockAt := (s.positions user).unlockAt
      quoteClaimable := quote
      memeClaimable := meme } := by
  simp only [requireNoRageQuitSettlement, AllocationManager.rageQuitSettlementPending, bind_eq_ok,
    revertIf_eq_ok, pure_eq_ok, Except.ok.injEq, Prod.mk.injEq, Prod.exists] at hstayed
  obtain ⟨_, _, ⟨principal, _, _, hcutoff, rfl, rfl⟩, hzero⟩ := hstayed
  have hprincipal : principal = 0 := by simpa using hzero
  rw [positionOf, hcutoff, ok_bind]
  dsimp only
  rw [if_pos hprincipal, hquote, ok_bind]
  rw [if_pos hprincipal, hmeme, ok_bind]
  rfl

end Payments

/-! ### Every run -/

/-- **The claims of a gauge are shown as they are paid.** -/
structure ClaimsShown (id : GaugeIdentity) (vs : State) (s : Storage) : Prop where
  /-- What is paid of the selected assets is what was shown of them. What is shown afterwards
  is the rest, and the stock is the same. -/
  selected : ∀ caller user assets s' quote meme,
    consumeClaimableAssets id caller vs s user assets = .ok (s', quote, meme) →
    ∃ before after, positionOf id vs s user = .ok before ∧ positionOf id vs s' user = .ok after ∧
      quote = (if assets &&& 1 ≠ 0 then before.quoteClaimable else 0) ∧
      meme = (if assets &&& 2 ≠ 0 then before.memeClaimable else 0) ∧
      after.quoteClaimable + quote = before.quoteClaimable ∧
      after.memeClaimable + meme = before.memeClaimable ∧
      after.activeAmount + after.pendingAmount = before.activeAmount + before.pendingAmount
  /-- A claim of both assets pays all that was shown, and leaves nothing. -/
  both : ∀ caller user s' quote meme, consumeClaimableBoth id caller vs s user = .ok (s', quote, meme) →
    ∃ before after, positionOf id vs s user = .ok before ∧ positionOf id vs s' user = .ok after ∧
      quote = before.quoteClaimable ∧ meme = before.memeClaimable ∧ after.quoteClaimable = 0 ∧
      after.memeClaimable = 0

section Results

variable {id : GaugeIdentity} {caller : Address} {vs : State} {s s' : Storage} {user : Address}

/-- What a claim of the selected assets pays, and what is shown before and after it. -/
theorem shown_of_consumeClaimableAssets (h : WheelSound vs.world.now s) {assets : BitVec 8}
    {quote meme : ℕ} (hok : consumeClaimableAssets id caller vs s user assets = .ok (s', quote, meme)) :
    ∃ before after, positionOf id vs s user = .ok before ∧ positionOf id vs s' user = .ok after ∧
      quote = (if assets &&& 1 ≠ 0 then before.quoteClaimable else 0) ∧
      meme = (if assets &&& 2 ≠ 0 then before.memeClaimable else 0) ∧
      after.quoteClaimable + quote = before.quoteClaimable ∧
      after.memeClaimable + meme = before.memeClaimable ∧
      after.activeAmount + after.pendingAmount = before.activeAmount + before.pendingAmount := by
  have hstock : s'.stock user + 0 = s.stock user + 0 := (moves_consumeClaimableAssets h hok).stock_eq
  simp only [consumeClaimableAssets, bind_eq_ok, pure_eq_ok, Except.ok.injEq, Prod.mk.injEq] at hok
  obtain ⟨-, -, -, -, _, hstayed, -, -, s₁, hsettle, hs', hquote, hmeme⟩ := hok
  obtain ⟨hsettled, hshown⟩ := settled_of_settlePosition h hsettle
  generalize hfirst : (if assets &&& 1 ≠ 0 then consumeClaimable s₁ user .quote else (s₁, 0)) = first
    at hs' hquote hmeme
  generalize hsecond : (if assets &&& 2 ≠ 0 then consumeClaimable first.1 user .meme else (first.1, 0))
    = second at hs' hmeme
  obtain ⟨hsettled₁, hpaid₁, hleft₁, hother₁⟩ := hsettled.paidOut hfirst.symm
  obtain ⟨hsettled₂, hpaid₂, hleft₂, hother₂⟩ := hsettled₁.paidOut hsecond.symm
  subst hs' hquote hmeme
  refine ⟨_, _, positionOf_eq hstayed (hshown .quote) (hshown .meme),
    positionOf_eq hstayed (hsettled₂.previewClaimable_eq .quote) (hsettled₂.previewClaimable_eq .meme),
    hpaid₁, ?_, ?_, ?_, hstock⟩
  · rw [hpaid₂, hother₁ .meme (by decide)]
  · rw [hother₂ .quote (by decide)]
    exact hleft₁
  · rw [hleft₂, hother₁ .meme (by decide)]

end Results

/-- **What is shown is paid, in every run** of the vault and the gauge. -/
theorem claims_shown {platform : Platform} {bindings : MarketRegistry.Bindings}
    {id : GaugeIdentity} {self : Address} {v : Immutables} {x y : State × Storage}
    {effects : List Effect} (h : Init v x)
    (hrun : Transition.Run (Step id self v platform bindings) x effects y) :
    ClaimsShown id y.1 y.2 := by
  have hwheel : WheelSound y.1.world.now y.2 := (sound_of_run h hrun).1.wheel
  refine ⟨fun caller user assets s' quote meme hok => shown_of_consumeClaimableAssets hwheel hok,
    fun caller user s' quote meme hok => ?_⟩
  obtain ⟨before, after, hbefore, hafter, hquote, hmeme, hquote', hmeme', -⟩ :=
    shown_of_consumeClaimableAssets hwheel hok
  rw [if_pos (by decide)] at hquote hmeme
  exact ⟨before, after, hbefore, hafter, hquote, hmeme, by omega, by omega⟩

/-! ### A fee that is claimed

A thousand of the token are credited to the small gauge, whose only user claims them once
its position is unlocked. -/

namespace Sample

open UserStockVault.Sample (vault bindings start)

/-- The credit. -/
def credit : Except Revert ((State × Storage) × Effect) :=
  runCall identity 70 vault 61 settled (.creditStakerFee 5 1000 1)

/-- What it leaves. -/
def credited : (State × Storage) × Effect := value credit (by decide +kernel)

theorem credit_eq : credit = .ok credited := eq_ok_value _

/-- The vault and the gauge a day later. -/
def unlocked : State × Storage := (credited.1.1.atTime 90000, credited.1.2)

theorem run_unlocked : Transition.Run (Step identity 70 vault DocumentedV4.platform bindings)
    (start, Storage.empty) [.none, .none, (value schedule schedule_isOk).2, .none,
      (value settlement settlement_isOk).2, credited.2, .none] unlocked := by
  have hnow : credited.1.1.world.now ≤ 90000 := by decide +kernel
  exact (run.snoc (.call 61 (.creditStakerFee 5 1000 1) trivial credit_eq)).snoc
    (.world (UserStockVault.evolves_atTime hnow))

end Sample

/-- The user of the small gauge is paid the thousand it was shown. -/
theorem claims_shown_sample : ClaimsShown Sample.identity Sample.unlocked.1 Sample.unlocked.2 ∧
    ((consumeClaimableBoth Sample.identity 61 Sample.unlocked.1 Sample.unlocked.2 200).map Prod.snd
      = .ok (0, 1000)) :=
  ⟨claims_shown Sample.init Sample.run_unlocked, by decide +kernel⟩

end MemeStockGauge

end TickerGarden
