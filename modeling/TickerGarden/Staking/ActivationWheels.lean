import TickerGarden.Staking.RageQuit
import TickerGarden.Staking.WheelFailures

/-!
# The activation wheels

The gauge of a market and the vault under it, each with a wheel of its own, as one
machine: any of their functions may be called at any time, by anyone, and between two
calls any time may pass. Both wheels stay sound in every run,
`TickerGarden.MemeStockGauge.activation_wheels`.

What a user adds to the gauge is followed through a run by
`TickerGarden.MemeStockGauge.Effect`: it is there, active or pending, until it is taken
out, and it becomes active once.
-/

namespace TickerGarden

open Checked TimingWheel

namespace MemeStockGauge

open UserStockVault (Immutables State MarketLedger MarketSound StateSound)

/-! ### The machine -/

/-- A call of a function of the vault or of the gauge. -/
inductive Call
  | depositStock (assetUid : Bytes32) (amount : ℕ)
  | depositStockFor (assetUid : Bytes32) (user : Address) (amount : ℕ)
  | withdrawFreeStock (assetUid : Bytes32) (amount : ℕ)
  | vaultRageQuit (assetUid marketId : Bytes32)
  | lockAllocation (assetUid : Bytes32) (user : Address) (marketId : Bytes32) (amount : ℕ)
  | releaseAllocationAndWithdraw (assetUid : Bytes32) (user : Address) (marketId : Bytes32)
  | releaseAllocation (assetUid : Bytes32) (user : Address) (marketId : Bytes32)
  | rageQuitAllocation (assetUid : Bytes32) (user : Address) (marketId : Bytes32)
  | completeRageQuitRewardSettlement (assetUid : Bytes32) (user : Address) (marketId : Bytes32)
  | recordGaugeRewardState (assetUid marketId : Bytes32) (quoteAccumulator memeAccumulator : ℕ)
  | addPending (user : Address) (amount activationAt unlockAt : ℕ)
  | removeAllocation (user : Address)
  | rageQuit (user : Address) (recorded : Bool)
  | checkpointActivations (recorded : Bool)
  | settle (user : Address)
  | creditStakerFee (feeAsset : Address) (amount : ℕ) (feeId : Bytes32)
  | consumeClaimableAssets (user : Address) (assets : BitVec 8)
  | flushDeferredForfeiture (recorded : Bool)

/-- What a step does to the stock in the gauge. -/
inductive Effect
  | none
  | added (user : Address) (amount : ℕ)
  | removed (user : Address) (amount : ℕ)
deriving DecidableEq

/-- What is added for a user. -/
def Effect.addedFor (u : Address) : Effect → ℕ
  | .added user amount => if u = user then amount else 0
  | _ => 0

/-- What is taken out for a user. -/
def Effect.removedFor (u : Address) : Effect → ℕ
  | .removed user amount => if u = user then amount else 0
  | _ => 0

section Machine

variable (id : GaugeIdentity) (self : Address) (v : Immutables) (caller : Address)

/-- A call, in a state of the vault and of the gauge. -/
def runCall (x : State × Storage) : Call → Except Revert ((State × Storage) × Effect)
  | .depositStock assetUid amount => do
    let vs ← UserStockVault.depositStock v caller x.1 assetUid amount
    return ((vs, x.2), .none)
  | .depositStockFor assetUid user amount => do
    let vs ← UserStockVault.depositStockFor v caller x.1 assetUid user amount
    return ((vs, x.2), .none)
  | .withdrawFreeStock assetUid amount => do
    let vs ← UserStockVault.withdrawFreeStock v caller x.1 assetUid amount
    return ((vs, x.2), .none)
  | .vaultRageQuit assetUid marketId => do
    let (vs, _) ← UserStockVault.rageQuit v caller x.1 assetUid marketId
    return ((vs, x.2), .none)
  | .lockAllocation assetUid user marketId amount => do
    let vs ← UserStockVault.lockAllocation v caller x.1 assetUid user marketId amount
    return ((vs, x.2), .none)
  | .releaseAllocationAndWithdraw assetUid user marketId => do
    let (vs, _) ← UserStockVault.releaseAllocationAndWithdraw v caller x.1 assetUid user marketId
    return ((vs, x.2), .none)
  | .releaseAllocation assetUid user marketId => do
    let (vs, _) ← UserStockVault.releaseAllocation v caller x.1 assetUid user marketId
    return ((vs, x.2), .none)
  | .rageQuitAllocation assetUid user marketId => do
    let (vs, _) ← UserStockVault.rageQuitAllocation v caller x.1 assetUid user marketId
    return ((vs, x.2), .none)
  | .completeRageQuitRewardSettlement assetUid user marketId => do
    let (vs, _) ← UserStockVault.completeRageQuitRewardSettlement v caller x.1 assetUid user marketId
    return ((vs, x.2), .none)
  | .recordGaugeRewardState assetUid marketId quoteAccumulator memeAccumulator => do
    let vs ← UserStockVault.recordGaugeRewardState v caller x.1 assetUid marketId quoteAccumulator
      memeAccumulator
    return ((vs, x.2), .none)
  | .addPending user amount activationAt unlockAt => do
    let s ← addPending id caller x.1 x.2 user amount activationAt unlockAt
    return ((x.1, s), .added user amount)
  | .removeAllocation user => do
    let (s, amount) ← removeAllocation id caller x.1 x.2 user
    return ((x.1, s), .removed user amount)
  | .rageQuit user recorded => do
    let (s, principal, _, _) ← rageQuit id caller x.1 x.2 user recorded
    return ((x.1, s), .removed user principal)
  | .checkpointActivations recorded => do
    let s ← checkpointActivations id x.1 x.2 recorded
    return ((x.1, s), .none)
  | .settle user => do
    let s ← settle id caller x.1 x.2 user
    return ((x.1, s), .none)
  | .creditStakerFee feeAsset amount feeId => do
    let (y, _, _) ← creditStakerFee id caller x.1 x.2 v self feeAsset amount feeId
    return (y, .none)
  | .consumeClaimableAssets user assets => do
    let (s, _, _) ← consumeClaimableAssets id caller x.1 x.2 user assets
    return ((x.1, s), .none)
  | .flushDeferredForfeiture recorded => do
    let s ← flushDeferredForfeiture x.2 recorded
    return ((x.1, s), .none)

/-- The manager never locks an allocation for itself. -/
def Call.Proper : Call → Prop
  | .lockAllocation _ user _ _ => user ≠ v.allocationManager
  | _ => True

/-- The vault before anyone has used it, and a gauge that was just deployed. -/
structure Init (x : State × Storage) : Prop where
  vault : UserStockVault.Init v x.1
  gauge : x.2 = Storage.empty

/-- **One step**: a call that goes through, or a change of the world. Time passes in the
world. -/
inductive Step (platform : Platform) (bindings : MarketRegistry.Bindings) :
    State × Storage → Effect → State × Storage → Prop
  | call {x y : State × Storage} {effect : Effect} (caller : Address) (c : Call)
      (hproper : c.Proper v) (h : runCall id self v caller x c = .ok (y, effect)) :
      Step platform bindings x effect y
  | world {vs : State} {s : Storage} {w : World}
      (h : World.Evolves platform bindings (· = v.self) vs.world w) :
      Step platform bindings (vs, s) .none ({ vs with world := w }, s)

end Machine

/-- **The vault and the gauge are sound.** -/
structure Sound (v : Immutables) (x : State × Storage) : Prop where
  vault : StateSound v x.1
  wheel : WheelSound x.1.world.now x.2
  history : HistorySound x.1.world.now x.2

/-- **What a call does**: moves in the gauge for one user, at most one step of the vault,
and no time passes. -/
structure Performs (platform : Platform) (bindings : MarketRegistry.Bindings) (v : Immutables)
    (x : State × Storage) (effect : Effect) (y : State × Storage) : Prop where
  moves : ∃ user a b, Moves x.1.world.now user a b x.2 y.2 ∧
    (∀ u, effect.addedFor u = if u = user then a else 0) ∧
    ∀ u, effect.removedFor u = if u = user then b else 0
  vault : y.1 = x.1 ∨ UserStockVault.Step platform bindings v x.1 () y.1
  now_eq : y.1.world.now = x.1.world.now

section Steps

variable {platform : Platform} {bindings : MarketRegistry.Bindings} {id : GaugeIdentity}
  {self caller : Address} {v : Immutables} {x y : State × Storage} {effect : Effect}

theorem sound_of_init (h : Init v x) : Sound v x where
  vault := UserStockVault.stateSound_of_init h.vault
  wheel := by
    rw [h.gauge]
    exact wheelSound_empty _
  history := by
    rw [h.gauge]
    exact historySound_empty _

/-- A call of the vault. -/
theorem performs_vault {vs : State} (hstep : UserStockVault.Step platform bindings v x.1 () vs)
    (hnow : vs.world.now = x.1.world.now) : Performs platform bindings v x .none (vs, x.2) where
  moves := ⟨0, 0, 0, .refl x.2, fun _ => (ite_self 0).symm, fun _ => (ite_self 0).symm⟩
  vault := Or.inr hstep
  now_eq := hnow

/-- A call of the gauge that nothing enters or leaves in. -/
theorem performs_gauge {s : Storage} (hmoves : ∃ user, Moves x.1.world.now user 0 0 x.2 s) :
    Performs platform bindings v x .none (x.1, s) where
  moves := by
    obtain ⟨user, hmoves⟩ := hmoves
    exact ⟨user, 0, 0, hmoves, fun _ => (ite_self 0).symm, fun _ => (ite_self 0).symm⟩
  vault := Or.inl rfl
  now_eq := rfl

/-- The vault is told the accumulators through the manager. -/
theorem of_managerRecord {vs vs' : State} {marketId : Bytes32} {quote meme : ℕ}
    (hok : AllocationManager.recordGaugeRewardState v vs marketId self quote meme = .ok vs') :
    UserStockVault.Step platform bindings v vs () vs' ∧ vs'.world.now = vs.world.now := by
  simp only [AllocationManager.recordGaugeRewardState, bind_eq_ok] at hok
  obtain ⟨context, -, -, -, hok⟩ := hok
  have hstep : UserStockVault.Step platform bindings v vs () vs' :=
    .recordGaugeRewardState _ _ _ _ _ hok
  simp only [UserStockVault.recordGaugeRewardState, bind_eq_ok, pure_eq_ok, Except.ok.injEq] at hok
  obtain ⟨-, -, l, -, rfl⟩ := hok
  exact ⟨hstep, rfl⟩

/-! ### Calls -/

/-- What a credit does in the vault: it tells it the accumulators, if it does anything. -/
theorem of_creditStakerFee {vs vs' : State} {s s' : Storage} {feeAsset : Address} {amount : ℕ}
    {feeId : Bytes32} {delta remainder : ℕ}
    (hok : creditStakerFee id caller vs s v self feeAsset amount feeId
      = .ok ((vs', s'), delta, remainder)) :
    (vs' = vs ∨ UserStockVault.Step platform bindings v vs () vs') ∧
      vs'.world.now = vs.world.now := by
  simp only [creditStakerFee, applyStakerFee, bind_eq_ok, pure_eq_ok, Except.ok.injEq, Prod.mk.injEq,
    Prod.exists] at hok
  obtain ⟨-, -, s₁, -, i, -, vs₁, s₂, d, r, hincrease, ⟨rfl, -⟩, -⟩ := hok
  rw [increaseRewardAccumulator] at hincrease
  dsimp only at hincrease
  split at hincrease
  · simp only [Except.ok.injEq, Prod.mk.injEq] at hincrease
    obtain ⟨⟨rfl, -⟩, -⟩ := hincrease
    exact ⟨Or.inl rfl, rfl⟩
  · simp only [bind_eq_ok, pure_eq_ok, Except.ok.injEq, Prod.mk.injEq, Prod.exists] at hincrease
    obtain ⟨_, -, -, -, _, _, -, _, -, vs₂, hrecord, ⟨rfl, -⟩, -⟩ := hincrease
    have hmanager : UserStockVault.Step platform bindings v vs () vs₂ ∧ vs₂.world.now = vs.world.now :=
      of_managerRecord hrecord
    exact ⟨Or.inr hmanager.1, hmanager.2⟩

/-- **What a call does.** -/
theorem performs_of_runCall {c : Call} (h : Sound v x) (hproper : c.Proper v)
    (hok : runCall id self v caller x c = .ok (y, effect)) :
    Performs platform bindings v x effect y := by
  cases c with
  | depositStock assetUid amount =>
    simp only [runCall, bind_eq_ok, pure_eq_ok, Except.ok.injEq, Prod.mk.injEq] at hok
    obtain ⟨vs, hvs, rfl, rfl⟩ := hok
    refine performs_vault (.depositStock _ _ _ hvs) ?_
    simp only [UserStockVault.depositStock, bind_eq_ok, pure_eq_ok, Except.ok.injEq] at hvs
    obtain ⟨_, -, rfl⟩ := hvs
    rfl
  | depositStockFor assetUid user amount =>
    simp only [runCall, bind_eq_ok, pure_eq_ok, Except.ok.injEq, Prod.mk.injEq] at hok
    obtain ⟨vs, hvs, rfl, rfl⟩ := hok
    refine performs_vault (.depositStockFor _ _ _ _ hvs) ?_
    simp only [UserStockVault.depositStockFor, bind_eq_ok, pure_eq_ok, Except.ok.injEq] at hvs
    obtain ⟨_, -, _, -, rfl⟩ := hvs
    rfl
  | withdrawFreeStock assetUid amount =>
    simp only [runCall, bind_eq_ok, pure_eq_ok, Except.ok.injEq, Prod.mk.injEq] at hok
    obtain ⟨vs, hvs, rfl, rfl⟩ := hok
    refine performs_vault (.withdrawFreeStock _ _ _ hvs) ?_
    simp only [UserStockVault.withdrawFreeStock, bind_eq_ok, pure_eq_ok, Except.ok.injEq] at hvs
    obtain ⟨_, -, rfl⟩ := hvs
    rfl
  | vaultRageQuit assetUid marketId =>
    simp only [runCall, bind_eq_ok, pure_eq_ok, Except.ok.injEq, Prod.mk.injEq, Prod.exists] at hok
    obtain ⟨vs, n, hvs, rfl, rfl⟩ := hok
    refine performs_vault (.rageQuit _ _ _ _ hvs) ?_
    simp only [UserStockVault.rageQuit, bind_eq_ok, pure_eq_ok, Except.ok.injEq, Prod.mk.injEq] at hvs
    obtain ⟨_, -, rfl, -⟩ := hvs
    rfl
  | lockAllocation assetUid user marketId amount =>
    simp only [runCall, bind_eq_ok, pure_eq_ok, Except.ok.injEq, Prod.mk.injEq] at hok
    obtain ⟨vs, hvs, rfl, rfl⟩ := hok
    refine performs_vault (.lockAllocation _ _ _ _ _ hproper hvs) ?_
    simp only [UserStockVault.lockAllocation, bind_eq_ok, pure_eq_ok, Except.ok.injEq] at hvs
    obtain ⟨_, -, _, -, rfl⟩ := hvs
    rfl
  | releaseAllocationAndWithdraw assetUid user marketId =>
    simp only [runCall, bind_eq_ok, pure_eq_ok, Except.ok.injEq, Prod.mk.injEq, Prod.exists] at hok
    obtain ⟨vs, n, hvs, rfl, rfl⟩ := hok
    refine performs_vault (.releaseAllocationAndWithdraw _ _ _ _ _ hvs) ?_
    simp only [UserStockVault.releaseAllocationAndWithdraw, bind_eq_ok, pure_eq_ok, Except.ok.injEq,
      Prod.mk.injEq] at hvs
    obtain ⟨_, -, _, -, rfl, -⟩ := hvs
    rfl
  | releaseAllocation assetUid user marketId =>
    simp only [runCall, bind_eq_ok, pure_eq_ok, Except.ok.injEq, Prod.mk.injEq, Prod.exists] at hok
    obtain ⟨vs, n, hvs, rfl, rfl⟩ := hok
    refine performs_vault (.releaseAllocation _ _ _ _ _ hvs) ?_
    simp only [UserStockVault.releaseAllocation, bind_eq_ok, pure_eq_ok, Except.ok.injEq,
      Prod.mk.injEq] at hvs
    obtain ⟨_, -, _, -, rfl, -⟩ := hvs
    rfl
  | rageQuitAllocation assetUid user marketId =>
    simp only [runCall, bind_eq_ok, pure_eq_ok, Except.ok.injEq, Prod.mk.injEq, Prod.exists] at hok
    obtain ⟨vs, n, hvs, rfl, rfl⟩ := hok
    refine performs_vault (.rageQuitAllocation _ _ _ _ _ hvs) ?_
    simp only [UserStockVault.rageQuitAllocation, bind_eq_ok, pure_eq_ok, Except.ok.injEq,
      Prod.mk.injEq] at hvs
    obtain ⟨_, -, _, -, rfl, -⟩ := hvs
    rfl
  | completeRageQuitRewardSettlement assetUid user marketId =>
    simp only [runCall, bind_eq_ok, pure_eq_ok, Except.ok.injEq, Prod.mk.injEq, Prod.exists] at hok
    obtain ⟨vs, n, hvs, rfl, rfl⟩ := hok
    refine performs_vault (.completeRageQuitRewardSettlement _ _ _ _ _ hvs) ?_
    simp only [UserStockVault.completeRageQuitRewardSettlement, bind_eq_ok, pure_eq_ok,
      Except.ok.injEq, Prod.mk.injEq] at hvs
    obtain ⟨_, -, _, -, rfl, -⟩ := hvs
    rfl
  | recordGaugeRewardState assetUid marketId quoteAccumulator memeAccumulator =>
    simp only [runCall, bind_eq_ok, pure_eq_ok, Except.ok.injEq, Prod.mk.injEq] at hok
    obtain ⟨vs, hvs, rfl, rfl⟩ := hok
    refine performs_vault (.recordGaugeRewardState _ _ _ _ _ hvs) ?_
    simp only [UserStockVault.recordGaugeRewardState, bind_eq_ok, pure_eq_ok, Except.ok.injEq] at hvs
    obtain ⟨_, -, _, -, rfl⟩ := hvs
    rfl
  | addPending user amount activationAt unlockAt =>
    simp only [runCall, bind_eq_ok, pure_eq_ok, Except.ok.injEq, Prod.mk.injEq] at hok
    obtain ⟨s, hs, rfl, rfl⟩ := hok
    exact ⟨⟨user, amount, 0, moves_addPending h.wheel hs, fun _ => rfl,
      fun _ => (ite_self 0).symm⟩, Or.inl rfl, rfl⟩
  | removeAllocation user =>
    simp only [runCall, bind_eq_ok, pure_eq_ok, Except.ok.injEq, Prod.mk.injEq, Prod.exists] at hok
    obtain ⟨s, amount, hs, rfl, rfl⟩ := hok
    exact ⟨⟨user, 0, amount, (moves_removeAllocation h.wheel hs).1, fun _ => (ite_self 0).symm,
      fun _ => rfl⟩, Or.inl rfl, rfl⟩
  | rageQuit user recorded =>
    simp only [runCall, bind_eq_ok, pure_eq_ok, Except.ok.injEq, Prod.mk.injEq, Prod.exists] at hok
    obtain ⟨s, principal, _, _, hs, rfl, rfl⟩ := hok
    exact ⟨⟨user, 0, principal, (moves_rageQuit h.wheel hs).1, fun _ => (ite_self 0).symm,
      fun _ => rfl⟩, Or.inl rfl, rfl⟩
  | checkpointActivations recorded =>
    simp only [runCall, bind_eq_ok, pure_eq_ok, Except.ok.injEq, Prod.mk.injEq] at hok
    obtain ⟨s, hs, rfl, rfl⟩ := hok
    exact performs_gauge ⟨0, moves_checkpointActivations h.wheel hs⟩
  | settle user =>
    simp only [runCall, bind_eq_ok, pure_eq_ok, Except.ok.injEq, Prod.mk.injEq] at hok
    obtain ⟨s, hs, rfl, rfl⟩ := hok
    exact performs_gauge ⟨user, moves_settle h.wheel hs⟩
  | creditStakerFee feeAsset amount feeId =>
    simp only [runCall, bind_eq_ok, pure_eq_ok, Except.ok.injEq, Prod.mk.injEq, Prod.exists] at hok
    obtain ⟨vs, s, delta, remainder, hs, rfl, rfl⟩ := hok
    have hmoves : Moves x.1.world.now 0 0 0 x.2 s := moves_creditStakerFee h.wheel hs
    have hvault : (vs = x.1 ∨ UserStockVault.Step platform bindings v x.1 () vs) ∧
        vs.world.now = x.1.world.now := of_creditStakerFee hs
    exact ⟨⟨0, 0, 0, hmoves, fun _ => (ite_self 0).symm, fun _ => (ite_self 0).symm⟩, hvault.1,
      hvault.2⟩
  | consumeClaimableAssets user assets =>
    simp only [runCall, bind_eq_ok, pure_eq_ok, Except.ok.injEq, Prod.mk.injEq, Prod.exists] at hok
    obtain ⟨s, _, _, hs, rfl, rfl⟩ := hok
    exact performs_gauge ⟨user, moves_consumeClaimableAssets h.wheel hs⟩
  | flushDeferredForfeiture recorded =>
    simp only [runCall, flushDeferredForfeiture, ok_bind, pure_eq_ok, Except.ok.injEq,
      Prod.mk.injEq] at hok
    obtain ⟨rfl, rfl⟩ := hok
    exact performs_gauge ⟨0, sameStock_tryFlushDeferredForfeiture.moves⟩

/-- **One step keeps both sound.** -/
theorem sound_of_step (h : Sound v x) (hstep : Step id self v platform bindings x effect y) :
    Sound v y := by
  cases hstep with
  | call caller c hproper hok =>
    have hperforms : Performs platform bindings v x effect y := performs_of_runCall h hproper hok
    obtain ⟨⟨user, a, b, hmoves, -⟩, hvault, hnow⟩ := hperforms
    refine ⟨?_, ?_, ?_⟩
    · rcases hvault with heq | hstep
      · rw [heq]
        exact h.vault
      · exact UserStockVault.stateSound_of_step h.vault hstep
    · rw [hnow]
      exact hmoves.wheelSound h.wheel
    · rw [hnow]
      exact hmoves.historySound h.wheel h.history
  | world hw => exact ⟨h.vault.evolves hw, h.wheel.mono hw.now_le, h.history.mono hw.now_le⟩

/-- **What a user has in the gauge** changes by what a step adds and removes. -/
theorem stock_of_step (h : Sound v x) (hstep : Step id self v platform bindings x effect y)
    (u : Address) : y.2.stock u + effect.removedFor u = x.2.stock u + effect.addedFor u := by
  cases hstep with
  | call caller c hproper hok =>
    have hperforms : Performs platform bindings v x effect y := performs_of_runCall h hproper hok
    obtain ⟨⟨user, a, b, hmoves, hadded, hremoved⟩, -, -⟩ := hperforms
    rw [hadded, hremoved]
    rcases eq_or_ne u user with rfl | hne
    · rw [if_pos rfl, if_pos rfl]
      exact hmoves.stock_eq
    · rw [if_neg hne, if_neg hne, hmoves.stock_of_ne hne]
  | world hw => rfl

/-- **Both are sound after any run**, and what a user has is what was added for it and
not removed. -/
theorem sound_of_run {effects : List Effect} (h : Init v x)
    (hrun : Transition.Run (Step id self v platform bindings) x effects y) : Sound v y ∧
      ∀ u, y.2.stock u + (effects.map (Effect.removedFor u)).sum
        = (effects.map (Effect.addedFor u)).sum := by
  refine hrun.invariant_history (I := fun effects y => Sound v y ∧
    ∀ u, y.2.stock u + (effects.map (Effect.removedFor u)).sum
      = (effects.map (Effect.addedFor u)).sum) ?_ ⟨sound_of_init h, fun u => ?_⟩
  · rintro effects y effect z ⟨hsound, hstock⟩ hstep
    refine ⟨sound_of_step hsound hstep, fun u => ?_⟩
    have hlast := stock_of_step hsound hstep u
    have hbefore := hstock u
    rw [List.map_append, List.sum_append, List.map_append, List.sum_append, List.map_singleton,
      List.map_singleton, List.sum_singleton, List.sum_singleton]
    omega
  · rw [h.gauge]
    rfl

/-- **No call fails for a wheel.** -/
theorem failsOnly_runCall (h : Sound v x) (c : Call) :
    FailsOnly (runCall id self v caller x c) (¬ WheelFailure ·) := by
  have hmarket : ∀ assetUid marketId,
      MarketSound x.1.world.now ((x.1.ledger assetUid).market marketId) :=
    fun assetUid marketId => (h.vault.ledger assetUid).market marketId
  cases c with
  | depositStock assetUid amount =>
    simp only [runCall, UserStockVault.depositStock, failsOnly_bind]
    exact ⟨⟨failsOnly_deposit, fun _ _ => failsOnly_ok⟩, fun _ _ => failsOnly_ok⟩
  | depositStockFor assetUid user amount =>
    simp only [runCall, UserStockVault.depositStockFor, failsOnly_bind]
    exact ⟨⟨failsOnly_vaultManager, fun _ _ => ⟨failsOnly_deposit, fun _ _ => failsOnly_ok⟩⟩,
      fun _ _ => failsOnly_ok⟩
  | withdrawFreeStock assetUid amount =>
    simp only [runCall, UserStockVault.withdrawFreeStock, failsOnly_bind]
    exact ⟨⟨failsOnly_withdraw, fun _ _ => failsOnly_ok⟩, fun _ _ => failsOnly_ok⟩
  | vaultRageQuit assetUid marketId =>
    simp only [runCall, UserStockVault.rageQuit, UserStockVaultExits.rageQuitAndWithdraw,
      failsOnly_bind]
    exact ⟨⟨⟨failsOnly_quit (hmarket _ _), fun _ _ => ⟨failsOnly_withdraw, fun _ _ => failsOnly_ok⟩⟩,
      fun _ _ => failsOnly_ok⟩, fun _ _ => failsOnly_ok⟩
  | lockAllocation assetUid user marketId amount =>
    simp only [runCall, UserStockVault.lockAllocation, failsOnly_bind]
    exact ⟨⟨failsOnly_vaultManager, fun _ _ => ⟨failsOnly_lock (hmarket _ _),
      fun _ _ => failsOnly_ok⟩⟩, fun _ _ => failsOnly_ok⟩
  | releaseAllocationAndWithdraw assetUid user marketId =>
    simp only [runCall, UserStockVault.releaseAllocationAndWithdraw,
      UserStockVaultExits.releaseAllocationAndWithdraw, failsOnly_bind]
    exact ⟨⟨failsOnly_vaultManager, fun _ _ => ⟨⟨failsOnly_release (hmarket _ _),
      fun _ _ => ⟨failsOnly_withdraw, fun _ _ => failsOnly_ok⟩⟩, fun _ _ => failsOnly_ok⟩⟩,
      fun _ _ => failsOnly_ok⟩
  | releaseAllocation assetUid user marketId =>
    simp only [runCall, UserStockVault.releaseAllocation, failsOnly_bind]
    exact ⟨⟨failsOnly_vaultManager, fun _ _ => ⟨failsOnly_release (hmarket _ _),
      fun _ _ => failsOnly_ok⟩⟩, fun _ _ => failsOnly_ok⟩
  | rageQuitAllocation assetUid user marketId =>
    simp only [runCall, UserStockVault.rageQuitAllocation, UserStockVaultExits.rageQuitAndWithdraw,
      failsOnly_bind]
    exact ⟨⟨failsOnly_vaultManager, fun _ _ => ⟨⟨failsOnly_quit (hmarket _ _),
      fun _ _ => ⟨failsOnly_withdraw, fun _ _ => failsOnly_ok⟩⟩, fun _ _ => failsOnly_ok⟩⟩,
      fun _ _ => failsOnly_ok⟩
  | completeRageQuitRewardSettlement assetUid user marketId =>
    simp only [runCall, UserStockVault.completeRageQuitRewardSettlement, failsOnly_bind]
    exact ⟨⟨failsOnly_vaultManager, fun _ _ => ⟨failsOnly_completion, fun _ _ => failsOnly_ok⟩⟩,
      fun _ _ => failsOnly_ok⟩
  | recordGaugeRewardState assetUid marketId quoteAccumulator memeAccumulator =>
    exact failsOnly_bind.mpr ⟨failsOnly_recordGaugeRewardState, fun _ _ => failsOnly_ok⟩
  | addPending user amount activationAt unlockAt =>
    exact failsOnly_bind.mpr ⟨failsOnly_addPending h.wheel, fun _ _ => failsOnly_ok⟩
  | removeAllocation user =>
    exact failsOnly_bind.mpr ⟨failsOnly_removeAllocation h.wheel, fun _ _ => failsOnly_ok⟩
  | rageQuit user recorded =>
    exact failsOnly_bind.mpr ⟨failsOnly_rageQuit h.wheel, fun _ _ => failsOnly_ok⟩
  | checkpointActivations recorded =>
    exact failsOnly_bind.mpr ⟨failsOnly_checkpointActivations h.wheel, fun _ _ => failsOnly_ok⟩
  | settle user => exact failsOnly_bind.mpr ⟨failsOnly_settle h.wheel, fun _ _ => failsOnly_ok⟩
  | creditStakerFee feeAsset amount feeId =>
    exact failsOnly_bind.mpr ⟨failsOnly_creditStakerFee h.wheel, fun _ _ => failsOnly_ok⟩
  | consumeClaimableAssets user assets =>
    exact failsOnly_bind.mpr ⟨failsOnly_consumeClaimableAssets h.wheel, fun _ _ => failsOnly_ok⟩
  | flushDeferredForfeiture recorded => exact failsOnly_ok

end Steps

/-! ### What the wheels are -/

/-- **The slots of a wheel**: a slot that is used is the one of its generation, and it
holds what is pending at this generation, and counts it. -/
def SlotsExact {n : ℕ} (l : Ledger n) (generation amount : Address → ℕ) : Prop :=
  ∀ i, l.wheel i = Slot.empty ∨
    (l.wheel i).generation ≠ 0 ∧ (l.wheel i).generation % n = i ∧
      (l.wheel i).amount = ∑ u with generation u = (l.wheel i).generation, amount u ∧
      (l.wheel i).refs = Finset.card {u | generation u = (l.wheel i).generation}

/-- What is in a wheel becomes active within thirty seconds, and not before. -/
def SlotsAhead {n : ℕ} (now : ℕ) (l : Ledger n) : Prop :=
  ∀ i, (l.wheel i).generation ≠ 0 →
    now < (l.wheel i).generation ∧ (l.wheel i).generation ≤ now + 30

theorem slotsExact_of_represents {n : ℕ} [NeZero n] {l : Ledger n} {generation amount : Address → ℕ}
    (h : Represents l generation amount) : SlotsExact l generation amount := by
  intro i
  refine (h.slot i).imp_right ?_
  rintro ⟨g, hg, rfl, hslot, -⟩
  rw [hslot]
  dsimp only
  refine ⟨hg, (Fin.val_ofNat ..).symm, (Finset.sum_filter ..).symm, ?_⟩
  rw [owners, bucket, Finset.card_filter]

theorem slotsAhead_of_represents {n now : ℕ} [NeZero n] {l : Ledger n} {generation amount : Address → ℕ}
    (h : Represents (checkpointed now l) generation amount) (hle : ∀ u, generation u ≤ now + 30) :
    SlotsAhead now (checkpointed now l) := by
  intro i hi
  rcases h.slot i with hempty | ⟨g, hg, rfl, hslot, -⟩
  · exact absurd (by rw [hempty]; rfl) hi
  · have hl : Live (checkpointed now l) g := ⟨hg, by rw [hslot]⟩
    obtain ⟨u, hu⟩ := h.exists_owner hl
    rw [hl.2]
    exact ⟨(live_checkpointed.mp hl).2, hu ▸ hle u⟩

/-- **The activation wheels** of the gauge and of the vault after a run. -/
structure ActivationWheels (id : GaugeIdentity) (self : Address) (v : Immutables)
    (effects : List Effect) (x : State × Storage) : Prop where
  slots : SlotsExact x.2.wheel x.2.generation x.2.pendingAmount
  vaultSlots : ∀ assetUid marketId, SlotsExact ((x.1.ledger assetUid).market marketId).eligibility
    (fun u => (((x.1.ledger assetUid).market marketId).account u).pendingGeneration)
    fun u => (((x.1.ledger assetUid).market marketId).account u).pendingAmount
  /-- After a checkpoint only the future is in the wheel, and what has come is active. -/
  checkpoint : ∀ s, checkpointWheel x.1.world.now x.2.accumulators x.2 = .ok s →
    SlotsAhead x.1.world.now s.wheel ∧ s.wheel.active = ∑ u, (x.2.activeAmount u +
      if x.2.generation u ≤ x.1.world.now then x.2.pendingAmount u else 0)
  vaultCheckpoint : ∀ assetUid marketId m, UserStockVault.checkpointRewardEligibility x.1.world.now
      ((x.1.ledger assetUid).market marketId) = .ok m →
    SlotsAhead x.1.world.now m.eligibility ∧ m.eligibility.active = ∑ u, ((m.account u).allocation -
      if x.1.world.now < (m.account u).pendingGeneration then (m.account u).pendingAmount else 0)
  /-- The checks of the wheels never fail, whoever calls what. -/
  unreachable : ∀ caller c e, runCall id self v caller x c = .error e → ¬ WheelFailure e
  /-- A snapshot counts the users that were not materialised from it. -/
  snapshots : ∀ g, g ≠ 0 → ¬ Live x.2.wheel g →
    (x.2.snapshots g).refs = Finset.card {u | x.2.generation u = g}
  unrecorded : ∀ g, Live x.2.wheel g → x.2.snapshots g = .empty
  history : HistorySound x.1.world.now x.2
  /-- A settlement makes active what has come, and only that. -/
  settled : ∀ caller user s, settle id caller x.1 x.2 user = .ok s →
    s.activeAmount user = x.2.activeAmount user +
        (if x.2.generation user ≤ x.1.world.now then x.2.pendingAmount user else 0) ∧
      s.pendingAmount user
        = if x.2.generation user ≤ x.1.world.now then 0 else x.2.pendingAmount user
  /-- What was added is there once, active or pending, until it is removed. -/
  conserved : ∀ u, x.2.activeAmount u + x.2.pendingAmount u
    + (effects.map (Effect.removedFor u)).sum = (effects.map (Effect.addedFor u)).sum

section Results

variable {id : GaugeIdentity} {caller : Address} {vs : State} {s s' : Storage} {user : Address}
  {now : ℕ}

/-- A pending amount that is not in the wheel any more has come. -/
theorem generation_le_of_not_live (h : WheelSound now s)
    (hl : ¬ Live s.wheel (s.generation user)) : s.generation user ≤ now :=
  not_lt.mp fun hlt => hl (h.live user hlt)

/-- **What is active after a checkpoint.** -/
theorem active_of_checkpointWheel (h : WheelSound now s)
    (hok : checkpointWheel now s.accumulators s = .ok s') :
    s'.wheel.active
      = ∑ u, (s.activeAmount u + if s.generation u ≤ now then s.pendingAmount u else 0) := by
  rw [h.of_checkpointWheel hok, h.checkpointed.active]
  refine Finset.sum_congr rfl fun u _ => ?_
  have hzero : s.generation u = 0 ↔ s.pendingAmount u = 0 := h.generation_eq_zero
  rw [h.effective_checkpointed, h.effective_eq, Nat.add_assoc]
  congr 1
  by_cases hg : s.generation u = 0
  · rw [hzero.mp hg, ite_self, ite_self, ite_self]
  · by_cases hl : Live s.wheel (s.generation u)
    · rw [if_neg fun hc : s.generation u ≠ 0 ∧ ¬ Live s.wheel (s.generation u) => hc.2 hl,
        Nat.zero_add]
      exact if_congr (and_iff_right hl) rfl rfl
    · rw [if_pos ⟨hg, hl⟩, if_neg fun hc : Live s.wheel (s.generation u) ∧ _ => hl hc.1,
        if_pos (generation_le_of_not_live h hl), Nat.add_zero]

/-- **What a settlement makes active.** -/
theorem of_settle (h : WheelSound vs.world.now s) (hok : settle id caller vs s user = .ok s') :
    s'.activeAmount user = s.activeAmount user +
        (if s.generation user ≤ vs.world.now then s.pendingAmount user else 0) ∧
      s'.pendingAmount user
        = if s.generation user ≤ vs.world.now then 0 else s.pendingAmount user := by
  simp only [settle, settlePosition, bind_eq_ok] at hok
  obtain ⟨-, -, -, -, s₁, hcheck, -, -, s₂, hmat, hsettle⟩ := hok
  obtain ⟨s₀, hforfeited, h₀, rfl⟩ := of_checkpointRewardActivations h hcheck
  obtain ⟨-, -, hpending, hactive⟩ := settleActivePosition_frame hsettle
  rw [hpending, hactive]
  -- the checkpoint does not touch the positions
  have hpositions : (s₀.checkpointed vs.world.now s₀.accumulators).positions = s.positions :=
    hforfeited.positions
  have hgeneration : (s₀.checkpointed vs.world.now s₀.accumulators).generation user
      = s.generation user := congrArg (fun p => (p user).pendingGeneration) hpositions
  have hbefore : (s₀.checkpointed vs.world.now s₀.accumulators).activeAmount user
        = s.activeAmount user ∧
      (s₀.checkpointed vs.world.now s₀.accumulators).pendingAmount user = s.pendingAmount user :=
    ⟨congrArg (fun p => (p user).activeAmount) hpositions,
      congrArg (fun p => (p user).pendingAmount) hpositions⟩
  have hzero : s.generation user = 0 ↔ s.pendingAmount user = 0 := h.generation_eq_zero
  rcases of_materializePending h₀.checkpointed hmat with ⟨rfl, hlive⟩ | ⟨settled, hg, hrefs, -, rfl⟩
  · -- the user is not materialised: what is pending has not come
    rw [hbefore.1, hbefore.2]
    by_cases hg : s.generation user = 0
    · rw [hzero.mp hg, ite_self]
      exact ⟨rfl, rfl⟩
    · have hlt : vs.world.now < s.generation user := by
        rw [← hgeneration] at hg ⊢
        exact lt_of_live_checkpointed (hlive hg)
      rw [if_neg (not_le.mpr hlt), if_neg (not_le.mpr hlt)]
      exact ⟨rfl, rfl⟩
  · have hle : s.generation user ≤ vs.world.now := by
      rw [← hgeneration]
      exact generation_le_of_not_live h₀.checkpointed
        ((h₀.checkpointed.refs_ne_zero_iff hg).mp hrefs)
    rw [if_pos hle, if_pos hle]
    constructor
    · rw [Storage.activeAmount, materializedWith_self, hbefore.1, hbefore.2]
    · rw [Storage.pendingAmount, materializedWith_self]

end Results

/-- **The activation wheels are exact in every run** of the vault and the gauge, whatever
is called in it, in any order, and however long nobody calls anything. -/
theorem activation_wheels {platform : Platform} {bindings : MarketRegistry.Bindings}
    {id : GaugeIdentity} {self : Address} {v : Immutables} {x y : State × Storage}
    {effects : List Effect} (h : Init v x)
    (hrun : Transition.Run (Step id self v platform bindings) x effects y) :
    ActivationWheels id self v effects y := by
  obtain ⟨hsound, hstock⟩ := sound_of_run h hrun
  have hmarket : ∀ assetUid marketId,
      MarketSound y.1.world.now ((y.1.ledger assetUid).market marketId) :=
    fun assetUid marketId => (hsound.vault.ledger assetUid).market marketId
  refine ⟨slotsExact_of_represents hsound.wheel.wheel,
    fun assetUid marketId => slotsExact_of_represents (hmarket assetUid marketId).wheel,
    fun s hok => ⟨?_, active_of_checkpointWheel hsound.wheel hok⟩, fun assetUid marketId m hok => ?_,
    fun caller c e herr => failsOnly_runCall hsound c e herr, fun g hg hl => ?_,
    fun g hl => hsound.wheel.snapshot_of_live hl, hsound.history,
    fun caller user s hok => of_settle hsound.wheel hok, hstock⟩
  · rw [hsound.wheel.of_checkpointWheel hok]
    have hchecked : Represents (checkpointed y.1.world.now y.2.wheel) y.2.generation y.2.pendingAmount :=
      hsound.wheel.wheel.checkpointed
    exact slotsAhead_of_represents hchecked hsound.wheel.generation_le
  · have hm := hmarket assetUid marketId
    rw [hm.checkpointRewardEligibility_eq, Except.ok.injEq] at hok
    subst hok
    exact ⟨slotsAhead_of_represents hm.checkpointed.wheel hm.generation_le, hm.active_checkpointed⟩
  · rw [hsound.wheel.refs g hg, if_neg hl, owners, bucket, Finset.card_filter]

/-! ### A small gauge

The gauge of the market of the small vault. What user 200 has allocated is pending in it,
and is settled a hundred seconds later. -/

namespace Sample

open UserStockVault.Sample (vault bindings start init_start deposit deposit_isOk lock lock_isOk)

/-- The gauge of the market of the sample. -/
def identity : GaugeIdentity := ⟨1, 1, 3, 60, 61, 0, 5⟩

/-- The schedule. -/
def schedule : Except Revert ((State × Storage) × Effect) :=
  runCall identity 70 vault 60 (value lock lock_isOk, Storage.empty) (.addPending 200 500 1030 87400)

theorem schedule_isOk : schedule.isOk = true := by decide +kernel

/-- The vault and the gauge a hundred seconds later. -/
def later : State × Storage :=
  ((value schedule schedule_isOk).1.1.atTime 1100, (value schedule schedule_isOk).1.2)

/-- The settlement. -/
def settlement : Except Revert ((State × Storage) × Effect) :=
  runCall identity 70 vault 61 later (.settle 200)

theorem settlement_isOk : settlement.isOk = true := by decide +kernel

/-- The vault and the gauge after the settlement. -/
def settled : State × Storage := (value settlement settlement_isOk).1

theorem init : Init vault (start, Storage.empty) := ⟨init_start, rfl⟩

/-- The run: a deposit, a lock, a schedule, a hundred seconds, and a settlement. -/
theorem run : Transition.Run (Step identity 70 vault DocumentedV4.platform bindings)
    (start, Storage.empty) [.none, .none, (value schedule schedule_isOk).2, .none,
      (value settlement settlement_isOk).2] settled := by
  have hdeposit : runCall identity 70 vault 200 (start, Storage.empty) (.depositStock 1 1000)
      = .ok ((value deposit deposit_isOk, Storage.empty), .none) :=
    bind_eq_ok.mpr ⟨_, eq_ok_value deposit_isOk, rfl⟩
  have hlock : runCall identity 70 vault 60 (value deposit deposit_isOk, Storage.empty)
      (.lockAllocation 1 200 1 500) = .ok ((value lock lock_isOk, Storage.empty), .none) :=
    bind_eq_ok.mpr ⟨_, eq_ok_value lock_isOk, rfl⟩
  have hnow : (value schedule schedule_isOk).1.1.world.now ≤ 1100 := by decide +kernel
  have hfar : (200 : Address) ≠ 60 := by decide
  exact ((((Transition.Run.single (Step.call 200 (.depositStock 1 1000) trivial hdeposit)).snoc
    (Step.call 60 (.lockAllocation 1 200 1 500) hfar hlock)).snoc
    (Step.call 60 (.addPending 200 500 1030 87400) trivial (eq_ok_value schedule_isOk))).snoc
    (Step.world (UserStockVault.evolves_atTime hnow))).snoc
    (Step.call 61 (.settle 200) trivial (eq_ok_value settlement_isOk))

end Sample

/-- The wheels of the small gauge. -/
theorem activation_wheels_sample : ActivationWheels Sample.identity 70 UserStockVault.Sample.vault
    [.none, .none, (value Sample.schedule Sample.schedule_isOk).2, .none,
      (value Sample.settlement Sample.settlement_isOk).2] Sample.settled :=
  activation_wheels Sample.init Sample.run

end MemeStockGauge

end TickerGarden
