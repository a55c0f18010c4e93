import TickerGarden.Curve.Collateral
import TickerGarden.Lib.Transition
import TickerGarden.Locker.Compounding

/-!
# What compounding can spend

Each entry point of the locker moves the account of a currency in one way,
`TickerGarden.LaunchLocker.Coverage.Moves`: the floor does not go down, and the fees
change by what is collected, less what a deficit absorbs of it, less what is spent. The
deficit is the one the call finds, `TickerGarden.LaunchLocker.deficit`, whatever has
happened to the balances since the last call.

Between two calls the world outside changes in any way: tokens may be donated to the
locker or disappear from it. The account then says of a whole run that all that was ever
spent was collected before and not needed to make up for a loss
(`TickerGarden.LaunchLocker.locker_isolation`).
-/

namespace TickerGarden

open Checked

namespace LaunchLocker

/-! ### The account of one currency -/

/-- **What a call does to the account of a currency**: the floor stays or rises, and
the fees change by what came in and was neither absorbed nor spent. -/
structure Coverage.Moves (c c' : Coverage) (collected absorbed spent : ℕ) : Prop where
  isolated_le : c.isolated ≤ c'.isolated
  fees : c'.compoundFees + spent + absorbed = c.compoundFees + collected

namespace Coverage

variable {c c' c'' : Coverage} {n n' a a' p p' : ℕ}

/-- Two moves after each other. -/
theorem Moves.trans (h : Moves c c' n a p) (h' : Moves c' c'' n' a' p') :
    Moves c c'' (n + n') (a + a') (p + p') := by
  refine ⟨h.isolated_le.trans h'.isolated_le, ?_⟩
  have h1 := h.fees
  have h2 := h'.fees
  omega

/-- The floor is raised, and nothing else. -/
theorem Moves.isolate {isolated : ℕ} (h : c.isolated ≤ isolated) :
    Moves c ⟨c.compoundFees, isolated⟩ 0 0 0 := ⟨h, rfl⟩

/-- Fees are spent. -/
theorem Moves.spend (h : p ≤ c.compoundFees) :
    Moves c ⟨c.compoundFees - p, c.isolated⟩ 0 0 p := by
  refine ⟨le_rfl, ?_⟩
  change c.compoundFees - p + p + 0 = c.compoundFees + 0
  omega

end Coverage

/-- What observing a balance does: the floor it leaves covers all of the balance that is
not fees, and the deficit is what the balance lacks. -/
theorem observeCoverage_eq_ok {balance fees isolated floor missing : ℕ}
    (h : observeCoverage balance fees isolated = .ok (floor, missing)) :
    isolated ≤ floor ∧ balance ≤ fees + floor ∧ missing = fees + isolated - balance := by
  simp only [observeCoverage, bind_eq_ok, uadd_eq_ok, pure_eq_ok, Except.ok.injEq] at h
  obtain ⟨_, ⟨-, rfl⟩, h⟩ := h
  split at h
  · obtain ⟨rfl, rfl⟩ := Prod.mk.inj h
    exact ⟨le_rfl, by omega, rfl⟩
  · obtain ⟨rfl, rfl⟩ := Prod.mk.inj h
    exact ⟨by omega, by omega, by omega⟩

/-- Collected fees, after a deficit has taken its part of them. -/
theorem Coverage.Moves.collect {c : Coverage} {floor missing amount : ℕ}
    (hfloor : c.isolated ≤ floor) :
    Moves c ⟨c.compoundFees + (if amount > missing then amount - missing else 0), floor⟩ amount
      (min amount missing) 0 := by
  refine ⟨hfloor, ?_⟩
  dsimp only
  split <;> omega

/-! ### The log -/

/-- What an event says was collected in a currency. -/
def Event.collected (side : Side) : Event → ℕ
  | .lockedFeesCollected _ _ amount => amount.get side
  | .lockedFeesCompounded .. => 0

/-- What an event says was spent of a currency. -/
def Event.spent (side : Side) : Event → ℕ
  | .lockedFeesCollected .. => 0
  | .lockedFeesCompounded _ _ _ amount _ => amount.get side

/-- All fees a log has collected in a currency. -/
def collected (side : Side) (log : List Event) : ℕ := (log.map (Event.collected side)).sum

/-- All fees a log has spent of a currency. -/
def spent (side : Side) (log : List Event) : ℕ := (log.map (Event.spent side)).sum

@[simp] theorem collected_nil {side : Side} : collected side [] = 0 := rfl

@[simp] theorem collected_cons {side : Side} {e : Event} {log : List Event} :
    collected side (e :: log) = e.collected side + collected side log := List.sum_cons

@[simp] theorem spent_nil {side : Side} : spent side [] = 0 := rfl

@[simp] theorem spent_cons {side : Side} {e : Event} {log : List Event} :
    spent side (e :: log) = e.spent side + spent side log := List.sum_cons

theorem collected_append {side : Side} {log more : List Event} :
    collected side (log ++ more) = collected side log + collected side more := by
  simp [collected]

theorem spent_append {side : Side} {log more : List Event} :
    spent side (log ++ more) = spent side log + spent side more := by
  simp [spent]

section Contract

variable {W : Type} (platform : Platform) (calls : Externals W) (imm : Immutables)

/-- What the balance of a currency lacks of what is accounted. -/
def deficit (s : State W) (side : Side) : ℕ :=
  (s.ledger.get side).compoundFees + (s.ledger.get side).isolated
    - calls.balance s.outside (imm.currency.get side) imm.self

/-- What a deficit found by a call absorbs of the fees the call collects. -/
def absorbed (s s' : State W) (side : Side) : ℕ :=
  min (collected side s'.log - collected side s.log) (deficit calls imm s side)

/-- **One step**: a successful call of either entry point, or any change outside the
locker. It is labelled with what a deficit absorbed of each currency. -/
inductive Step : State W → (Side → ℕ) → State W → Prop
  | collectLockedFees {s s' : State W} {amounts : Pair ℕ}
      (h : collectLockedFees platform calls imm s = .ok (s', amounts)) :
      Step s (absorbed calls imm s s') s'
  | compoundLockedFees {s s' : State W} {amounts : Pair ℕ} (caller : Address)
      (liquidity amount0Max amount1Max deadline : ℕ)
      (h : compoundLockedFees platform calls imm caller s liquidity amount0Max amount1Max deadline
        = .ok (s', amounts)) :
      Step s (absorbed calls imm s s') s'
  | environment (s : State W) (w : W) : Step s (fun _ => 0) { s with outside := w }

variable {platform calls imm} {s s' s'' : State W} {side : Side}

/-! ### What the entry points do -/

/-- **What a call does**: it extends the log, and moves the account of each currency by
what it adds there. -/
structure Accounts (calls : Externals W) (imm : Immutables) (s s' : State W) (more : List Event) :
    Prop where
  log : s'.log = s.log ++ more
  moves : ∀ side, (s.ledger.get side).Moves (s'.ledger.get side) (collected side more)
    (min (collected side more) (deficit calls imm s side)) (spent side more)
  /-- All of a balance that was not accounted as fees is under the floor. -/
  floor : ∀ side, calls.balance s.outside (imm.currency.get side) imm.self ≤
    (s.ledger.get side).compoundFees + (s'.ledger.get side).isolated

theorem unpairedLockedBalances_eq_ok {w : W} {b : Pair ℕ}
    (h : unpairedLockedBalances calls imm w = .ok b) (side : Side) :
    b.get side = calls.balance w (imm.currency.get side) imm.self := by
  simp only [unpairedLockedBalances, unpairedLockedBalance, bind_eq_ok, revertIf_eq_ok, pure_eq_ok,
    Except.ok.injEq] at h
  obtain ⟨_, ⟨-, -, rfl⟩, _, ⟨-, -, rfl⟩, rfl⟩ := h
  cases side <;> rfl

/-- A collection accounts for what arrived. -/
theorem collect_eq_ok {key : PoolKey} {info : Bytes32} {amounts : Pair ℕ}
    (h : collect platform calls imm s key info = .ok (s', amounts)) :
    Accounts calls imm s s' [.lockedFeesCollected imm.marketId imm.tokenId amounts] := by
  simp only [collect, bind_eq_ok, revertIf_eq_ok, uadd_eq_ok, pure_eq_ok, Except.ok.injEq,
    Prod.mk.injEq, Prod.exists] at h
  obtain ⟨before, hbefore, floor0, missing0, hzero, floor1, missing1, hone, -, -, w, -, after, -, -,
    -, -, -, -, -, _, ⟨-, rfl⟩, _, ⟨-, rfl⟩, -, -, rfl, rfl⟩ := h
  have hb0 : calls.balance s.outside imm.currency.zero imm.self = before.zero :=
    (unpairedLockedBalances_eq_ok hbefore .zero).symm
  have hb1 : calls.balance s.outside imm.currency.one imm.self = before.one :=
    (unpairedLockedBalances_eq_ok hbefore .one).symm
  obtain ⟨hle0, hcov0, rfl⟩ := observeCoverage_eq_ok hzero
  obtain ⟨hle1, hcov1, rfl⟩ := observeCoverage_eq_ok hone
  refine ⟨rfl, ?_, ?_⟩
  · rintro (_ | _)
    · have hmoves := @Coverage.Moves.collect s.ledger.zero floor0 (deficit calls imm s .zero)
        (after.zero - before.zero) hle0
      simpa [deficit, Event.collected, Event.spent, hb0] using hmoves
    · have hmoves := @Coverage.Moves.collect s.ledger.one floor1 (deficit calls imm s .one)
        (after.one - before.one) hle1
      simpa [deficit, Event.collected, Event.spent, hb1] using hmoves
  · rintro (_ | _)
    · exact hb0.trans_le hcov0
    · exact hb1.trans_le hcov1

/-- Isolating what the position manager holds raises the floors. -/
theorem isolateManagerBalances_eq_ok {key : PoolKey}
    (h : isolateManagerBalances calls imm s key = .ok s') :
    s'.log = s.log ∧ ∀ side, (s.ledger.get side).Moves (s'.ledger.get side) 0 0 0 := by
  simp only [isolateManagerBalances, bind_eq_ok, revertIf_eq_ok, uadd_eq_ok, pure_eq_ok,
    Except.ok.injEq] at h
  obtain ⟨before, -, w, -, after, -, -, -, _, ⟨-, rfl⟩, _, ⟨-, rfl⟩, rfl⟩ := h
  refine ⟨rfl, ?_⟩
  rintro (_ | _)
  · exact Coverage.Moves.isolate (Nat.le_add_right _ _)
  · exact Coverage.Moves.isolate (Nat.le_add_right _ _)

/-- The balances cover what is accounted. -/
def Covered (calls : Externals W) (imm : Immutables) (s : State W) : Prop :=
  ∀ side, (s.ledger.get side).compoundFees + (s.ledger.get side).isolated
    ≤ calls.balance s.outside (imm.currency.get side) imm.self

theorem requireFeeCoverage_eq_ok {u : Unit} (h : requireFeeCoverage calls imm s = .ok u) :
    Covered calls imm s := by
  simp only [requireFeeCoverage, bind_eq_ok, revertIf_eq_ok, uadd_eq_ok, not_lt] at h
  obtain ⟨balance, hbalance, _, ⟨-, rfl⟩, -, h0, _, ⟨-, rfl⟩, h1⟩ := h
  have hb := unpairedLockedBalances_eq_ok hbalance
  rintro (_ | _)
  · exact h0.trans_eq (hb .zero)
  · exact h1.trans_eq (hb .one)

/-- Spending takes its amounts off the fees, and leaves the balances covering the rest. -/
theorem spendFees_eq_ok {key : PoolKey} {info : Bytes32} {amounts : Pair ℕ}
    {liquidity amount0Max amount1Max deadline : ℕ}
    (h : spendFees platform calls imm s key info liquidity amount0Max amount1Max deadline
      = .ok (s', amounts)) :
    ∃ e : Event, s'.log = s.log ++ [e] ∧ Covered calls imm s' ∧
      ∀ side, e.collected side = 0 ∧
        (s.ledger.get side).Moves (s'.ledger.get side) 0 0 (e.spent side) := by
  simp only [spendFees, bind_eq_ok, revertIf_eq_ok, usub_eq_ok, pure_eq_ok, Except.ok.injEq,
    Prod.mk.injEq] at h
  obtain ⟨-, -, before, -, -, -, w, -, after, -, -, -, -, -, -, -, -, -, _, ⟨h0, rfl⟩, _,
    ⟨h1, rfl⟩, -, -, _, hcovered, rfl, rfl⟩ := h
  have hcov := requireFeeCoverage_eq_ok hcovered
  refine ⟨_, rfl, fun side => hcov side, ?_⟩
  rintro (_ | _)
  · exact ⟨rfl, Coverage.Moves.spend h0⟩
  · exact ⟨rfl, Coverage.Moves.spend h1⟩

/-- A collection by itself. -/
theorem collectLockedFees_eq_ok {amounts : Pair ℕ}
    (h : collectLockedFees platform calls imm s = .ok (s', amounts)) :
    Accounts calls imm s s' [.lockedFeesCollected imm.marketId imm.tokenId amounts] := by
  simp only [collectLockedFees, bind_eq_ok, Prod.exists] at h
  obtain ⟨key, info, -, h⟩ := h
  exact collect_eq_ok h

/-- **A compounding** collects, isolates and spends, and leaves both balances covering
what is accounted. -/
theorem compoundLockedFees_eq_ok {caller : Address} {amounts : Pair ℕ}
    {liquidity amount0Max amount1Max deadline : ℕ}
    (h : compoundLockedFees platform calls imm caller s liquidity amount0Max amount1Max deadline
      = .ok (s', amounts)) :
    Covered calls imm s' ∧ ∃ more, Accounts calls imm s s' more := by
  simp only [compoundLockedFees, bind_eq_ok, Prod.exists] at h
  obtain ⟨-, -, -, -, -, -, -, -, key, info, -, s₁, amounts₁, hcollect, s₂, hisolate, -, -, hspend⟩ :=
    h
  have hc := collect_eq_ok hcollect
  obtain ⟨hlog, hisolated⟩ := isolateManagerBalances_eq_ok hisolate
  obtain ⟨e, hlog', hcovered, hspent⟩ := spendFees_eq_ok hspend
  refine ⟨hcovered, [.lockedFeesCollected imm.marketId imm.tokenId amounts₁, e], ?_, ?_, ?_⟩
  · rw [hlog', hlog, hc.log, List.append_assoc]
    rfl
  · intro side
    obtain ⟨hnone, hmoves⟩ := hspent side
    have htotal := ((hc.moves side).trans (hisolated side)).trans hmoves
    have he : (Event.lockedFeesCollected imm.marketId imm.tokenId amounts₁).collected side
        = amounts₁.get side := rfl
    have he' : (Event.lockedFeesCollected imm.marketId imm.tokenId amounts₁).spent side = 0 := rfl
    simpa [he, he', hnone] using htotal
  · intro side
    have hrest := ((hisolated side).trans (hspent side).2).isolated_le
    have hfloor := hc.floor side
    omega

/-! ### Runs -/

variable {t : State W} {e : Side → ℕ}

/-- A call's part of the log, and its label. -/
theorem Accounts.step {more : List Event} (h : Accounts calls imm s s' more) :
    ∃ more, s'.log = s.log ++ more ∧ ∀ side, (s.ledger.get side).Moves (s'.ledger.get side)
      (collected side more) (absorbed calls imm s s' side) (spent side more) := by
  refine ⟨more, h.log, fun side => ?_⟩
  have hmore : collected side s'.log - collected side s.log = collected side more := by
    rw [h.log, collected_append]
    omega
  rw [absorbed, hmore]
  exact h.moves side

/-- **The step lemma**: a step extends the log, and moves the accounts by what it adds
there and by its label. -/
theorem moves_of_step (h : Step platform calls imm s e t) :
    ∃ more, t.log = s.log ++ more ∧ ∀ side, (s.ledger.get side).Moves (t.ledger.get side)
      (collected side more) (e side) (spent side more) := by
  cases h with
  | collectLockedFees h => exact (collectLockedFees_eq_ok h).step
  | compoundLockedFees caller liquidity amount0Max amount1Max deadline h =>
    obtain ⟨-, more, hmore⟩ := compoundLockedFees_eq_ok h
    exact hmore.step
  | environment w => exact ⟨[], (List.append_nil _).symm, fun side => ⟨le_rfl, rfl⟩⟩

/-- The floor of a currency does not go down in a run. -/
theorem isolated_le_of_run {es : List (Side → ℕ)}
    (h : Transition.Run (Step platform calls imm) s es t) (side : Side) :
    (s.ledger.get side).isolated ≤ (t.ledger.get side).isolated := by
  refine h.monotone (I := fun _ => True) (f := fun u => (u.ledger.get side).isolated)
    (fun _ _ _ _ _ => trivial) (fun u _ v _ hstep => ?_) trivial
  obtain ⟨more, -, hmoves⟩ := moves_of_step hstep
  exact (hmoves side).isolated_le

/-- **The books of a run**: what was collected of a currency was spent, or absorbed by a
deficit, or is still to be spent. -/
theorem collected_of_run {es : List (Side → ℕ)} (hs : Init s)
    (h : Transition.Run (Step platform calls imm) s es t) (side : Side) :
    spent side t.log + (es.map (· side)).sum + (t.ledger.get side).compoundFees
      = collected side t.log := by
  refine h.invariant_history (I := fun es u => spent side u.log + (es.map (· side)).sum
    + (u.ledger.get side).compoundFees = collected side u.log) (fun es u e v hu hstep => ?_) ?_
  · obtain ⟨more, hlog, hmoves⟩ := moves_of_step hstep
    have hfees := (hmoves side).fees
    rw [hlog, spent_append, collected_append, List.map_append, List.sum_append]
    simp only [List.map_cons, List.map_nil, List.sum_cons, List.sum_nil]
    omega
  · rw [hs.1, hs.2]
    cases side <;> rfl

/-- **Locker isolation.** In any run of collections, compoundings and changes of the world
outside – donations and losses among them – from the deployment of a locker:

* no floor ever goes down;
* all that compounding has spent of a currency, together with what deficits have absorbed
  and the fees still there, is what was collected in it;
* a successful compounding leaves each balance covering the currency's fees and its floor,
  and that floor covers all of the balance before the call that was not accounted as fees. -/
theorem locker_isolation {es : List (Side → ℕ)} (hs : Init s)
    (h : Transition.Run (Step platform calls imm) s es t) :
    (∀ side, spent side t.log + (es.map (· side)).sum + (t.ledger.get side).compoundFees
      = collected side t.log) ∧
    (∀ u fs, Transition.Run (Step platform calls imm) t fs u →
      ∀ side, (t.ledger.get side).isolated ≤ (u.ledger.get side).isolated) ∧
    ∀ caller liquidity amount0Max amount1Max deadline u amounts,
      compoundLockedFees platform calls imm caller t liquidity amount0Max amount1Max deadline
        = .ok (u, amounts) →
      ∀ side, (u.ledger.get side).compoundFees + (u.ledger.get side).isolated
          ≤ calls.balance u.outside (imm.currency.get side) imm.self ∧
        calls.balance t.outside (imm.currency.get side) imm.self
          ≤ (t.ledger.get side).compoundFees + (u.ledger.get side).isolated := by
  refine ⟨collected_of_run hs h, fun u fs hrun => isolated_le_of_run hrun, ?_⟩
  intro caller liquidity amount0Max amount1Max deadline u amounts hcompound side
  obtain ⟨hcovered, more, hmore⟩ := compoundLockedFees_eq_ok hcompound
  exact ⟨hcovered side, hmore.floor side⟩

end Contract

/-! ### A small locker

The position of the curve's example, in the native currency and token 5. The locker
holds seven tokens somebody sent there, and the position owes it ten of each currency. -/

namespace Sample

/-- The world outside: what the locker holds, what its position owes it, and the
liquidity of the position. -/
structure Outside where
  held : Pair ℕ
  owed : Pair ℕ
  liquidity : ℕ

/-- The position manager: collecting pays what is owed, and liquidity costs one unit of
each currency. -/
def modifyLiquidities (w : Outside) : List Action → Outside
  | .decreaseLiquidity .. :: _ =>
    { w with held := ⟨w.held.zero + w.owed.zero, w.held.one + w.owed.one⟩, owed := ⟨0, 0⟩ }
  | .increaseLiquidity _ liquidity _ _ :: _ =>
    { w with
      held := ⟨w.held.zero - liquidity, w.held.one - liquidity⟩
      liquidity := w.liquidity + liquidity }
  | _ => w

/-- The pool of the two currencies. -/
def key : PoolKey := ⟨0, 5, 0, 1, 0x2044⟩

/-- The identifier of the pool. -/
def poolId : Bytes32 := DocumentedV4.platform.keccak256 (.poolKey key)

/-- The locker of one position in that pool. -/
def imm : Immutables := ⟨70, 1, 4, poolId, ⟨0, 5⟩, 71⟩

/-- The outside: two balances, a clock that stands still, and a pool manager that pays the fees out.
-/
def calls : Externals Outside where
  balance w asset _ := if asset = 0 then w.held.zero else w.held.one
  now _ := 1000
  market _ _ := .ok ⟨Curve.Sample.config, ⟨poolId, 2, launchPhasePoolCreated⟩⟩
  compoundKeeper _ := .ok 72
  ownerOf _ _ := some 70
  getPoolAndPositionInfo _ _ := .ok (key, 3)
  getPositionLiquidity w _ := .ok w.liquidity
  permit2 _ := .ok 73
  modifyLiquidities w actions _ _ := .ok (modifyLiquidities w actions)
  forceApprove w _ _ _ := .ok w
  permitApprove w _ _ _ _ _ := .ok w

/-- The locker with nothing to compound yet. -/
def start : State Outside := ⟨⟨⟨0, 7⟩, ⟨10, 10⟩, 100⟩, ⟨⟨0, 0⟩, ⟨0, 0⟩⟩, []⟩

theorem init_start : Init start := ⟨rfl, rfl⟩

/-- The compounding of six units of liquidity. -/
def compound : Except Revert (State Outside × Pair ℕ) :=
  compoundLockedFees DocumentedV4.platform calls imm 72 start 6 8 8 1100

theorem compound_isOk : compound.isOk = true := by decide +kernel

/-- The locker after it. -/
def compounded : State Outside := (value compound compound_isOk).1

theorem compound_eq : compound = .ok (compounded, (value compound compound_isOk).2) :=
  eq_ok_value compound_isOk

end Sample

/-- The books of the small locker after a compounding. -/
theorem locker_isolation_sample :
    spent .one Sample.compounded.log + 0 + (Sample.compounded.ledger.get .one).compoundFees
      = collected .one Sample.compounded.log := by
  have hbooks := (locker_isolation Sample.init_start
    (Transition.Run.single (Step.compoundLockedFees 72 6 8 8 1100 Sample.compound_eq))).1 .one
  have habsorbed : absorbed Sample.calls Sample.imm Sample.start Sample.compounded .one = 0 := by
    decide +kernel
  rwa [List.map_singleton, List.sum_singleton, habsorbed] at hbooks

end LaunchLocker

end TickerGarden
