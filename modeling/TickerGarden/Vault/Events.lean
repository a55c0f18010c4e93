import TickerGarden.Vault.Principal

/-!
# What the vault logs

Every successful call of the vault leaves events, and four kinds of them report principal:
a deposit, a withdrawal, a lock and a release. An exit of an allocation leaves a release
*and* a withdrawal, both logged once the call is over.

What the events say is stated apart from the vault, on the three ledgers of principal they
are about: `TickerGarden.UserStockVault.Principal.Moves` is one event, and a run of events is
a run of that relation. `TickerGarden.UserStockVault.moves_of_run` is the refinement: what a
run of the vault logs moves the empty principal to that of the vault.
-/

namespace TickerGarden

open Checked Function

namespace UserStockVault

/-- The events of the vault. A lock and a release report what the user has allocated
afterwards, to the market and altogether. -/
inductive Event
  | stockDeposited (assetUid : Bytes32) (user : Address) (amount : ℕ)
  | stockWithdrawn (assetUid : Bytes32) (user : Address) (amount : ℕ)
  | allocationLocked (assetUid : Bytes32) (user : Address) (marketId : Bytes32)
      (amount userMarketAllocation userTotalAllocated : ℕ)
  | allocationReleased (assetUid : Bytes32) (user : Address) (marketId : Bytes32)
      (amount userMarketAllocation userTotalAllocated : ℕ)
  | allocationRageQuit (assetUid : Bytes32) (user : Address) (marketId : Bytes32) (amount : ℕ)
  | rageQuitRewardSettlementQueued (assetUid : Bytes32) (user : Address) (marketId : Bytes32)
      (principal : ℕ)
  | rageQuitRewardSettlementCompleted (assetUid : Bytes32) (user : Address) (marketId : Bytes32)
      (principal : ℕ)
deriving DecidableEq

/-- The asset whose principal an event reports. -/
def Event.principalAsset : Event → Option Bytes32
  | .stockDeposited assetUid .. => some assetUid
  | .stockWithdrawn assetUid .. => some assetUid
  | .allocationLocked assetUid .. => some assetUid
  | .allocationReleased assetUid .. => some assetUid
  | .allocationRageQuit .. => none
  | .rageQuitRewardSettlementQueued .. => none
  | .rageQuitRewardSettlementCompleted .. => none

/-- The release an exit logs, as its call has left the ledger. -/
def State.released (s : State) (assetUid : Bytes32) (user : Address) (marketId : Bytes32)
    (amount : ℕ) : Event :=
  .allocationReleased assetUid user marketId amount
    ((s.ledger assetUid).allocation user marketId) ((s.ledger assetUid).allocated user)

/-- **One call of the vault, with its events**: a successful call of any of its functions,
by anyone they accept, or a change of the world. -/
inductive Emits (platform : Platform) (bindings : MarketRegistry.Bindings) (v : Immutables) :
    State → List Event → State → Prop
  | depositStock {s s' : State} (caller : Address) (assetUid : Bytes32) (amount : ℕ)
      (h : depositStock v caller s assetUid amount = .ok s') :
      Emits platform bindings v s [.stockDeposited assetUid caller amount] s'
  | depositStockFor {s s' : State} (caller : Address) (assetUid : Bytes32) (user : Address)
      (amount : ℕ) (h : depositStockFor v caller s assetUid user amount = .ok s') :
      Emits platform bindings v s [.stockDeposited assetUid user amount] s'
  | withdrawFreeStock {s s' : State} (caller : Address) (assetUid : Bytes32) (amount : ℕ)
      (h : withdrawFreeStock v caller s assetUid amount = .ok s') :
      Emits platform bindings v s [.stockWithdrawn assetUid caller amount] s'
  | rageQuit {s s' : State} (caller : Address) (assetUid marketId : Bytes32) (amount : ℕ)
      (h : rageQuit v caller s assetUid marketId = .ok (s', amount)) :
      Emits platform bindings v s
        [.allocationReleased assetUid caller marketId amount 0 ((s'.ledger assetUid).allocated caller),
          .stockWithdrawn assetUid caller amount,
          .allocationRageQuit assetUid caller marketId amount,
          .rageQuitRewardSettlementQueued assetUid caller marketId amount] s'
  | lockAllocation {s s' : State} (caller : Address) (assetUid : Bytes32) (user : Address)
      (marketId : Bytes32) (amount : ℕ)
      (h : lockAllocation v caller s assetUid user marketId amount = .ok s') :
      Emits platform bindings v s
        [.allocationLocked assetUid user marketId amount ((s'.ledger assetUid).allocation user marketId)
          ((s'.ledger assetUid).allocated user)] s'
  | releaseAllocationAndWithdraw {s s' : State} (caller : Address) (assetUid : Bytes32)
      (user : Address) (marketId : Bytes32) (amount : ℕ)
      (h : releaseAllocationAndWithdraw v caller s assetUid user marketId = .ok (s', amount)) :
      Emits platform bindings v s
        [s'.released assetUid user marketId amount, .stockWithdrawn assetUid user amount] s'
  | releaseAllocation {s s' : State} (caller : Address) (assetUid : Bytes32) (user : Address)
      (marketId : Bytes32) (amount : ℕ)
      (h : releaseAllocation v caller s assetUid user marketId = .ok (s', amount)) :
      Emits platform bindings v s [s'.released assetUid user marketId amount] s'
  | rageQuitAllocation {s s' : State} (caller : Address) (assetUid : Bytes32) (user : Address)
      (marketId : Bytes32) (amount : ℕ)
      (h : rageQuitAllocation v caller s assetUid user marketId = .ok (s', amount)) :
      Emits platform bindings v s
        [s'.released assetUid user marketId amount, .stockWithdrawn assetUid user amount,
          .allocationRageQuit assetUid user marketId amount,
          .rageQuitRewardSettlementQueued assetUid user marketId amount] s'
  | completeRageQuitRewardSettlement {s s' : State} (caller : Address) (assetUid : Bytes32)
      (user : Address) (marketId : Bytes32) (principal : ℕ)
      (h : completeRageQuitRewardSettlement v caller s assetUid user marketId
        = .ok (s', principal)) :
      Emits platform bindings v s
        [.rageQuitRewardSettlementCompleted assetUid user marketId principal] s'
  | recordGaugeRewardState {s s' : State} (caller : Address) (assetUid marketId : Bytes32)
      (quoteAccumulator memeAccumulator : ℕ)
      (h : recordGaugeRewardState v caller s assetUid marketId quoteAccumulator memeAccumulator
        = .ok s') : Emits platform bindings v s [] s'
  | world {s : State} {w : World} (h : World.Evolves platform bindings (· = v.self) s.world w) :
      Emits platform bindings v s [] { s with world := w }

/-! ### The principal the events report -/

/-- The three ledgers of principal, over all assets. -/
@[ext] structure Principal where
  deposited : Bytes32 × Address → ℕ
  allocated : Bytes32 × Address → ℕ
  allocation : Bytes32 × Address × Bytes32 → ℕ

namespace Principal

/-- No principal. -/
def empty : Principal := ⟨fun _ => 0, fun _ => 0, fun _ => 0⟩

/-- What is allocated is deposited, and nothing belongs to the zero address. -/
structure Solvent (p : Principal) : Prop where
  allocated_le : ∀ k, p.allocated k ≤ p.deposited k
  bounded : ∀ k, p.deposited k ≤ maxUint256
  nobody : ∀ assetUid, p.deposited (assetUid, 0) = 0

/-- A deposit becomes `n`. -/
def redeposit (p : Principal) (k : Bytes32 × Address) (n : ℕ) : Principal :=
  { p with deposited := update p.deposited k n }

/-- An allocation becomes `n`, and what its user has allocated altogether becomes `total`. -/
def reallocate (p : Principal) (assetUid : Bytes32) (user : Address) (marketId : Bytes32)
    (n total : ℕ) : Principal :=
  { p with
    allocated := update p.allocated (assetUid, user) total
    allocation := update p.allocation (assetUid, user, marketId) n }

/-- **One event, and what it reports.** -/
inductive Moves : Principal → Event → Principal → Prop
  | deposit {p : Principal} {assetUid : Bytes32} {user : Address} {amount : ℕ}
      (huser : user ≠ 0) (hamount : amount ≠ 0)
      (hbound : p.deposited (assetUid, user) + amount ≤ maxUint256) :
      Moves p (.stockDeposited assetUid user amount)
        (p.redeposit (assetUid, user) (p.deposited (assetUid, user) + amount))
  | withdraw {p : Principal} {assetUid : Bytes32} {user : Address} {amount : ℕ}
      (hamount : amount ≠ 0)
      (hfree : p.allocated (assetUid, user) + amount ≤ p.deposited (assetUid, user)) :
      Moves p (.stockWithdrawn assetUid user amount)
        (p.redeposit (assetUid, user) (p.deposited (assetUid, user) - amount))
  | lock {p : Principal} {assetUid marketId : Bytes32} {user : Address} {amount : ℕ}
      (huser : user ≠ 0) (hamount : amount ≠ 0)
      (hfree : p.allocated (assetUid, user) + amount ≤ p.deposited (assetUid, user))
      (hbound : p.allocation (assetUid, user, marketId) + amount ≤ maxUint256) :
      Moves p (.allocationLocked assetUid user marketId amount
          (p.allocation (assetUid, user, marketId) + amount)
          (p.allocated (assetUid, user) + amount))
        (p.reallocate assetUid user marketId (p.allocation (assetUid, user, marketId) + amount)
          (p.allocated (assetUid, user) + amount))
  | release {p : Principal} {assetUid marketId : Bytes32} {user : Address} {amount : ℕ}
      (huser : user ≠ 0) (hamount : amount ≠ 0)
      (hall : p.allocation (assetUid, user, marketId) = amount)
      (hle : amount ≤ p.allocated (assetUid, user)) :
      Moves p (.allocationReleased assetUid user marketId amount 0
          (p.allocated (assetUid, user) - amount))
        (p.reallocate assetUid user marketId 0 (p.allocated (assetUid, user) - amount))
  | silent {p : Principal} {e : Event} (h : e.principalAsset = none) : Moves p e p

/-- **Principal stays solvent.** -/
theorem Moves.solvent {p q : Principal} {e : Event} (h : Moves p e q) (hp : p.Solvent) :
    q.Solvent := by
  cases h with
  | @deposit assetUid user amount huser hamount hbound =>
    refine ⟨fun k => ?_, fun k => ?_, fun a => ?_⟩ <;> dsimp only [redeposit]
    · rcases eq_or_ne k (assetUid, user) with rfl | hne
      · rw [update_self]
        exact (hp.allocated_le _).trans (Nat.le_add_right _ _)
      · rw [update_of_ne hne]
        exact hp.allocated_le k
    · rcases eq_or_ne k (assetUid, user) with rfl | hne
      · rwa [update_self]
      · rw [update_of_ne hne]
        exact hp.bounded k
    · have hne : (a, (0 : Address)) ≠ (assetUid, user) := fun h => huser (Prod.mk.inj h).2.symm
      rw [update_of_ne hne]
      exact hp.nobody a
  | @withdraw assetUid user amount hamount hfree =>
    refine ⟨fun k => ?_, fun k => ?_, fun a => ?_⟩ <;> dsimp only [redeposit]
    · rcases eq_or_ne k (assetUid, user) with rfl | hne
      · rw [update_self]
        omega
      · rw [update_of_ne hne]
        exact hp.allocated_le k
    · rcases eq_or_ne k (assetUid, user) with rfl | hne
      · rw [update_self]
        exact (Nat.sub_le _ _).trans (hp.bounded _)
      · rw [update_of_ne hne]
        exact hp.bounded k
    · have hnobody := hp.nobody a
      rcases eq_or_ne (a, (0 : Address)) (assetUid, user) with heq | hne
      · obtain ⟨rfl, rfl⟩ := Prod.mk.inj heq
        rw [update_self, hnobody, Nat.zero_sub]
      · rw [update_of_ne hne]
        exact hnobody
  | @lock assetUid marketId user amount huser hamount hfree hbound =>
    refine ⟨fun k => ?_, hp.bounded, hp.nobody⟩
    dsimp only [reallocate]
    rcases eq_or_ne k (assetUid, user) with rfl | hne
    · rwa [update_self]
    · rw [update_of_ne hne]
      exact hp.allocated_le k
  | @release assetUid marketId user amount huser hamount hall hle =>
    refine ⟨fun k => ?_, hp.bounded, hp.nobody⟩
    dsimp only [reallocate]
    rcases eq_or_ne k (assetUid, user) with rfl | hne
    · rw [update_self]
      exact (Nat.sub_le _ _).trans (hp.allocated_le _)
    · rw [update_of_ne hne]
      exact hp.allocated_le k
  | silent => exact hp

theorem solvent_empty : empty.Solvent where
  allocated_le _ := le_rfl
  bounded _ := Nat.zero_le _
  nobody _ := rfl

end Principal

/-! ### The principal of the vault -/

/-- What the vault keeps of principal. -/
def State.principal (s : State) : Principal where
  deposited k := (s.ledger k.1).deposited k.2
  allocated k := (s.ledger k.1).allocated k.2
  allocation k := (s.ledger k.1).allocation k.2.1 k.2.2

section Steps

variable {platform : Platform} {bindings : MarketRegistry.Bindings} {v : Immutables} {s s' : State}
  {assetUid marketId : Bytes32} {user : Address} {amount n total : ℕ} {l l' : AssetLedger}
  {b : Balances}

theorem put_ledger_self : (s.put assetUid l b).ledger assetUid = l := update_self ..

/-- **A deposit of the ledger becomes one of the vault.** -/
theorem principal_put_redeposit
    (hdeposited : l.deposited = update (s.ledger assetUid).deposited user n)
    (hallocated : l.allocated = (s.ledger assetUid).allocated)
    (hmarket : l.market = (s.ledger assetUid).market) :
    (s.put assetUid l b).principal = s.principal.redeposit (assetUid, user) n := by
  ext ⟨a, u⟩ <;> dsimp only [State.principal, State.put, Principal.redeposit] <;>
    rcases eq_or_ne a assetUid with rfl | hne
  · rw [update_self, hdeposited]
    rcases eq_or_ne u user with rfl | hu
    · rw [update_self, update_self]
    · rw [update_of_ne hu, update_of_ne fun h => hu (Prod.mk.inj h).2]
  · rw [update_of_ne hne, update_of_ne fun h => hne (Prod.mk.inj h).1]
  · rw [update_self, hallocated]
  · rw [update_of_ne hne]
  · rw [update_self, AssetLedger.allocation, hmarket, AssetLedger.allocation]
  · rw [update_of_ne hne]

/-- **An allocation of the ledger becomes one of the vault.** -/
theorem principal_put_reallocate (hdeposited : l.deposited = (s.ledger assetUid).deposited)
    (hallocated : l.allocated = update (s.ledger assetUid).allocated user total)
    (hself : l.allocation user marketId = n)
    (hother : ∀ u id, (u, id) ≠ (user, marketId) →
      l.allocation u id = (s.ledger assetUid).allocation u id) :
    (s.put assetUid l b).principal = s.principal.reallocate assetUid user marketId n total := by
  ext k <;> dsimp only [State.principal, State.put, Principal.reallocate] <;>
    rcases eq_or_ne k.1 assetUid with heq | hne
  · rw [heq, update_self, hdeposited]
  · rw [update_of_ne hne]
  · obtain ⟨a, u⟩ := k
    obtain rfl : a = assetUid := heq
    rw [update_self, hallocated]
    rcases eq_or_ne u user with rfl | hu
    · rw [update_self, update_self]
    · rw [update_of_ne hu, update_of_ne fun h => hu (Prod.mk.inj h).2]
  · rw [update_of_ne hne, update_of_ne fun h => hne (congrArg Prod.fst h)]
  · obtain ⟨a, u, id⟩ := k
    obtain rfl : a = assetUid := heq
    rw [update_self]
    rcases eq_or_ne (u, id) (user, marketId) with heq' | hu
    · obtain ⟨rfl, rfl⟩ := Prod.mk.inj heq'
      rw [update_self, hself]
    · rw [update_of_ne fun h => hu (Prod.mk.inj h).2]
      exact hother u id hu
  · rw [update_of_ne hne, update_of_ne fun h => hne (congrArg Prod.fst h)]

/-- The ledgers that changed nothing of principal. -/
theorem principal_put_same (hdeposited : l.deposited = (s.ledger assetUid).deposited)
    (hallocated : l.allocated = (s.ledger assetUid).allocated)
    (hallocation : ∀ u id, l.allocation u id = (s.ledger assetUid).allocation u id) :
    (s.put assetUid l b).principal = s.principal := by
  ext k <;> dsimp only [State.principal, State.put] <;>
    rcases eq_or_ne k.1 assetUid with heq | hne
  · rw [heq, update_self, hdeposited]
  · rw [update_of_ne hne]
  · rw [heq, update_self, hallocated]
  · rw [update_of_ne hne]
  · rw [heq, update_self, hallocation]
  · rw [update_of_ne hne]

theorem moves_depositStock (hs : LedgerSound s.world.now (s.ledger assetUid))
    (hok : UserStockVaultDeposits.depositStock v s.world (s.ledger assetUid) assetUid user amount
      = .ok (l, b)) :
    Principal.Moves s.principal (.stockDeposited assetUid user amount)
      (s.put assetUid l b).principal ∧ Canonical v s.world assetUid := by
  obtain ⟨huser, -, hamount, hcanonical, -, htotal, hl⟩ := of_depositStock hok
  have hbound : s.principal.deposited (assetUid, user) + amount ≤ maxUint256 :=
    (Nat.add_le_add_right (hs.deposited_le user) _).trans htotal
  refine ⟨?_, hcanonical⟩
  rw [principal_put_redeposit (congrArg AssetLedger.deposited hl) (by rw [hl]) (by rw [hl])]
  exact .deposit huser hamount hbound

theorem moves_withdrawFreeStock
    (hok : UserStockVaultExits.withdrawFreeStock v s.world (s.ledger assetUid) assetUid user amount
      = .ok (l, b)) :
    Principal.Moves s.principal (.stockWithdrawn assetUid user amount)
      (s.put assetUid l b).principal ∧ Canonical v s.world assetUid ∧
      l.allocated = (s.ledger assetUid).allocated ∧ l.market = (s.ledger assetUid).market := by
  obtain ⟨hamount, hcanonical, hle, hfree, -, -, -, hl⟩ := of_withdrawFreeStock hok
  have hdeposited : s.principal.allocated (assetUid, user) + amount
      ≤ s.principal.deposited (assetUid, user) := by
    dsimp only [State.principal]
    omega
  have hallocated : l.allocated = (s.ledger assetUid).allocated := by rw [hl]
  have hmarket : l.market = (s.ledger assetUid).market := by rw [hl]
  refine ⟨?_, hcanonical, hallocated, hmarket⟩
  rw [principal_put_redeposit (congrArg AssetLedger.deposited hl) hallocated hmarket]
  exact .withdraw hamount hdeposited

/-- The allocations of a ledger with one market replaced. -/
theorem allocation_of_market {m : MarketLedger}
    (hmarket : l.market = update (s.ledger assetUid).market marketId m)
    (hother : ∀ u, u ≠ user → (m.account u).allocation = (s.ledger assetUid).allocation u marketId) :
    l.allocation user marketId = (m.account user).allocation ∧
      ∀ u id, (u, id) ≠ (user, marketId) →
        l.allocation u id = (s.ledger assetUid).allocation u id := by
  refine ⟨?_, fun u id hne => ?_⟩
  · rw [AssetLedger.allocation, hmarket, update_self]
  · rcases eq_or_ne id marketId with rfl | hid
    · have hu : u ≠ user := fun h => hne (by rw [h])
      rw [AssetLedger.allocation, hmarket, update_self]
      exact hother u hu
    · rw [AssetLedger.allocation, hmarket, update_of_ne hid]
      rfl

/-- What a lock leaves is what its event reports. -/
theorem moves_lockAllocation (hs : LedgerSound s.world.now (s.ledger assetUid))
    (hok : UserStockVaultLedger.lockAllocation v s.world (s.ledger assetUid) assetUid user marketId
      amount = .ok l) :
    Principal.Moves s.principal
      (.allocationLocked assetUid user marketId amount (l.allocation user marketId)
        (l.allocated user)) (s.put assetUid l b).principal ∧ Canonical v s.world assetUid := by
  obtain ⟨huser, -, hamount, hcanonical, -, -, -, hfree, -⟩ := of_lockAllocation hok
  obtain ⟨hl, -⟩ := hs.lockAllocation_eq rfl hok
  have hallocated : l.allocated = update (s.ledger assetUid).allocated user
      ((s.ledger assetUid).allocated user + amount) := by rw [hl]
  obtain ⟨hself, hother⟩ := allocation_of_market (congrArg AssetLedger.market hl)
    fun u hu => by rw [withLock_account_of_ne hu]; rfl
  have hallocation : l.allocation user marketId
      = s.principal.allocation (assetUid, user, marketId) + amount := by
    rw [hself, withLock_account_self]
    rfl
  have htotal : l.allocated user = s.principal.allocated (assetUid, user) + amount := by
    rw [hallocated, update_self]
    rfl
  have hbound : s.principal.allocation (assetUid, user, marketId) + amount ≤ maxUint256 := by
    have hle := hs.allocation_le user marketId
    have hdeposited := (hs.deposited_le user).trans hs.bounded
    dsimp only [State.principal]
    omega
  refine ⟨?_, hcanonical⟩
  rw [principal_put_reallocate (by rw [hl]) hallocated hallocation hother,
    hallocation, htotal]
  exact .lock huser hamount hfree hbound

/-- What a removal of an allocation leaves is what its event reports. -/
theorem moves_removal {account : Account} (hs : LedgerSound s.world.now (s.ledger assetUid))
    (hvacant : account.Vacant) (huser : user ≠ 0) (hamount : amount ≠ 0)
    (hall : amount = (s.ledger assetUid).allocation user marketId)
    (hl : l = { s.ledger assetUid with
      allocated := update (s.ledger assetUid).allocated user
        ((s.ledger assetUid).allocated user - amount)
      totalAllocated := (s.ledger assetUid).totalAllocated - amount
      market := update (s.ledger assetUid).market marketId
        (((s.ledger assetUid).market marketId).withRemoval s.world.now user account) }) :
    l.allocation user marketId = 0 ∧
      Principal.Moves s.principal
        (.allocationReleased assetUid user marketId amount 0 (l.allocated user))
        (s.put assetUid l b).principal := by
  have hallocated : l.allocated = update (s.ledger assetUid).allocated user
      ((s.ledger assetUid).allocated user - amount) := by rw [hl]
  obtain ⟨hself, hother⟩ := allocation_of_market (congrArg AssetLedger.market hl)
    fun u hu => by rw [withRemoval_account_of_ne hu]; rfl
  have hzero : l.allocation user marketId = 0 := by
    rw [hself, withRemoval_account_self, hvacant.allocation]
  have htotal : l.allocated user = s.principal.allocated (assetUid, user) - amount := by
    rw [hallocated, update_self]
    rfl
  have hle : amount ≤ (s.ledger assetUid).allocated user := hall ▸ hs.allocation_le user marketId
  refine ⟨hzero, ?_⟩
  rw [principal_put_reallocate (by rw [hl]) hallocated hzero hother, htotal]
  exact .release huser hamount hall.symm hle

theorem moves_releaseAllocation (hs : LedgerSound s.world.now (s.ledger assetUid))
    (hok : UserStockVaultLedger.releaseAllocation v s.world (s.ledger assetUid) assetUid user
      marketId = .ok (l, amount)) :
    l.allocation user marketId = 0 ∧
      Principal.Moves s.principal
        (.allocationReleased assetUid user marketId amount 0 (l.allocated user))
        (s.put assetUid l b).principal ∧
      LedgerSound s.world.now l ∧ Canonical v s.world assetUid := by
  obtain ⟨huser, hcanonical, hall, hamount, -⟩ := of_releaseAllocation hok
  obtain ⟨hl, hsound⟩ := hs.releaseAllocation_eq rfl hok
  obtain ⟨hzero, hmoves⟩ := moves_removal hs (Account.vacant_released _) huser hamount hall hl
  exact ⟨hzero, hmoves, hsound, hcanonical⟩

theorem moves_rageQuitAllocationLedger (hs : LedgerSound s.world.now (s.ledger assetUid))
    (hok : UserStockVaultLedger.rageQuitAllocationLedger v s.world (s.ledger assetUid) assetUid user
      marketId = .ok (l, amount)) :
    l.allocation user marketId = 0 ∧
      Principal.Moves s.principal
        (.allocationReleased assetUid user marketId amount 0 (l.allocated user))
        (s.put assetUid l b).principal ∧
      LedgerSound s.world.now l ∧ Canonical v s.world assetUid := by
  obtain ⟨huser, hcanonical, hall, hamount, -⟩ := of_rageQuitAllocationLedger hok
  obtain ⟨hl, hsound⟩ := hs.rageQuitAllocationLedger_eq rfl hok
  obtain ⟨hzero, hmoves⟩ := moves_removal hs (Account.vacant_quit _ _) huser hamount hall hl
  exact ⟨hzero, hmoves, hsound, hcanonical⟩

/-- **An exit**: a release or a rage quit, and the withdrawal of what it has released. Its
two events are logged at the end, and say what was so in between. -/
theorem moves_exit {l₁ : AssetLedger} (hzero : l₁.allocation user marketId = 0)
    (hmoves : Principal.Moves s.principal
      (.allocationReleased assetUid user marketId amount 0 (l₁.allocated user))
      (s.put assetUid l₁ s.world.balances).principal)
    (hpay : UserStockVaultExits.withdrawFreeStock v s.world l₁ assetUid user amount = .ok (l, b)) :
    Transition.Run Principal.Moves s.principal
        [.allocationReleased assetUid user marketId amount 0 (l.allocated user),
          .stockWithdrawn assetUid user amount] (s.put assetUid l b).principal ∧
      l.allocation user marketId = 0 := by
  have hledger : (s.put assetUid l₁ s.world.balances).ledger assetUid = l₁ := put_ledger_self
  obtain ⟨hwithdraw, -, hallocated, hmarket⟩ := moves_withdrawFreeStock (b := b) (l := l)
    (s := s.put assetUid l₁ s.world.balances) (by rw [hledger]; exact hpay)
  rw [hledger] at hallocated hmarket
  rw [StateSound.put_put] at hwithdraw
  rw [hallocated, AssetLedger.allocation, hmarket]
  exact ⟨(Transition.Run.single hmoves).snoc hwithdraw, hzero⟩

/-! ### Runs -/

/-- **The ledgers are sound**, and so are the registries. -/
structure LedgersSound (s : State) : Prop where
  assetsSound : Registries.AssetsSound s.world.registries
  ledger : ∀ assetUid, LedgerSound s.world.now (s.ledger assetUid)

theorem LedgersSound.put (h : LedgersSound s) (hl : LedgerSound s.world.now l) :
    LedgersSound (s.put assetUid l b) := by
  refine ⟨h.assetsSound, fun a => ?_⟩
  rcases eq_or_ne a assetUid with rfl | hne
  · rw [put_ledger_self]
    exact hl
  · rw [State.put]
    dsimp only
    rw [update_of_ne hne]
    exact h.ledger a

/-- What one call does to the principal: its events move it, and are about assets the vault
accepts. -/
structure Reports (v : Immutables) (s : State) (es : List Event) (s' : State) : Prop where
  sound : LedgersSound s'
  moves : Transition.Run Principal.Moves s.principal es s'.principal
  canonical : ∀ e ∈ es, ∀ a, e.principalAsset = some a → Canonical v s'.world a
  frozen : ∀ a, Canonical v s.world a → Canonical v s'.world a

/-- A call on one asset, all of whose events are about it. -/
theorem Reports.put {es : List Event} (h : LedgersSound s) (hl : LedgerSound s.world.now l)
    (hmoves : Transition.Run Principal.Moves s.principal es (s.put assetUid l b).principal)
    (hcanonical : ∀ e ∈ es, ∀ a, e.principalAsset = some a →
      a = assetUid ∧ Canonical v s.world assetUid) : Reports v s es (s.put assetUid l b) where
  sound := h.put hl
  moves := hmoves
  canonical e he a ha := by
    obtain ⟨rfl, hset⟩ := hcanonical e he a ha
    exact ⟨hset.uid_ne, hset.hasCode, hset.status_ge, hset.status_le, hset.vault⟩
  frozen a ha := ⟨ha.uid_ne, ha.hasCode, ha.status_ge, ha.status_le, ha.vault⟩

/-- A list of events all of which report principal of one asset, or none. -/
theorem canonical_of_events {es : List Event} {w : World} (hset : Canonical v w assetUid)
    (hes : ∀ e ∈ es, e.principalAsset = some assetUid ∨ e.principalAsset = none) :
    ∀ e ∈ es, ∀ a, e.principalAsset = some a → a = assetUid ∧ Canonical v w assetUid := by
  intro e he a ha
  rcases hes e he with h | h
  · exact ⟨Option.some.inj (ha.symm.trans h), hset⟩
  · rw [h] at ha
    cases ha

/-- **What a call logs is what it does to the principal.** -/
theorem reports_of_emits {es : List Event} (h : LedgersSound s)
    (hstep : Emits platform bindings v s es s') : Reports v s es s' := by
  cases hstep with
  | depositStock caller assetUid amount hok =>
    simp only [depositStock, bind_eq_ok, pure_eq_ok, Except.ok.injEq] at hok
    obtain ⟨⟨l, b⟩, hok, rfl⟩ := hok
    obtain ⟨hmoves, hset⟩ := moves_depositStock (h.ledger assetUid) hok
    exact .put h ((h.ledger assetUid).depositStock hok) (.single hmoves)
      (canonical_of_events hset (by simp [Event.principalAsset]))
  | depositStockFor caller assetUid user amount hok =>
    simp only [depositStockFor, bind_eq_ok, pure_eq_ok, Except.ok.injEq] at hok
    obtain ⟨-, -, ⟨l, b⟩, hok, rfl⟩ := hok
    obtain ⟨hmoves, hset⟩ := moves_depositStock (h.ledger assetUid) hok
    exact .put h ((h.ledger assetUid).depositStock hok) (.single hmoves)
      (canonical_of_events hset (by simp [Event.principalAsset]))
  | withdrawFreeStock caller assetUid amount hok =>
    simp only [withdrawFreeStock, bind_eq_ok, pure_eq_ok, Except.ok.injEq] at hok
    obtain ⟨⟨l, b⟩, hok, rfl⟩ := hok
    obtain ⟨hmoves, hset, -, -⟩ := moves_withdrawFreeStock hok
    exact .put h ((h.ledger assetUid).withdrawFreeStock hok) (.single hmoves)
      (canonical_of_events hset (by simp [Event.principalAsset]))
  | rageQuit caller assetUid marketId amount hok =>
    simp only [rageQuit, UserStockVaultExits.rageQuitAndWithdraw, bind_eq_ok, pure_eq_ok,
      Except.ok.injEq, Prod.mk.injEq] at hok
    obtain ⟨_, ⟨⟨l₁, n⟩, hquit, ⟨l, b⟩, hpay, rfl⟩, rfl, rfl⟩ := hok
    obtain ⟨hzero, hmoves, hsound, hset⟩ := moves_rageQuitAllocationLedger (h.ledger assetUid) hquit
    obtain ⟨hrun, -⟩ := moves_exit hzero hmoves hpay
    rw [put_ledger_self]
    exact .put h (hsound.withdrawFreeStock hpay) ((hrun.snoc (.silent rfl)).snoc (.silent rfl))
      (canonical_of_events hset (by simp [Event.principalAsset]))
  | lockAllocation caller assetUid user marketId amount hok =>
    simp only [lockAllocation, bind_eq_ok, pure_eq_ok, Except.ok.injEq] at hok
    obtain ⟨-, -, l, hok, rfl⟩ := hok
    obtain ⟨hmoves, hset⟩ := moves_lockAllocation (h.ledger assetUid) hok
    rw [put_ledger_self]
    exact .put h ((h.ledger assetUid).lockAllocation rfl hok) (.single hmoves)
      (canonical_of_events hset (by simp [Event.principalAsset]))
  | releaseAllocationAndWithdraw caller assetUid user marketId amount hok =>
    simp only [releaseAllocationAndWithdraw, UserStockVaultExits.releaseAllocationAndWithdraw,
      bind_eq_ok, pure_eq_ok, Except.ok.injEq, Prod.mk.injEq] at hok
    obtain ⟨-, -, _, ⟨⟨l₁, n⟩, hrelease, ⟨l, b⟩, hpay, rfl⟩, rfl, rfl⟩ := hok
    obtain ⟨hzero, hmoves, hsound, hset⟩ := moves_releaseAllocation (h.ledger assetUid) hrelease
    obtain ⟨hrun, hgone⟩ := moves_exit hzero hmoves hpay
    rw [State.released, put_ledger_self, hgone]
    exact .put h (hsound.withdrawFreeStock hpay) hrun
      (canonical_of_events hset (by simp [Event.principalAsset]))
  | releaseAllocation caller assetUid user marketId amount hok =>
    simp only [releaseAllocation, bind_eq_ok, pure_eq_ok, Except.ok.injEq, Prod.mk.injEq] at hok
    obtain ⟨-, -, ⟨l, n⟩, hok, rfl, rfl⟩ := hok
    obtain ⟨hzero, hmoves, hsound, hset⟩ := moves_releaseAllocation (h.ledger assetUid) hok
    rw [State.released, put_ledger_self, hzero]
    exact .put h hsound (.single hmoves) (canonical_of_events hset (by simp [Event.principalAsset]))
  | rageQuitAllocation caller assetUid user marketId amount hok =>
    simp only [rageQuitAllocation, UserStockVaultExits.rageQuitAndWithdraw, bind_eq_ok, pure_eq_ok,
      Except.ok.injEq, Prod.mk.injEq] at hok
    obtain ⟨-, -, _, ⟨⟨l₁, n⟩, hquit, ⟨l, b⟩, hpay, rfl⟩, rfl, rfl⟩ := hok
    obtain ⟨hzero, hmoves, hsound, hset⟩ := moves_rageQuitAllocationLedger (h.ledger assetUid) hquit
    obtain ⟨hrun, hgone⟩ := moves_exit hzero hmoves hpay
    rw [State.released, put_ledger_self, hgone]
    exact .put h (hsound.withdrawFreeStock hpay) ((hrun.snoc (.silent rfl)).snoc (.silent rfl))
      (canonical_of_events hset (by simp [Event.principalAsset]))
  | completeRageQuitRewardSettlement caller assetUid user marketId principal hok =>
    simp only [completeRageQuitRewardSettlement, bind_eq_ok, pure_eq_ok, Except.ok.injEq,
      Prod.mk.injEq] at hok
    obtain ⟨-, -, ⟨l, n⟩, hok, rfl, rfl⟩ := hok
    have hsame : (s.put assetUid l s.world.balances).principal = s.principal := by
      obtain ⟨-, -, hl⟩ := of_completeRageQuitRewardSettlement hok
      refine principal_put_same (by rw [hl]) (by rw [hl]) fun u id => ?_
      rw [AssetLedger.allocation, hl]
      dsimp only
      rcases eq_or_ne id marketId with rfl | hid
      · rw [update_self]
        rcases eq_or_ne u user with rfl | hu
        · rw [completed_account_self]
          rfl
        · rw [completed_account_of_ne hu]
          rfl
      · rw [update_of_ne hid]
        rfl
    refine .put h ((h.ledger assetUid).completeRageQuitRewardSettlement hok) (.single ?_)
      (by simp [Event.principalAsset])
    rw [hsame]
    exact .silent rfl
  | recordGaugeRewardState caller assetUid marketId quoteAccumulator memeAccumulator hok =>
    simp only [recordGaugeRewardState, bind_eq_ok, pure_eq_ok, Except.ok.injEq] at hok
    obtain ⟨-, -, l, hok, rfl⟩ := hok
    have hsame : (s.put assetUid l s.world.balances).principal = s.principal := by
      obtain ⟨m, hrecord, hl⟩ := of_recordGaugeRewardState hok
      obtain ⟨-, -, rfl, -⟩ := ((h.ledger assetUid).market marketId).recorded hrecord
      refine principal_put_same (by rw [hl]) (by rw [hl]) fun u id => ?_
      rw [AssetLedger.allocation, hl]
      dsimp only
      rcases eq_or_ne id marketId with rfl | hid
      · rw [update_self]
        rfl
      · rw [update_of_ne hid]
        rfl
    refine .put h ((h.ledger assetUid).recordGaugeRewardState hok) ?_ (by simp)
    rw [hsame]
    exact .refl _
  | world hw =>
    exact ⟨⟨hw.assetsSound h.assetsSound, fun a => (h.ledger a).mono hw.now_le⟩, .refl _, by simp,
      fun a ha => ha.of_evolves hw h.assetsSound⟩

/-- **A run of the vault is a run of its events**: from no principal to that of the vault. -/
theorem moves_of_run {ess : List (List Event)} (hinit : Init v s)
    (hrun : Transition.Run (Emits platform bindings v) s ess s') :
    Reports v s ess.flatten s' ∧ s.principal = Principal.empty := by
  have hempty : s.principal = Principal.empty := by
    ext k <;> dsimp only [State.principal] <;> rw [hinit.ledger k.1] <;> rfl
  have hsound : LedgersSound s :=
    ⟨hinit.assetsSound, fun a => by rw [hinit.ledger a]; exact ledgerSound_empty _⟩
  refine ⟨?_, hempty⟩
  induction hrun with
  | refl => exact ⟨hsound, .refl _, by simp, fun _ h => h⟩
  | @snoc t u ess es _ hlast ih =>
    have hbefore := ih
    have hafter := reports_of_emits hbefore.sound hlast
    rw [List.flatten_append, List.flatten_singleton]
    refine ⟨hafter.sound, hbefore.moves.append hafter.moves, fun e he a ha => ?_, fun a ha => ?_⟩
    · rcases List.mem_append.mp he with h | h
      · exact hafter.frozen a (hbefore.canonical e h a ha)
      · exact hafter.canonical e h a ha
    · exact hafter.frozen a (hbefore.frozen a ha)

end Steps

end UserStockVault

end TickerGarden
