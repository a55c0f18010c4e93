import TickerGarden.Backend.Decoded
import TickerGarden.Lib.Reducer
import TickerGarden.Lib.Table
import TickerGarden.Vault.Events

/-!
# The replay of the principal

`replayPrincipal` of the principal projector rebuilds the accounts and allocations of the
stock vaults from their events, and throws whenever an event does not fit the ones before.

It keeps the totals of an account and, apart from them, one amount for each of its allocations,
and at the end adds the amounts up again and compares. On the events of a vault neither check
can fail. What the vault holds and what the replay has built agree (`Agrees`), and each event
takes both to the same amounts (`follows`), so that no event is out of range. And whatever the
events are, the amounts of the allocations add up to the totals as long as nothing is thrown
(`Components.replayEvent`). As the replay is a fold, batches give what one call gives
(`replayBatches_eq`).
-/

namespace TickerGarden

open Checked UserStockVault Function

namespace Backend

namespace PrincipalReplay

/-- `SourceBlock`: where an entry was last changed. -/
structure SourceBlock where
  chainId : ℕ
  blockNumber : ℕ
  blockHash : Bytes32
  transactionHash : Bytes32
  transactionIndex : ℕ
  logIndex : ℕ
deriving DecidableEq

/-- The principal of a user in an asset: what is deposited, free and allocated. -/
structure Account where
  user : Address
  assetUid : Bytes32
  vault : Address
  deposited : ℤ
  allocated : ℤ
  source : SourceBlock
deriving DecidableEq

/-- The principal of a user in a market. -/
structure Allocation where
  user : Address
  assetUid : Bytes32
  marketId : Bytes32
  amount : ℤ
  source : SourceBlock
deriving DecidableEq

/-- The two maps of a replay. Their keys are the texts of these words, separated by
colons. -/
structure Ledger where
  accounts : Table (Bytes32 × Address) Account
  allocations : Table (Bytes32 × Address × Bytes32) Allocation

/-- The maps a replay without a seed starts with. -/
def Ledger.empty : Ledger := ⟨∅, ∅⟩

/-! ### Reading values -/

/-- `hash`: a value that is one. -/
def hash (value : Option ArgValue) (label : String) : Except JsError Bytes32 :=
  match value with
  | some (.bytes32 h) => .ok h
  | _ => throwJs (label ++ " is invalid")

/-- `address`: a value that is one. -/
def address (value : Option ArgValue) (label : String) : Except JsError Address :=
  match value with
  | some (.address a) => .ok a
  | _ => throwJs (label ++ " is invalid")

/-- `bigint`: a value that is a word. -/
def bigint (value : Option ArgValue) (label : String) : Except JsError ℤ :=
  match value with
  | some (.bigint n) => if n < 0 ∨ n ≥ 2 ^ 256 then throwJs (label ++ " is invalid") else .ok n
  | _ => throwJs (label ++ " is invalid")

/-- `sourceBlock`. -/
def sourceBlock (log : RpcLog) (chainId : ℕ) : Except JsError SourceBlock := do
  let transactionIndex ← safeNumber log.transactionIndex "transaction index exceeds safe range"
  let logIndex ← safeNumber log.logIndex "log index exceeds safe range"
  return {
    chainId
    blockNumber := log.blockNumber
    blockHash := log.blockHash
    transactionHash := log.transactionHash
    transactionIndex
    logIndex }

/-! ### The replay -/

/-- The events the replay reads. All others are passed over. -/
def isPrincipal (event : DecodedProtocolEvent) : Bool :=
  event.module = .userStockVault && (event.eventName = .stockDeposited ||
    event.eventName = .stockWithdrawn || event.eventName = .allocationLocked ||
    event.eventName = .allocationReleased)

/-- A lock or a release: both the allocation and the total of its user change, and have to be
what the event reports. -/
def moveAllocation (ledger : Ledger) (event : DecodedProtocolEvent) (assetUid : Bytes32)
    (user : Address) (account : Account) (amount : ℤ) (source : SourceBlock) :
    Except JsError (Account × Table (Bytes32 × Address × Bytes32) Allocation) := do
  let marketId ← hash (event.args .marketId) "marketId"
  let allocationKey := (assetUid, user, marketId)
  let allocation := (ledger.allocations.lookup allocationKey).getD
    { user, assetUid, marketId, amount := 0, source }
  let change := if event.eventName = .allocationLocked then amount else -amount
  let allocation := { allocation with amount := allocation.amount + change }
  let account := { account with allocated := account.allocated + change }
  throwIf (allocation.amount < 0) "principal event checkpoint mismatch"
  let userMarketAllocation ← bigint (event.args .userMarketAllocation) "market allocation"
  throwIf (allocation.amount ≠ userMarketAllocation) "principal event checkpoint mismatch"
  let userTotalAllocated ← bigint (event.args .userTotalAllocated) "total allocation"
  throwIf (account.allocated ≠ userTotalAllocated) "principal event checkpoint mismatch"
  return (account, ledger.allocations.insert allocationKey { allocation with source })

/-- What each kind of event does to the account and the allocations. -/
def moveAccount (ledger : Ledger) (event : DecodedProtocolEvent) (assetUid : Bytes32)
    (user : Address) (account : Account) (amount : ℤ) (source : SourceBlock) :
    Except JsError (Account × Table (Bytes32 × Address × Bytes32) Allocation) :=
  if event.eventName = .stockDeposited then
    .ok ({ account with deposited := account.deposited + amount }, ledger.allocations)
  else if event.eventName = .stockWithdrawn then
    .ok ({ account with deposited := account.deposited - amount }, ledger.allocations)
  else moveAllocation ledger event assetUid user account amount source

/-- One turn of the loop over the events. -/
def replayEvent (chainId : ℕ) (assetVaults : Bytes32 → Option Address) (ledger : Ledger)
    (event : DecodedProtocolEvent) : Except JsError Ledger :=
  if isPrincipal event then do
    let assetUid ← hash (event.args .assetUid) "assetUid"
    let user ← address (event.args .user) "user"
    throwIf (user = 0) "zero principal user"
    let vault ← orRevert (assetVaults assetUid) ⟨"principal event asset/Vault binding mismatch"⟩
    throwIf (event.log.address ≠ vault) "principal event asset/Vault binding mismatch"
    let amount ← bigint (event.args .amount) "principal amount"
    throwIf (amount = 0) "zero principal event amount"
    let source ← sourceBlock event.log chainId
    let key := (assetUid, user)
    let account := (ledger.accounts.lookup key).getD
      { user, assetUid, vault, deposited := 0, allocated := 0, source }
    let (account, allocations) ← moveAccount ledger event assetUid user account amount source
    throwIf (account.deposited < 0 ∨ account.allocated < 0 ∨ account.allocated > account.deposited)
      "principal conservation violation"
    return ⟨ledger.accounts.insert key { account with source }, allocations⟩
  else .ok ledger

/-- The sums of the allocations of each account. -/
def componentSums (allocations : Table (Bytes32 × Address × Bytes32) Allocation) :
    Table (Bytes32 × Address) ℤ :=
  (allocations.entries.map Sigma.snd).foldl (fun sums allocation =>
    sums.insert (allocation.assetUid, allocation.user)
      ((sums.lookup (allocation.assetUid, allocation.user)).getD 0 + allocation.amount)) ∅

/-- `replayPrincipal`: the events are read in order. Only without a seed are the allocations
added up at the end. -/
def replayPrincipal (events : List DecodedProtocolEvent) (chainId : ℕ)
    (assetVaults : Bytes32 → Option Address) (seed : Option Ledger) : Except JsError Ledger := do
  let ledger ← events.foldlM (replayEvent chainId assetVaults) (seed.getD Ledger.empty)
  let sums := componentSums ledger.allocations
  throwIf (seed = none ∧ ∃ e ∈ ledger.accounts.entries, (sums.lookup e.1).getD 0 ≠ e.2.allocated)
    "allocation components do not equal account allocated total"
  return ledger

/-! ### What the replay reads of the vault -/

/-- A log of the vault, decoded. -/
def decodeVaultEvent (log : RpcLog) : UserStockVault.Event → DecodedProtocolEvent
  | .stockDeposited assetUid user amount =>
    ⟨.userStockVault, .stockDeposited, args [(.assetUid, .bytes32 assetUid), (.user, .address user),
      (.amount, .bigint amount)], log⟩
  | .stockWithdrawn assetUid user amount =>
    ⟨.userStockVault, .stockWithdrawn, args [(.assetUid, .bytes32 assetUid), (.user, .address user),
      (.amount, .bigint amount)], log⟩
  | .allocationLocked assetUid user marketId amount userMarketAllocation userTotalAllocated =>
    ⟨.userStockVault, .allocationLocked, args [(.assetUid, .bytes32 assetUid),
      (.user, .address user), (.marketId, .bytes32 marketId), (.amount, .bigint amount),
      (.userMarketAllocation, .bigint userMarketAllocation),
      (.userTotalAllocated, .bigint userTotalAllocated)], log⟩
  | .allocationReleased assetUid user marketId amount userMarketAllocation userTotalAllocated =>
    ⟨.userStockVault, .allocationReleased, args [(.assetUid, .bytes32 assetUid),
      (.user, .address user), (.marketId, .bytes32 marketId), (.amount, .bigint amount),
      (.userMarketAllocation, .bigint userMarketAllocation),
      (.userTotalAllocated, .bigint userTotalAllocated)], log⟩
  | .allocationRageQuit assetUid user marketId amount =>
    ⟨.userStockVault, .other "AllocationRageQuit", args [(.assetUid, .bytes32 assetUid),
      (.user, .address user), (.marketId, .bytes32 marketId), (.amount, .bigint amount)], log⟩
  | .rageQuitRewardSettlementQueued assetUid user marketId principal =>
    ⟨.userStockVault, .other "RageQuitRewardSettlementQueued", args [(.assetUid, .bytes32 assetUid),
      (.user, .address user), (.marketId, .bytes32 marketId), (.principal, .bigint principal)], log⟩
  | .rageQuitRewardSettlementCompleted assetUid user marketId principal =>
    ⟨.userStockVault, .other "RageQuitRewardSettlementCompleted",
      args [(.assetUid, .bytes32 assetUid), (.user, .address user), (.marketId, .bytes32 marketId),
        (.principal, .bigint principal)], log⟩

theorem bigint_natCast {n : ℕ} {label : String} (h : n ≤ maxUint256) :
    bigint (some (.bigint n)) label = .ok (n : ℤ) := by
  have hmax : (n : ℤ) < 2 ^ 256 := by
    have hlt : n < 2 ^ 256 := Nat.lt_of_le_pred (by decide) h
    exact_mod_cast hlt
  have hnot : ¬ ((n : ℤ) < 0 ∨ (n : ℤ) ≥ 2 ^ 256) := by omega
  rw [bigint, if_neg hnot]

theorem sourceBlock_eq (log : RpcLog) (chainId : ℕ) : ∃ source, sourceBlock log chainId = .ok source :=
  ⟨_, by rw [sourceBlock, safeNumber_transactionIndex, ok_bind, safeNumber_logIndex, ok_bind]; rfl⟩

section Event

variable {chainId : ℕ} {assetVaults : Bytes32 → Option Address} {r r' : Ledger}
  {event : DecodedProtocolEvent} {assetUid : Bytes32} {user : Address} {amount : ℕ}

/-- An event of principal that passes all checks. -/
theorem replayEvent_eq {source : SourceBlock} {account : Account}
    {allocations : Table (Bytes32 × Address × Bytes32) Allocation}
    (hprincipal : isPrincipal event = true)
    (hasset : event.args .assetUid = some (.bytes32 assetUid))
    (huserArg : event.args .user = some (.address user))
    (hamountArg : event.args .amount = some (.bigint amount))
    (huser : user ≠ 0) (hvault : assetVaults assetUid = some event.log.address)
    (hamount : amount ≠ 0) (hmax : amount ≤ maxUint256)
    (hsource : sourceBlock event.log chainId = .ok source)
    (hmove : moveAccount r event assetUid user ((r.accounts.lookup (assetUid, user)).getD
      ⟨user, assetUid, event.log.address, 0, 0, source⟩) amount source = .ok (account, allocations))
    (hconserved : ¬ (account.deposited < 0 ∨ account.allocated < 0
      ∨ account.allocated > account.deposited)) :
    replayEvent chainId assetVaults r event
      = .ok ⟨r.accounts.insert (assetUid, user) { account with source }, allocations⟩ := by
  have hnat : (amount : ℤ) ≠ 0 := Nat.cast_ne_zero.mpr hamount
  have hbound : orRevert (assetVaults assetUid)
      (⟨"principal event asset/Vault binding mismatch"⟩ : JsError) = .ok event.log.address := by
    rw [hvault]
    rfl
  have hsame : ¬ event.log.address ≠ event.log.address := fun h => h rfl
  rw [replayEvent, if_pos hprincipal, hasset, huserArg, hamountArg, hsource]
  simp only [hash, address, bigint_natCast hmax, ok_bind, revertIf_neg huser, hbound,
    revertIf_neg hsame, revertIf_neg hnat, hmove, revertIf_neg hconserved]
  rfl

end Event

/-! ### The replay follows the vault -/

/-- **The replay agrees with the principal** of a vault: the amounts of all accounts and
allocations are the same, and an entry that is missing is zero. -/
structure Agrees (p : Principal) (r : Ledger) : Prop where
  deposited : ∀ k, (r.accounts.lookup k).elim 0 Account.deposited = (p.deposited k : ℤ)
  allocated : ∀ k, (r.accounts.lookup k).elim 0 Account.allocated = (p.allocated k : ℤ)
  allocation : ∀ k, (r.allocations.lookup k).elim 0 Allocation.amount = (p.allocation k : ℤ)

theorem agrees_empty : Agrees Principal.empty Ledger.empty where
  deposited _ := rfl
  allocated _ := rfl
  allocation _ := rfl

section Agrees

variable {p q : Principal} {r : Ledger} {k : Bytes32 × Address} {n total : ℕ} {account : Account}
  {allocation : Allocation} {assetUid marketId : Bytes32} {user : Address}

/-- A deposit changes. -/
theorem Agrees.redeposit (h : Agrees p r) (hdeposited : account.deposited = n)
    (hallocated : account.allocated = p.allocated k) :
    Agrees (p.redeposit k n) ⟨r.accounts.insert k account, r.allocations⟩ := by
  refine ⟨fun k' => ?_, fun k' => ?_, h.allocation⟩ <;> dsimp only [Principal.redeposit] <;>
    rcases eq_or_ne k' k with rfl | hne
  · rw [AList.lookup_insert, update_self]
    exact hdeposited
  · rw [AList.lookup_insert_ne hne, update_of_ne hne]
    exact h.deposited k'
  · rw [AList.lookup_insert]
    exact hallocated
  · rw [AList.lookup_insert_ne hne]
    exact h.allocated k'

/-- An allocation changes. -/
theorem Agrees.reallocate (h : Agrees p r)
    (hdeposited : account.deposited = p.deposited (assetUid, user))
    (hallocated : account.allocated = total) (hamount : allocation.amount = n) :
    Agrees (p.reallocate assetUid user marketId n total)
      ⟨r.accounts.insert (assetUid, user) account,
        r.allocations.insert (assetUid, user, marketId) allocation⟩ := by
  refine ⟨fun k => ?_, fun k => ?_, fun k => ?_⟩ <;> dsimp only [Principal.reallocate]
  · rcases eq_or_ne k (assetUid, user) with rfl | hne
    · rw [AList.lookup_insert]
      exact hdeposited
    · rw [AList.lookup_insert_ne hne]
      exact h.deposited k
  · rcases eq_or_ne k (assetUid, user) with rfl | hne
    · rw [AList.lookup_insert, update_self]
      exact hallocated
    · rw [AList.lookup_insert_ne hne, update_of_ne hne]
      exact h.allocated k
  · rcases eq_or_ne k (assetUid, user, marketId) with rfl | hne
    · rw [AList.lookup_insert, update_self]
      exact hamount
    · rw [AList.lookup_insert_ne hne, update_of_ne hne]
      exact h.allocation k

/-- The account an event is about, or a new one. -/
theorem Agrees.account_getD (h : Agrees p r) (vault : Address) (source : SourceBlock) :
    ((r.accounts.lookup k).getD ⟨k.2, k.1, vault, 0, 0, source⟩).deposited = p.deposited k ∧
      ((r.accounts.lookup k).getD ⟨k.2, k.1, vault, 0, 0, source⟩).allocated = p.allocated k :=
  ⟨(Table.elim_getD r.accounts _ _ Account.deposited rfl).symm.trans (h.deposited _),
    (Table.elim_getD r.accounts _ _ Account.allocated rfl).symm.trans (h.allocated _)⟩

theorem moveAllocation_eq (event : DecodedProtocolEvent) (amount : ℕ) (source : SourceBlock)
    {d : ℤ} (h : Agrees p r) (hmarket : event.args .marketId = some (.bytes32 marketId))
    (hmarketArg : event.args .userMarketAllocation = some (.bigint n))
    (htotalArg : event.args .userTotalAllocated = some (.bigint total))
    (hn : n ≤ maxUint256) (htotal : total ≤ maxUint256)
    (hd : d = if event.eventName = .allocationLocked then (amount : ℤ) else -amount)
    (hamount : (p.allocation (assetUid, user, marketId) : ℤ) + d = n)
    (hallocated : account.allocated + d = total) :
    ∃ allocation : Allocation, allocation.amount = n ∧
      moveAllocation r event assetUid user account amount source
        = .ok ({ account with allocated := total },
          r.allocations.insert (assetUid, user, marketId) allocation) := by
  have hbefore : ((r.allocations.lookup (assetUid, user, marketId)).getD
      ⟨user, assetUid, marketId, 0, source⟩).amount
        = p.allocation (assetUid, user, marketId) :=
    (Table.elim_getD r.allocations _ _ Allocation.amount rfl).symm.trans (h.allocation _)
  have hnonneg : ¬ (n : ℤ) < 0 := by omega
  refine ⟨{ (r.allocations.lookup (assetUid, user, marketId)).getD
    ⟨user, assetUid, marketId, 0, source⟩ with amount := n, source }, rfl, ?_⟩
  rw [moveAllocation, hmarket, hmarketArg, htotalArg]
  simp only [hash, ok_bind, bigint_natCast hn, bigint_natCast htotal, ← hd, hbefore, hamount,
    hallocated, revertIf_neg hnonneg, ne_eq, not_true_eq_false, revertIf_neg not_false]
  rfl

/-- An account that may have what it has. -/
theorem conservation {deposited allocated : ℕ} (h : allocated ≤ deposited)
    (hdeposited : account.deposited = deposited) (hallocated : account.allocated = allocated) :
    ¬ (account.deposited < 0 ∨ account.allocated < 0 ∨ account.allocated > account.deposited) := by
  rw [hdeposited, hallocated]
  omega

/-- **The replay can follow every event**: an event that moves the principal passes all
checks. -/
theorem follows {e : UserStockVault.Event} {log : RpcLog} (chainId : ℕ)
    {assetVaults : Bytes32 → Option Address} (h : p.Moves e q) (hp : p.Solvent) (hr : Agrees p r)
    (hvault : ∀ a, e.principalAsset = some a → assetVaults a = some log.address) :
    ∃ r', replayEvent chainId assetVaults r (decodeVaultEvent log e) = .ok r' ∧ Agrees q r' := by
  obtain ⟨source, hsource⟩ := sourceBlock_eq log chainId
  cases h with
  | @deposit assetUid user amount huser hamount hbound =>
    obtain ⟨hdeposited, hallocated⟩ := hr.account_getD (k := (assetUid, user)) log.address source
    have hafter : ((r.accounts.lookup (assetUid, user)).getD
        ⟨user, assetUid, log.address, 0, 0, source⟩).deposited + amount
          = ((p.deposited (assetUid, user) + amount : ℕ) : ℤ) := by
      rw [hdeposited, Nat.cast_add]
    have hle : p.allocated (assetUid, user) ≤ p.deposited (assetUid, user) + amount :=
      (hp.allocated_le _).trans (Nat.le_add_right _ _)
    exact ⟨_, replayEvent_eq rfl rfl rfl rfl huser (hvault _ rfl) hamount (by omega) hsource rfl
      (conservation hle hafter hallocated), hr.redeposit hafter hallocated⟩
  | @withdraw assetUid user amount hamount hfree =>
    obtain ⟨hdeposited, hallocated⟩ := hr.account_getD (k := (assetUid, user)) log.address source
    have hbound := hp.bounded (assetUid, user)
    have hafter : ((r.accounts.lookup (assetUid, user)).getD
        ⟨user, assetUid, log.address, 0, 0, source⟩).deposited - amount
          = ((p.deposited (assetUid, user) - amount : ℕ) : ℤ) := by
      rw [hdeposited, Nat.cast_sub (by omega)]
    -- the zero address has deposited nothing
    have huser : user ≠ 0 := by
      rintro rfl
      have hnobody := hp.nobody assetUid
      omega
    exact ⟨_, replayEvent_eq rfl rfl rfl rfl huser (hvault _ rfl) hamount (by omega) hsource rfl
      (conservation (by omega) hafter hallocated), hr.redeposit hafter hallocated⟩
  | @lock assetUid marketId user amount huser hamount hfree hbound =>
    obtain ⟨hdeposited, hallocated⟩ := hr.account_getD (k := (assetUid, user)) log.address source
    have hmax := hp.bounded (assetUid, user)
    obtain ⟨allocation, hallocation, hmove⟩ := moveAllocation_eq
      (decodeVaultEvent log (.allocationLocked assetUid user marketId amount _ _)) amount source hr
      rfl rfl rfl hbound (hfree.trans hmax) (if_pos rfl).symm (Nat.cast_add _ _).symm
      (by rw [hallocated, Nat.cast_add])
    exact ⟨_, replayEvent_eq rfl rfl rfl rfl huser (hvault _ rfl) hamount (by omega) hsource hmove
      (conservation hfree hdeposited rfl), hr.reallocate hdeposited rfl hallocation⟩
  | @release assetUid marketId user amount huser hamount hall hle =>
    obtain ⟨hdeposited, hallocated⟩ := hr.account_getD (k := (assetUid, user)) log.address source
    have hmax := hp.bounded (assetUid, user)
    have hfree := hp.allocated_le (assetUid, user)
    obtain ⟨allocation, hallocation, hmove⟩ := moveAllocation_eq
      (decodeVaultEvent log (.allocationReleased assetUid user marketId amount 0
        (p.allocated (assetUid, user) - amount))) amount source hr rfl rfl rfl (Nat.zero_le _)
      (by omega) (if_neg EventName.noConfusion).symm (by rw [hall]; omega)
      (by rw [hallocated, Nat.cast_sub hle]; rfl)
    exact ⟨_, replayEvent_eq rfl rfl rfl rfl huser (hvault _ rfl) hamount (by omega) hsource hmove
      (conservation (by omega) hdeposited rfl), hr.reallocate hdeposited rfl hallocation⟩
  | silent hnone =>
    refine ⟨r, if_neg ?_, hr⟩
    cases e with
    | stockDeposited => cases hnone
    | stockWithdrawn => cases hnone
    | allocationLocked => cases hnone
    | allocationReleased => cases hnone
    | allocationRageQuit => exact Bool.false_ne_true
    | rageQuitRewardSettlementQueued => exact Bool.false_ne_true
    | rageQuitRewardSettlementCompleted => exact Bool.false_ne_true

end Agrees

/-! ### The allocations of an account add up -/

/-- **The components add up**: an allocation is filed under its account, and the allocations
of each account add up to what it has allocated. -/
structure Components (r : Ledger) : Prop where
  keyed : ∀ e ∈ r.allocations.entries, (e.2.assetUid, e.2.user) = (e.1.1, e.1.2.1)
  sums : ∀ k, Table.total (fun key allocation => if (key.1, key.2.1) = k then allocation.amount
    else 0) r.allocations = (r.accounts.lookup k).elim 0 Account.allocated

theorem components_empty : Components Ledger.empty where
  keyed _ he := by cases he
  sums _ := rfl

section Components

variable {r r' : Ledger} {chainId : ℕ} {assetVaults : Bytes32 → Option Address}
  {event : DecodedProtocolEvent} {assetUid : Bytes32} {user : Address} {source : SourceBlock}

/-- The sums the loop computes. -/
theorem Components.componentSums_eq (h : Components r) (k : Bytes32 × Address) :
    ((componentSums r.allocations).lookup k).getD 0
      = (r.accounts.lookup k).elim 0 Account.allocated := by
  rw [← h.sums k, componentSums, Table.lookup_accumulate (fun allocation : Allocation =>
    (allocation.assetUid, allocation.user)) Allocation.amount, AList.lookup_empty, List.map_map,
    Option.getD_none, zero_add, Table.total]
  congr 1
  refine List.map_congr_left fun e he => ?_
  rw [← h.keyed e he]
  rfl

/-- What an event does to the account and the allocations: nothing, or the same to both. -/
theorem moveAccount_eq_ok {account account' : Account} {amount : ℤ}
    {allocations : Table (Bytes32 × Address × Bytes32) Allocation}
    (h : moveAccount r event assetUid user account amount source = .ok (account', allocations)) :
    (account'.allocated = account.allocated ∧ allocations = r.allocations) ∨
      ∃ marketId change, account'.allocated = account.allocated + change ∧
        allocations = r.allocations.insert (assetUid, user, marketId)
          { (r.allocations.lookup (assetUid, user, marketId)).getD
              ⟨user, assetUid, marketId, 0, source⟩ with
            amount := ((r.allocations.lookup (assetUid, user, marketId)).getD
              ⟨user, assetUid, marketId, 0, source⟩).amount + change
            source } := by
  rw [moveAccount] at h
  split at h
  · obtain ⟨rfl, rfl⟩ := Prod.mk.inj (Except.ok.inj h)
    exact .inl ⟨rfl, rfl⟩
  · split at h
    · obtain ⟨rfl, rfl⟩ := Prod.mk.inj (Except.ok.inj h)
      exact .inl ⟨rfl, rfl⟩
    · simp only [moveAllocation, bind_eq_ok, revertIf_eq_ok, pure_eq_ok, Except.ok.injEq,
        Prod.mk.injEq] at h
      obtain ⟨marketId, -, -, -, _, -, -, -, _, -, -, -, rfl, rfl⟩ := h
      exact .inr ⟨marketId, _, rfl, rfl⟩

/-- **Every event keeps the sums.** -/
theorem Components.replayEvent (h : Components r)
    (hok : PrincipalReplay.replayEvent chainId assetVaults r event = .ok r') : Components r' := by
  rw [PrincipalReplay.replayEvent] at hok
  split at hok
  case isFalse =>
    cases hok
    exact h
  simp only [bind_eq_ok, revertIf_eq_ok, pure_eq_ok, Except.ok.injEq] at hok
  obtain ⟨assetUid, -, user, -, -, -, vault, -, -, -, amount, -, -, -, source, -, ⟨account, allocations⟩,
    hmove, -, -, rfl⟩ := hok
  have hbefore : ((r.accounts.lookup (assetUid, user)).getD
      ⟨user, assetUid, vault, 0, 0, source⟩).allocated
        = (r.accounts.lookup (assetUid, user)).elim 0 Account.allocated :=
    (Table.elim_getD r.accounts _ _ Account.allocated rfl).symm
  rcases moveAccount_eq_ok hmove with ⟨hsame, rfl⟩ | ⟨marketId, change, hchange, rfl⟩
  · refine ⟨h.keyed, fun k => ?_⟩
    rw [h.sums k]
    rcases eq_or_ne k (assetUid, user) with rfl | hne
    · rw [AList.lookup_insert]
      exact (hsame.trans hbefore).symm
    · rw [AList.lookup_insert_ne hne]
  · have hfiled : ∀ allocation, r.allocations.lookup (assetUid, user, marketId) = some allocation →
        (allocation.assetUid, allocation.user) = (assetUid, user) := fun allocation hmem =>
      h.keyed ⟨(assetUid, user, marketId), allocation⟩ (AList.mem_lookup_iff.mp hmem)
    refine ⟨fun e he => ?_, fun k => ?_⟩
    · rw [AList.entries_insert] at he
      rcases List.mem_cons.mp he with rfl | he
      · cases hmem : r.allocations.lookup (assetUid, user, marketId) with
        | none => rfl
        | some allocation => exact hfiled allocation hmem
      · exact h.keyed e (List.mem_of_mem_eraseP he)
    · rw [Table.total_insert, h.sums k]
      have hold := Table.elim_getD r.allocations (assetUid, user, marketId)
        ⟨user, assetUid, marketId, 0, source⟩ Allocation.amount rfl
      rcases eq_or_ne k (assetUid, user) with rfl | hne
      · rw [AList.lookup_insert]
        simp only [if_true, hold, Option.elim_some, hchange, hbefore]
        omega
      · rw [AList.lookup_insert_ne hne]
        simp only [if_neg hne.symm]
        cases r.allocations.lookup (assetUid, user, marketId) <;> simp

/-- **The sums never disagree**: a replay throws only what one of its events throws, whatever
it starts from. -/
theorem replayPrincipal_eq (events : List DecodedProtocolEvent) (seed : Option Ledger) :
    replayPrincipal events chainId assetVaults seed
      = events.foldlM (PrincipalReplay.replayEvent chainId assetVaults) (seed.getD Ledger.empty) := by
  rw [replayPrincipal]
  cases hfold : events.foldlM (PrincipalReplay.replayEvent chainId assetVaults)
      (seed.getD Ledger.empty) with
  | error e => rfl
  | ok r =>
    rw [ok_bind]
    refine bind_eq_ok.mpr ⟨(), revertIf_eq_ok.mpr ?_, rfl⟩
    rintro ⟨rfl, e, he, hne⟩
    have hr : Components r :=
      Reducer.invariant (fun _ _ _ hs hok => hs.replayEvent hok) hfold components_empty
    rw [hr.componentSums_eq, AList.mem_lookup_iff.mpr he] at hne
    exact hne rfl

end Components

/-! ### The result -/

/-- Batches of events, each replayed with the result of the one before as its seed. -/
def replayBatches (batches : List (List DecodedProtocolEvent)) (chainId : ℕ)
    (assetVaults : Bytes32 → Option Address) (seed : Option Ledger) :
    Except JsError (Option Ledger) :=
  batches.foldlM (fun seed events => some <$> replayPrincipal events chainId assetVaults seed) seed

/-- **Batches may be cut anywhere.** -/
theorem replayBatches_eq {chainId : ℕ} {assetVaults : Bytes32 → Option Address}
    {batches : List (List DecodedProtocolEvent)} (hne : batches ≠ []) (seed : Option Ledger) :
    replayBatches batches chainId assetVaults seed
      = some <$> replayPrincipal batches.flatten chainId assetVaults seed := by
  have hloop : ∀ (rest : List (List DecodedProtocolEvent)) (r : Ledger),
      rest.foldlM (fun seed events => some <$> replayPrincipal events chainId assetVaults seed)
        (some r) = some <$> rest.flatten.foldlM (replayEvent chainId assetVaults) r := by
    intro rest
    induction rest with
    | nil => exact fun r => rfl
    | cons batch rest ih =>
      intro r
      rw [List.foldlM_cons, List.flatten_cons, List.foldlM_append, replayPrincipal_eq,
        Option.getD_some]
      cases batch.foldlM (replayEvent chainId assetVaults) r with
      | error e => rfl
      | ok r' => exact ih r'
  cases batches with
  | nil => exact absurd rfl hne
  | cons batch rest =>
    rw [replayBatches, List.foldlM_cons, List.flatten_cons, replayPrincipal_eq, replayPrincipal_eq,
      List.foldlM_append]
    cases batch.foldlM (replayEvent chainId assetVaults) (seed.getD Ledger.empty) with
    | error e => rfl
    | ok r => exact hloop rest r

namespace Ledger

variable (r : Ledger) (assetUid : Bytes32) (user : Address) (marketId : Bytes32)

/-- What a user has deposited, by the replay. -/
def deposited : ℤ := (r.accounts.lookup (assetUid, user)).elim 0 Account.deposited

/-- What a user has allocated, by the replay. -/
def allocated : ℤ := (r.accounts.lookup (assetUid, user)).elim 0 Account.allocated

/-- What a user has allocated to a market, by the replay. -/
def allocation : ℤ := (r.allocations.lookup (assetUid, user, marketId)).elim 0 Allocation.amount

end Ledger

/-- **A replay reproduces a vault.** -/
structure Reproduces (s : State) (r : Ledger) : Prop where
  deposited : ∀ assetUid user, r.deposited assetUid user = (s.ledger assetUid).deposited user
  allocated : ∀ assetUid user, r.allocated assetUid user = (s.ledger assetUid).allocated user
  allocation : ∀ assetUid user marketId,
    r.allocation assetUid user marketId = (s.ledger assetUid).allocation user marketId

/-- An event of the vault and what is read of it: some log of the vault, decoded. -/
def Logged (v : Immutables) (e : UserStockVault.Event) (event : DecodedProtocolEvent) : Prop :=
  ∃ log : RpcLog, log.address = v.self ∧ event = decodeVaultEvent log e

/-- **The replay simulates the vault**: read in order, the events of a run from deployment
pass all checks and reproduce the vault, and it does not matter how they are cut into batches.
The map of vaults has those of the assets the vault accepts. -/
theorem principal_replay {platform : Platform} {bindings : MarketRegistry.Bindings} {v : Immutables}
    {s t : State} {ess : List (List UserStockVault.Event)} {events : List DecodedProtocolEvent}
    {assetVaults : Bytes32 → Option Address} (chainId : ℕ) (hinit : Init v s)
    (hrun : Transition.Run (Emits platform bindings v) s ess t)
    (hvaults : ∀ assetUid, Canonical v t.world assetUid → assetVaults assetUid = some v.self)
    (hlog : List.Forall₂ (Logged v) ess.flatten events) :
    ∃ r, replayPrincipal events chainId assetVaults none = .ok r ∧ Reproduces t r ∧
      ∀ batches, batches ≠ [] → batches.flatten = events →
        replayBatches batches chainId assetVaults none = .ok (some r) := by
  obtain ⟨hreports, hempty⟩ := moves_of_run hinit hrun
  have hmoves : Transition.Run Principal.Moves Principal.empty ess.flatten t.principal := by
    rw [← hempty]
    exact hreports.moves
  -- the events are about assets of the vault, so each step can be followed
  have hfollow : ∃ r, events.foldlM (replayEvent chainId assetVaults) Ledger.empty = .ok r ∧
      t.principal.Solvent ∧ Agrees t.principal r := by
    refine Reducer.refines_of_run (R := fun p r => p.Solvent ∧ Agrees p r) ?_ hmoves
      ((List.forall₂_and_left _ _).mpr ⟨fun e he a ha => hvaults a (hreports.canonical e he a ha),
        hlog⟩) ⟨Principal.solvent_empty, agrees_empty⟩
    rintro p e q event r ⟨hp, hr⟩ hmove ⟨hvault, log, haddress, rfl⟩
    rw [← haddress] at hvault
    obtain ⟨r', hok, hr'⟩ := follows chainId hmove hp hr hvault
    exact ⟨r', hok, hmove.solvent hp, hr'⟩
  obtain ⟨r, hfold, -, hr⟩ := hfollow
  have hreplay : replayPrincipal events chainId assetVaults none = .ok r := by
    rw [replayPrincipal_eq]
    exact hfold
  refine ⟨r, hreplay, ⟨fun a u => hr.deposited (a, u), fun a u => hr.allocated (a, u),
    fun a u id => hr.allocation (a, u, id)⟩, fun batches hne hflat => ?_⟩
  rw [replayBatches_eq hne, hflat, hreplay]
  rfl

/-! ### The small vault, replayed -/

namespace Sample

/-- A log of the vault. -/
def log : RpcLog where
  address := 50
  blockHash := 1
  blockNumber := 1
  transactionHash := 1
  transactionIndex := 0
  logIndex := 0
  transactionIndex_le := zero_le_maxSafeInteger
  logIndex_le := zero_le_maxSafeInteger

/-- The deposit of a thousand tokens, and the lock of half of them. -/
def events : List UserStockVault.Event :=
  [.stockDeposited 1 200 1000, .allocationLocked 1 200 1 500 500 500]

theorem run : Transition.Run (Emits DocumentedV4.platform UserStockVault.Sample.bindings
    UserStockVault.Sample.vault) UserStockVault.Sample.start
    [[.stockDeposited 1 200 1000], [.allocationLocked 1 200 1 500
      ((UserStockVault.Sample.locked.ledger 1).allocation 200 1)
      ((UserStockVault.Sample.locked.ledger 1).allocated 200)]] UserStockVault.Sample.locked :=
  ((Transition.Run.refl _).snoc (Emits.depositStock 200 1 1000
    (eq_ok_value UserStockVault.Sample.deposit_isOk))).snoc
      (Emits.lockAllocation 60 1 200 1 500 (eq_ok_value UserStockVault.Sample.lock_isOk))

theorem logged : [[UserStockVault.Event.stockDeposited 1 200 1000], [.allocationLocked 1 200 1 500
      ((UserStockVault.Sample.locked.ledger 1).allocation 200 1)
      ((UserStockVault.Sample.locked.ledger 1).allocated 200)]].flatten = events := by
  decide +kernel

end Sample

/-- The replay of the small vault, at once and one event at a time. -/
theorem principal_replay_sample :
    ∃ r, replayPrincipal (Sample.events.map (decodeVaultEvent Sample.log)) 46630
        (fun _ => some 50) none = .ok r ∧ Reproduces UserStockVault.Sample.locked r ∧
      replayBatches (Sample.events.map fun e => [decodeVaultEvent Sample.log e]) 46630
        (fun _ => some 50) none = .ok (some r) := by
  have hlog : List.Forall₂ (Logged UserStockVault.Sample.vault) Sample.events
      (Sample.events.map (decodeVaultEvent Sample.log)) :=
    .cons ⟨Sample.log, rfl, rfl⟩ (.cons ⟨Sample.log, rfl, rfl⟩ .nil)
  rw [← Sample.logged] at hlog
  obtain ⟨r, hreplay, hsame, hbatches⟩ := principal_replay 46630 UserStockVault.Sample.init_start
    Sample.run (fun _ _ => rfl) hlog
  rw [Sample.logged] at hreplay hbatches
  exact ⟨r, hreplay, hsame, hbatches _ (List.cons_ne_nil _ _) rfl⟩

end PrincipalReplay

end Backend

end TickerGarden
