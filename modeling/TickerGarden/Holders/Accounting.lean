import TickerGarden.Holders.Distributor
import TickerGarden.Lib.Reducer
import TickerGarden.Vault.Principal

/-!
# The accounts of the holder rewards

What the distributor owes in an asset is what its markets have not allocated yet and what is
left of the budgets of their rounds, and this is what it counts as its liability. The result,
`TickerGarden.HolderRewards.holder_rewards_accounting`, also says that a budget is exactly
what has been paid of it and what remains, that nobody is paid twice for the same asset of the
same round, that rounds are numbered without gaps and ordered by their blocks, and that a
published round keeps its terms.
-/

namespace TickerGarden

open Checked Function

namespace HolderRewards

/-! ### Both assets alike -/

/-- The asset of a side. -/
def Market.asset (m : Market) : Side → Address
  | .quote => m.quote
  | .meme => m.token

/-- What a market has not allocated of an asset. -/
def Market.unallocated (m : Market) : Side → ℕ
  | .quote => m.unallocatedQuote
  | .meme => m.unallocatedMeme

/-- What a round may pay of an asset. -/
def Round.budget (r : Round) : Side → ℕ
  | .quote => r.quoteBudget
  | .meme => r.memeBudget

/-- What a round has left of an asset. -/
def Round.remaining (r : Round) : Side → ℕ
  | .quote => r.quoteRemaining
  | .meme => r.memeRemaining

/-- The bit that selects an asset in a claim. -/
def Side.bit : Side → BitVec 8
  | .quote => 1
  | .meme => 2

/-- Whether a claim selects an asset. -/
def selects (assets : BitVec 8) (side : Side) : Bool := assets &&& side.bit ≠ 0

theorem selects_quote : ∀ assets : BitVec 8, selects assets .quote = assets.getLsbD 0 := by
  decide +kernel

theorem selects_meme : ∀ assets : BitVec 8, selects assets .meme = assets.getLsbD 1 := by
  decide +kernel

/-- What is selected by one of two claims. -/
theorem selects_or (a b : BitVec 8) (side : Side) :
    selects (a ||| b) side = (selects a side || selects b side) := by
  cases side <;> simp only [selects_quote, selects_meme, BitVec.getLsbD_or]

/-- Claims that have nothing in common select different assets. -/
theorem selects_of_disjoint {a b : BitVec 8} (h : a &&& b = 0) (side : Side) :
    ¬ (selects a side = true ∧ selects b side = true) := by
  cases side <;> simp only [selects_quote, selects_meme] <;> rintro ⟨ha, hb⟩
  · have hbit : (a &&& b).getLsbD 0 = true := by rw [BitVec.getLsbD_and, ha, hb]; rfl
    rw [h] at hbit
    cases hbit
  · have hbit : (a &&& b).getLsbD 1 = true := by rw [BitVec.getLsbD_and, ha, hb]; rfl
    rw [h] at hbit
    cases hbit

/-! ### What is owed -/

/-- What a market owes on a side: what it has not allocated, and what its rounds have left. -/
def owedOn (m : Market) (rounds : RoundId → Round) (side : Side) : ℕ :=
  m.unallocated side + ∑ round, (rounds round).remaining side

/-- What a market owes in an asset. -/
def owedIn (m : Market) (rounds : RoundId → Round) (asset : Address) : ℕ :=
  (if m.quote = asset then owedOn m rounds .quote else 0)
    + if m.token = asset then owedOn m rounds .meme else 0

section Owed

variable {W : Type} {s s' : State W} {id : Bytes32} {asset : Address}

/-- **What the distributor owes in an asset.** -/
def owed (s : State W) (asset : Address) : ℕ := ∑ id, owedIn (s.markets id) (s.rounds id) asset

/-- One market changes. -/
theorem owed_of_eq_off (hmarkets : ∀ i, i ≠ id → s'.markets i = s.markets i)
    (hrounds : ∀ i, i ≠ id → s'.rounds i = s.rounds i) (asset : Address) :
    owed s' asset + owedIn (s.markets id) (s.rounds id) asset
      = owed s asset + owedIn (s'.markets id) (s'.rounds id) asset :=
  Sums.sum_of_eq_off (fun i => owedIn (s.markets i) (s.rounds i) asset)
    (fun i => owedIn (s'.markets i) (s'.rounds i) asset)
    fun i hi => by rw [hmarkets i hi, hrounds i hi]

/-- One round changes what it has left. -/
theorem sum_remaining_update (rounds : RoundId → Round) (round : RoundId) (r : Round)
    (side : Side) :
    ∑ i, (update rounds round r i).remaining side + (rounds round).remaining side
      = ∑ i, (rounds i).remaining side + r.remaining side := by
  have h := Sums.sum_of_eq_off (fun i => (rounds i).remaining side)
    (fun i => (update rounds round r i).remaining side)
    fun i hi => by rw [update_of_ne hi]
  rwa [update_self] at h

end Owed

/-! ### The log -/

/-- What an event has paid of a round. -/
def Event.paid (id : Bytes32) (round : RoundId) (side : Side) : Event → ℕ
  | .holderSnapshotClaimed i r _ _ quotePaid memePaid =>
    if i = id ∧ r = round then
      match side with
      | .quote => quotePaid
      | .meme => memePaid
    else 0
  | _ => 0

/-- All a log has paid of a round. -/
def paid (log : List Event) (id : Bytes32) (round : RoundId) (side : Side) : ℕ :=
  (log.map (Event.paid id round side)).sum

/-- Whether an event is a claim by an account, of an asset of a round. -/
def Event.claims (id : Bytes32) (round : RoundId) (account : Address) (side : Side) : Event → Bool
  | .holderSnapshotClaimed i r a assets _ _ => i = id && r = round && a = account &&
    selects assets side
  | _ => false

/-- How often a log says an account has claimed an asset of a round. -/
def claims (log : List Event) (id : Bytes32) (round : RoundId) (account : Address) (side : Side) :
    ℕ :=
  log.countP (Event.claims id round account side)

@[simp] theorem paid_cons {e : Event} {log : List Event} {id : Bytes32} {round : RoundId}
    {side : Side} : paid (e :: log) id round side = e.paid id round side + paid log id round side :=
  List.sum_cons

theorem claims_cons {e : Event} {log : List Event} {id : Bytes32} {round : RoundId}
    {account : Address} {side : Side} : claims (e :: log) id round account side
      = claims log id round account side + if e.claims id round account side then 1 else 0 :=
  List.countP_cons

theorem Event.paid_claimed {id i : Bytes32} {round r : RoundId} {account : Address}
    {assets : BitVec 8} {quotePaid memePaid : ℕ} {side : Side} :
    Event.paid id round side (.holderSnapshotClaimed i r account assets quotePaid memePaid)
      = if i = id ∧ r = round then
          match side with
          | .quote => quotePaid
          | .meme => memePaid
        else 0 := rfl

theorem Event.claims_claimed {id i : Bytes32} {round r : RoundId} {account a : Address}
    {assets : BitVec 8} {quotePaid memePaid : ℕ} {side : Side} :
    Event.claims id round account side (.holderSnapshotClaimed i r a assets quotePaid memePaid)
      = (i = id && r = round && a = account && selects assets side) := rfl

/-- Whether an event pays anything. -/
def Event.isClaim : Event → Bool
  | .holderSnapshotClaimed .. => true
  | _ => false

theorem paid_cons_of_not_isClaim {e : Event} {log : List Event} {id : Bytes32} {round : RoundId}
    {side : Side} (h : e.isClaim = false) : paid (e :: log) id round side = paid log id round side := by
  cases e with
  | holderSnapshotClaimed => cases h
  | _ => exact Nat.zero_add _

theorem claims_cons_of_not_isClaim {e : Event} {log : List Event} {id : Bytes32} {round : RoundId}
    {account : Address} {side : Side} (h : e.isClaim = false) :
    claims (e :: log) id round account side = claims log id round account side := by
  cases e with
  | holderSnapshotClaimed => cases h
  | _ => rfl

/-! ### What a successful call has done -/

/-- An amount is added to what is not allocated. -/
def Market.add (m : Market) (side : Side) (amount : ℕ) : Market :=
  match side with
  | .quote => { m with unallocatedQuote := m.unallocatedQuote + amount }
  | .meme => { m with unallocatedMeme := m.unallocatedMeme + amount }

section Specs

variable {W : Type} {platform : Platform} {calls : Externals W} {self : Address}
  {s s' : State W} {id : Bytes32} {asset : Address} {amount : ℕ}

theorem market_eq_ok {m : Market} :
    market s id = .ok m ↔ (s.markets id).token ≠ 0 ∧ m = s.markets id := by
  simp only [market, bind_eq_ok, revertIf_eq_ok, pure_eq_ok, Except.ok.injEq]
  constructor
  · rintro ⟨-, hne, rfl⟩
    exact ⟨hne, rfl⟩
  · rintro ⟨hne, rfl⟩
    exact ⟨(), hne, rfl⟩

/-- **A funding** adds to what its market has not allocated, and to the liability. -/
structure Funded (s : State W) (id : Bytes32) (side : Side) (amount : ℕ) (s' : State W) :
    Prop where
  registered : (s.markets id).token ≠ 0
  markets : s'.markets = update s.markets id ((s.markets id).add side amount)
  rounds : s'.rounds = s.rounds
  claimedAssets : s'.claimedAssets = s.claimedAssets
  totalLiability : s'.totalLiability = update s.totalLiability ((s.markets id).asset side)
    (s.totalLiability ((s.markets id).asset side) + amount)
  log : s'.log = .holderAssetFunded id ((s.markets id).asset side) amount :: s.log

theorem of_fundQuoteRewards {caller : Address} {value : ℕ} {bucket : Epoch}
    (h : fundQuoteRewards calls self s caller value id bucket amount = .ok s') :
    Funded s id .quote amount s' := by
  simp only [fundQuoteRewards, bind_eq_ok, market_eq_ok, revertIf_eq_ok, uadd_eq_ok,
    Sums.credit_eq_ok, pure_eq_ok, Except.ok.injEq] at h
  obtain ⟨_, ⟨hregistered, rfl⟩, -, -, -, -, outside, -, _, ⟨-, rfl⟩, _, ⟨-, rfl⟩, -, -, rfl⟩ := h
  exact ⟨hregistered, rfl, rfl, rfl, rfl, rfl⟩

theorem of_fundMemeFees {caller : Address}
    (h : fundMemeFees calls self s caller id amount = .ok s') : Funded s id .meme amount s' := by
  simp only [fundMemeFees, bind_eq_ok, market_eq_ok, revertIf_eq_ok, uadd_eq_ok,
    Sums.credit_eq_ok, pure_eq_ok, Except.ok.injEq] at h
  obtain ⟨_, ⟨hregistered, rfl⟩, -, -, -, -, outside, -, _, ⟨-, rfl⟩, _, ⟨-, rfl⟩, -, -, rfl⟩ := h
  exact ⟨hregistered, rfl, rfl, rfl, rfl, rfl⟩

/-- The exclusions of a market are written, and nothing else. -/
theorem foldl_exclude (list : List Address) (s : State W) :
    (list.foldl (exclude id) s).markets = s.markets ∧
      (list.foldl (exclude id) s).rounds = s.rounds ∧
      (list.foldl (exclude id) s).claimedAssets = s.claimedAssets ∧
      (list.foldl (exclude id) s).totalLiability = s.totalLiability ∧
      (list.foldl (exclude id) s).log = s.log := by
  induction list generalizing s with
  | nil => exact ⟨rfl, rfl, rfl, rfl, rfl⟩
  | cons account list ih =>
    have hone : ∀ {α : Type} (f : State W → α), (∀ excluded exclusions,
        f { s with excluded, exclusions } = f s) → f (exclude id s account) = f s := by
      intro α f hf
      rw [exclude]
      split
      · rfl
      · exact hf _ _
    obtain ⟨h1, h2, h3, h4, h5⟩ := ih (exclude id s account)
    exact ⟨h1.trans (hone State.markets fun _ _ => rfl),
      h2.trans (hone State.rounds fun _ _ => rfl),
      h3.trans (hone State.claimedAssets fun _ _ => rfl),
      h4.trans (hone State.totalLiability fun _ _ => rfl), h5.trans (hone State.log fun _ _ => rfl)⟩

/-- **A registration** opens a market that has nothing. -/
theorem of_registerFeeSharingMarket {caller vault locker : Address}
    (h : registerFeeSharingMarket calls self s caller id vault locker = .ok s') :
    (s.markets id).token = 0 ∧
      (∃ token quote height burnMemeFees,
        s'.markets = update s.markets id
          ⟨token, quote, vault, height, 0, 0, 0, 0, burnMemeFees⟩ ∧
        s'.log = .holderSnapshotMarketRegistered id token quote vault :: s.log) ∧
      s'.rounds = s.rounds ∧ s'.claimedAssets = s.claimedAssets ∧
      s'.totalLiability = s.totalLiability := by
  simp only [registerFeeSharingMarket, bind_eq_ok, revertIf_eq_ok, pure_eq_ok, Except.ok.injEq,
    not_or, not_not] at h
  obtain ⟨_, -, -, -, v, -, height, -, -, ⟨-, hnew, -⟩, -, -, -, -, -, -, -, -, -, -, -, -, manager, -,
    rfl⟩ := h
  obtain ⟨h1, h2, h3, h4, h5⟩ := @foldl_exclude W id [0, 0xdead, v.config.memeToken,
    v.config.curve, manager, locker, self, vault, v.config.graduatedHook] { s with
      markets := update s.markets id ⟨v.config.memeToken, v.config.quoteAsset, vault,
        height, 0, 0, 0, 0, v.config.burnMemeFees⟩ }
  exact ⟨hnew, ⟨_, _, _, _, h1, congrArg _ h5⟩, h2, h3, h4⟩

/-- **A publication** moves its budgets from what is not allocated into the next round. -/
structure Published (s : State W) (p : Publication) (s' : State W) : Prop where
  registered : (s.markets p.marketId).token ≠ 0
  next : p.round.toNat = (s.markets p.marketId).lastRound.toNat + 1
  later : (s.markets p.marketId).lastSnapshotBlock < p.snapshotBlock
  root_ne : p.root ≠ 0
  quote_le : p.quoteBudget ≤ (s.markets p.marketId).unallocatedQuote
  meme_le : p.memeBudget ≤ (s.markets p.marketId).unallocatedMeme
  markets : s'.markets = update s.markets p.marketId { s.markets p.marketId with
    unallocatedQuote := (s.markets p.marketId).unallocatedQuote - p.quoteBudget
    unallocatedMeme := (s.markets p.marketId).unallocatedMeme - p.memeBudget
    lastRound := p.round
    lastSnapshotBlock := p.snapshotBlock }
  rounds : s'.rounds = update s.rounds p.marketId (update (s.rounds p.marketId)
    p.round ⟨p.root, p.snapshotBlockHash, p.dataHash, p.snapshotBlock, p.quoteBudget, p.memeBudget,
      p.quoteBudget, p.memeBudget⟩)
  claimedAssets : s'.claimedAssets = s.claimedAssets
  totalLiability : s'.totalLiability = s.totalLiability
  log : s'.log = .holderSnapshotPublished p.marketId p.round p.snapshotBlock p.snapshotBlockHash
    p.root p.dataHash p.quoteBudget p.memeBudget :: s.log

theorem of_publish {height : ℕ} {p : Publication} (h : publish calls self height s p = .ok s') :
    Published s p s' := by
  simp only [publish, bind_eq_ok, market_eq_ok, revertIf_eq_ok, usub_eq_ok, pure_eq_ok,
    Except.ok.injEq, not_or, not_not, not_lt, not_le] at h
  obtain ⟨_, ⟨hregistered, rfl⟩, -, -, -, ⟨-, hnext, -, hlater, -, -, hroot, -, -⟩, -, -, -,
    ⟨hquote, hmeme⟩, -, -, -, -, _, ⟨-, rfl⟩, _, ⟨-, rfl⟩, rfl⟩ := h
  exact ⟨hregistered, hnext, hlater, hroot, hquote, hmeme, rfl, rfl, rfl, rfl, rfl⟩

/-- A payment takes its amount off the liability. -/
theorem of_pay {w w' : W} {l l' : Address → ℕ} {recipient : Address}
    (h : pay calls self w l asset recipient amount = .ok (w', l')) :
    amount ≤ l asset ∧ l' = update l asset (l asset - amount) := by
  simp only [pay, bind_eq_ok, Sums.debit_eq_ok] at h
  obtain ⟨-, -, l₁, ⟨hle, rfl⟩, h⟩ := h
  split at h
  · simp only [bind_eq_ok, pure_eq_ok, Except.ok.injEq, Prod.mk.injEq] at h
    obtain ⟨_, -, rfl, rfl⟩ := h
    exact ⟨hle, rfl⟩
  · simp only [bind_eq_ok, revertIf_eq_ok, pure_eq_ok, Except.ok.injEq, Prod.mk.injEq] at h
    obtain ⟨_, -, _, -, -, -, _, -, -, -, -, -, rfl, rfl⟩ := h
    exact ⟨hle, rfl⟩

theorem of_payIf {w w' : W} {l l' : Address → ℕ} {recipient : Address}
    (h : payIf calls self w l asset recipient amount = .ok (w', l')) (x : Address) :
    l' x + (if asset = x then amount else 0) = l x := by
  rw [payIf] at h
  split at h
  · obtain ⟨hle, rfl⟩ := of_pay h
    rcases eq_or_ne asset x with rfl | hne
    · rw [update_self, if_pos rfl, Nat.sub_add_cancel hle]
    · rw [update_of_ne hne.symm, if_neg hne, add_zero]
  · rename_i hzero
    obtain ⟨rfl, rfl⟩ := Prod.mk.inj (Except.ok.inj h)
    rw [not_not.mp hzero, ite_self, add_zero]

/-- **A claim** pays what it selects out of the round, once. -/
structure Claimed (s : State W) (id : Bytes32) (round : RoundId) (account : Address)
    (assets : BitVec 8) (quotePaid memePaid : ℕ) (s' : State W) : Prop where
  registered : (s.markets id).token ≠ 0
  root_ne : (s.rounds id round).root ≠ 0
  fresh : s.claimedAssets id round account &&& assets = 0
  quote_le : quotePaid ≤ (s.rounds id round).quoteRemaining
  meme_le : memePaid ≤ (s.rounds id round).memeRemaining
  markets : s'.markets = s.markets
  rounds : s'.rounds = update s.rounds id (update (s.rounds id) round
    { s.rounds id round with
      quoteRemaining := (s.rounds id round).quoteRemaining - quotePaid
      memeRemaining := (s.rounds id round).memeRemaining - memePaid })
  claimedAssets : s'.claimedAssets = update s.claimedAssets id
    (update (s.claimedAssets id) round (update (s.claimedAssets id round) account
      (s.claimedAssets id round account ||| assets)))
  totalLiability : ∀ x, s'.totalLiability x + (if (s.markets id).quote = x then quotePaid else 0)
    + (if (s.markets id).token = x then memePaid else 0) = s.totalLiability x
  log : s'.log = .holderSnapshotClaimed id round account assets quotePaid memePaid :: s.log

theorem of_claimSnapshot {caller : Address} {round : RoundId} {quoteAmount memeAmount : ℕ}
    {assets : BitVec 8} {proof : List Bytes32} {quotePaid memePaid : ℕ}
    (h : claimSnapshot platform calls self s caller id round quoteAmount memeAmount assets proof
      = .ok (s', quotePaid, memePaid)) :
    Claimed s id round caller assets quotePaid memePaid s' := by
  simp only [claimSnapshot, bind_eq_ok, market_eq_ok, revertIf_eq_ok, usub_eq_ok, pure_eq_ok,
    Except.ok.injEq, Prod.mk.injEq, Prod.exists, not_or, not_not, not_lt] at h
  obtain ⟨-, -, -, -, _, ⟨hregistered, rfl⟩, -, -, -, hroot, -, hfresh, -, ⟨hquote, hmeme⟩, _, ⟨-, rfl⟩,
    _, ⟨-, rfl⟩, w₁, l₁, hpayQuote, w₂, l₂, hpayMeme, -, -, -, -, rfl, rfl, rfl⟩ := h
  refine ⟨hregistered, hroot, hfresh, hquote, hmeme, rfl, rfl, rfl, fun x => ?_, rfl⟩
  have h1 := of_payIf hpayQuote x
  have h2 := of_payIf hpayMeme x
  dsimp only
  omega

end Specs

/-! ### What the calls do to what is owed -/

section Owing

variable {m : Market} {rounds : RoundId → Round} {x : Address}

/-- What a market owes after a funding. -/
theorem owedIn_add (side : Side) (amount : ℕ) : owedIn (m.add side amount) rounds x
    = owedIn m rounds x + if m.asset side = x then amount else 0 := by
  have hquote : (m.add side amount).quote = m.quote := by cases side <;> rfl
  have htoken : (m.add side amount).token = m.token := by cases side <;> rfl
  rw [owedIn, owedIn, hquote, htoken]
  cases side with
  | quote =>
    have hother : owedOn (m.add .quote amount) rounds .meme = owedOn m rounds .meme := rfl
    have hself : owedOn (m.add .quote amount) rounds .quote = owedOn m rounds .quote + amount :=
      Nat.add_right_comm ..
    rw [hother, hself, Market.asset]
    split_ifs <;> omega
  | meme =>
    have hother : owedOn (m.add .meme amount) rounds .quote = owedOn m rounds .quote := rfl
    have hself : owedOn (m.add .meme amount) rounds .meme = owedOn m rounds .meme + amount :=
      Nat.add_right_comm ..
    rw [hother, hself, Market.asset]
    split_ifs <;> omega

/-- What a market owes after a publication: the same. -/
theorem owedIn_publish {round : RoundId} {r : Round} {quoteBudget memeBudget : ℕ}
    {m' : Market} (hempty : rounds round = Round.empty)
    (hquote : quoteBudget ≤ m.unallocatedQuote) (hmeme : memeBudget ≤ m.unallocatedMeme)
    (hquoteAsset : m'.quote = m.quote) (htoken : m'.token = m.token)
    (hquoteLeft : m'.unallocatedQuote = m.unallocatedQuote - quoteBudget)
    (hmemeLeft : m'.unallocatedMeme = m.unallocatedMeme - memeBudget)
    (hquoteRemaining : r.quoteRemaining = quoteBudget)
    (hmemeRemaining : r.memeRemaining = memeBudget) :
    owedIn m' (update rounds round r) x = owedIn m rounds x := by
  have hq := sum_remaining_update rounds round r .quote
  have hm := sum_remaining_update rounds round r .meme
  simp only [hempty, Round.empty, Round.remaining, hquoteRemaining, hmemeRemaining] at hq hm
  simp only [owedIn, owedOn, Market.unallocated, Round.remaining, hquoteAsset, htoken, hquoteLeft,
    hmemeLeft]
  split_ifs <;> omega

/-- What a market owes after a claim: less by what has been paid. -/
theorem owedIn_claim {round : RoundId} {quotePaid memePaid : ℕ}
    (hquote : quotePaid ≤ (rounds round).quoteRemaining)
    (hmeme : memePaid ≤ (rounds round).memeRemaining) :
    owedIn m (update rounds round { rounds round with
        quoteRemaining := (rounds round).quoteRemaining - quotePaid
        memeRemaining := (rounds round).memeRemaining - memePaid }) x
      + (if m.quote = x then quotePaid else 0) + (if m.token = x then memePaid else 0)
      = owedIn m rounds x := by
  have hq := sum_remaining_update rounds round { rounds round with
    quoteRemaining := (rounds round).quoteRemaining - quotePaid
    memeRemaining := (rounds round).memeRemaining - memePaid } .quote
  have hm := sum_remaining_update rounds round { rounds round with
    quoteRemaining := (rounds round).quoteRemaining - quotePaid
    memeRemaining := (rounds round).memeRemaining - memePaid } .meme
  simp only [Round.remaining] at hq hm
  simp only [owedIn, owedOn, Round.remaining]
  split_ifs <;> omega

end Owing

/-! ### The invariant -/

/-- The terms of a round, which it is published with. -/
def Round.terms (r : Round) : Bytes32 × Bytes32 × Bytes32 × ℕ × ℕ × ℕ :=
  (r.root, r.snapshotBlockHash, r.dataHash, r.snapshotBlock, r.quoteBudget, r.memeBudget)

theorem Round.terms_root {r r' : Round} (h : r'.terms = r.terms) : r'.root = r.root :=
  congrArg Prod.fst h

section Invariant

variable {W : Type} {platform : Platform} {calls : Externals W} {self : Address} {s s' : State W}

/-- **The distributor is sound.** -/
structure Sound (s : State W) : Prop where
  unregistered : ∀ id, (s.markets id).token = 0 →
    (s.markets id).unallocatedQuote = 0 ∧ (s.markets id).unallocatedMeme = 0 ∧
      (s.markets id).lastRound = 0
  published : ∀ id round, (s.rounds id round).root ≠ 0 ↔
    1 ≤ round.toNat ∧ round.toNat ≤ (s.markets id).lastRound.toNat
  unpublished : ∀ id round, (s.rounds id round).root = 0 → s.rounds id round = Round.empty
  increasing : ∀ id r r', (s.rounds id r).root ≠ 0 → (s.rounds id r').root ≠ 0 →
    r.toNat < r'.toNat → (s.rounds id r).snapshotBlock < (s.rounds id r').snapshotBlock
  latest : ∀ id r, (s.rounds id r).root ≠ 0 →
    (s.rounds id r).snapshotBlock ≤ (s.markets id).lastSnapshotBlock
  liability : ∀ asset, s.totalLiability asset = owed s asset
  budgets : ∀ id r side, paid s.log id r side + (s.rounds id r).remaining side
    = (s.rounds id r).budget side
  claimed : ∀ id r account side, claims s.log id r account side
    = if selects (s.claimedAssets id r account) side then 1 else 0

/-- A published round keeps its terms. -/
def Keeps (s s' : State W) : Prop :=
  ∀ id round, (s.rounds id round).root ≠ 0 → (s'.rounds id round).terms = (s.rounds id round).terms

theorem Keeps.trans {s'' : State W} (h : Keeps s s') (h' : Keeps s' s'') : Keeps s s'' := by
  intro id round hroot
  have hsame := h id round hroot
  have hroot' : (s'.rounds id round).root ≠ 0 := by rwa [Round.terms_root hsame]
  exact (h' id round hroot').trans hsame

theorem sound_of_init (h : Init s) : Sound s where
  unregistered id _ := by
    rw [h.markets id]
    exact ⟨rfl, rfl, rfl⟩
  published id round := by
    rw [h.rounds id round, h.markets id]
    simp only [Round.empty, Market.empty]
    constructor
    · exact fun hne => absurd rfl hne
    · rintro ⟨h1, h2⟩
      exact absurd (h1.trans h2) (by decide)
  unpublished id round _ := h.rounds id round
  increasing id r r' hroot := by
    rw [h.rounds id r] at hroot
    exact absurd rfl hroot
  latest id r hroot := by
    rw [h.rounds id r] at hroot
    exact absurd rfl hroot
  liability asset := by
    rw [h.totalLiability, owed]
    refine (Sums.sum_eq_zero.mpr fun id => ?_).symm
    have hzero : ∀ side, owedOn (s.markets id) (s.rounds id) side = 0 := by
      intro side
      rw [owedOn, h.markets id, Sums.sum_eq_zero.mpr fun round => by rw [h.rounds id round]; cases side <;> rfl]
      cases side <;> rfl
    rw [owedIn, hzero, hzero, ite_self, ite_self]
  budgets id r side := by
    rw [h.rounds id r, h.log]
    cases side <;> rfl
  claimed id r account side := by
    rw [h.claimed id r account, h.log]
    cases side <;> rfl

/-- A step that touches none of the accounts. -/
theorem Sound.congr (h : Sound s) (hmarkets : s'.markets = s.markets) (hrounds : s'.rounds = s.rounds)
    (hclaimed : s'.claimedAssets = s.claimedAssets)
    (hliability : s'.totalLiability = s.totalLiability)
    (hpaid : ∀ id r side, paid s'.log id r side = paid s.log id r side)
    (hclaims : ∀ id r account side,
      claims s'.log id r account side = claims s.log id r account side) :
    Sound s' ∧ Keeps s s' := by
  refine ⟨⟨?_, ?_, ?_, ?_, ?_, ?_, ?_, ?_⟩, fun id round _ => by rw [hrounds]⟩
  · rw [hmarkets]
    exact h.unregistered
  · rw [hmarkets, hrounds]
    exact h.published
  · rw [hrounds]
    exact h.unpublished
  · rw [hrounds]
    exact h.increasing
  · rw [hmarkets, hrounds]
    exact h.latest
  · intro asset
    rw [hliability, h.liability, owed, owed, hmarkets, hrounds]
  · intro id r side
    rw [hpaid, hrounds]
    exact h.budgets id r side
  · intro id r account side
    rw [hclaims, hclaimed]
    exact h.claimed id r account side

theorem Sound.funded {id : Bytes32} {side : Side} {amount : ℕ} (h : Sound s)
    (hf : Funded s id side amount s') : Sound s' ∧ Keeps s s' := by
  have hsame : ∀ i, (s'.markets i).token = (s.markets i).token ∧
      (s'.markets i).lastRound = (s.markets i).lastRound ∧
      (s'.markets i).lastSnapshotBlock = (s.markets i).lastSnapshotBlock := by
    intro i
    rw [hf.markets]
    rcases eq_or_ne i id with rfl | hne
    · rw [update_self]
      cases side <;> exact ⟨rfl, rfl, rfl⟩
    · rw [update_of_ne hne]
      exact ⟨rfl, rfl, rfl⟩
  refine ⟨⟨fun i hi => ?_, fun i r => ?_, ?_, ?_, fun i r hr => ?_, fun x => ?_, fun i r b => ?_,
    fun i r a b => ?_⟩, fun i r _ => by rw [hf.rounds]⟩
  · rcases eq_or_ne i id with rfl | hne
    · exact absurd ((hsame i).1 ▸ hi) hf.registered
    · rw [hf.markets, update_of_ne hne] at hi ⊢
      exact h.unregistered i hi
  · rw [hf.rounds, (hsame i).2.1]
    exact h.published i r
  · rw [hf.rounds]
    exact h.unpublished
  · rw [hf.rounds]
    exact h.increasing
  · rw [(hsame i).2.2]
    rw [hf.rounds] at hr ⊢
    exact h.latest i r hr
  · have howed := @owed_of_eq_off W s s' id
      (fun i hi => by rw [hf.markets, update_of_ne hi]) (fun i _ => by rw [hf.rounds]) x
    rw [hf.markets, update_self, hf.rounds, owedIn_add, ← h.liability] at howed
    rw [hf.totalLiability]
    rcases eq_or_ne x ((s.markets id).asset side) with rfl | hne
    · rw [update_self]
      rw [if_pos rfl] at howed
      omega
    · rw [update_of_ne hne]
      rw [if_neg hne.symm] at howed
      omega
  · rw [hf.log, hf.rounds, paid_cons_of_not_isClaim rfl]
    exact h.budgets i r b
  · rw [hf.log, hf.claimedAssets, claims_cons_of_not_isClaim rfl]
    exact h.claimed i r a b

theorem Sound.registered {id : Bytes32} {caller vault locker : Address} (h : Sound s)
    (hok : registerFeeSharingMarket calls self s caller id vault locker = .ok s') :
    Sound s' ∧ Keeps s s' := by
  obtain ⟨hnew, ⟨token, quote, height, burnMemeFees, hmarkets, hlog⟩, hrounds, hclaimed, hliability⟩ :=
    of_registerFeeSharingMarket hok
  obtain ⟨hquote, hmeme, hlast⟩ := h.unregistered id hnew
  have hsame : ∀ i, (s'.markets i).lastRound = (s.markets i).lastRound := by
    intro i
    rw [hmarkets]
    rcases eq_or_ne i id with rfl | hne
    · rw [update_self, hlast]
    · rw [update_of_ne hne]
  -- a new market has no rounds
  have hnone : ∀ round, s.rounds id round = Round.empty := by
    intro round
    refine h.unpublished id round (by_contra fun hroot => ?_)
    obtain ⟨h1, h2⟩ := (h.published id round).mp hroot
    rw [hlast] at h2
    exact absurd (h1.trans h2) (by decide)
  have hzero : ∀ (m : Market) x, m.unallocatedQuote = 0 → m.unallocatedMeme = 0 →
      owedIn m (s.rounds id) x = 0 := by
    intro m x hquote hmeme
    have hsum : ∀ side, ∑ round, (s.rounds id round).remaining side = 0 := fun side =>
      Sums.sum_eq_zero.mpr fun round => by rw [hnone round]; cases side <;> rfl
    rw [owedIn, owedOn, owedOn, hsum, hsum, Market.unallocated, Market.unallocated, hquote, hmeme,
      ite_self, ite_self]
  refine ⟨⟨fun i hi => ?_, fun i r => ?_, ?_, ?_, fun i r hr => ?_, fun x => ?_, fun i r b => ?_,
    fun i r a b => ?_⟩, fun i r _ => by rw [hrounds]⟩
  · rcases eq_or_ne i id with rfl | hne
    · rw [hmarkets, update_self]
      exact ⟨rfl, rfl, rfl⟩
    · rw [hmarkets, update_of_ne hne] at hi ⊢
      exact h.unregistered i hi
  · rw [hrounds, hsame i]
    exact h.published i r
  · rw [hrounds]
    exact h.unpublished
  · rw [hrounds]
    exact h.increasing
  · rw [hrounds] at hr ⊢
    rcases eq_or_ne i id with rfl | hne
    · rw [hnone r] at hr
      exact absurd rfl hr
    · rw [hmarkets, update_of_ne hne]
      exact h.latest i r hr
  · have howed := @owed_of_eq_off W s s' id
      (fun i hi => by rw [hmarkets, update_of_ne hi]) (fun i _ => by rw [hrounds]) x
    rw [hmarkets, update_self, hrounds, hzero _ x hquote hmeme,
      hzero ⟨token, quote, vault, height, 0, 0, 0, 0, burnMemeFees⟩ x rfl rfl, ← h.liability] at howed
    rw [hliability]
    omega
  · rw [hlog, hrounds, paid_cons_of_not_isClaim rfl]
    exact h.budgets i r b
  · rw [hlog, hclaimed, claims_cons_of_not_isClaim rfl]
    exact h.claimed i r a b

theorem Sound.published_step {p : Publication} (h : Sound s) (hp : Published s p s') :
    Sound s' ∧ Keeps s s' := by
  -- the round is a new one
  have hnew : (s.rounds p.marketId p.round).root = 0 := by
    by_contra hroot
    have hle := ((h.published p.marketId p.round).mp hroot).2
    have hnext := hp.next
    omega
  have hempty := h.unpublished p.marketId p.round hnew
  have hother : ∀ i r, (i, r) ≠ (p.marketId, p.round) → s'.rounds i r = s.rounds i r := by
    intro i r hne
    rw [hp.rounds]
    rcases eq_or_ne i p.marketId with rfl | hi
    · rw [update_self, update_of_ne fun hr => hne (by rw [hr])]
    · rw [update_of_ne hi]
  have hself : s'.rounds p.marketId p.round = ⟨p.root, p.snapshotBlockHash, p.dataHash,
      p.snapshotBlock, p.quoteBudget, p.memeBudget, p.quoteBudget, p.memeBudget⟩ := by
    rw [hp.rounds, update_self, update_self]
  have hmarket : ∀ i, i ≠ p.marketId → s'.markets i = s.markets i := fun i hi => by
    rw [hp.markets, update_of_ne hi]
  have hmarketSelf := hp.markets ▸ update_self p.marketId _ s.markets
  have hkeeps : Keeps s s' := by
    intro i r hroot
    rw [hother i r fun heq => hroot (by
      obtain ⟨rfl, rfl⟩ := Prod.mk.inj heq
      exact hnew)]
  have hround : ∀ i r, (s'.rounds i r).root ≠ 0 → (i, r) = (p.marketId, p.round) ∨
      ((i, r) ≠ (p.marketId, p.round) ∧ (s.rounds i r).root ≠ 0) := by
    intro i r hroot
    rcases eq_or_ne (i, r) (p.marketId, p.round) with heq | hne
    · exact .inl heq
    · rw [hother i r hne] at hroot
      exact .inr ⟨hne, hroot⟩
  refine ⟨⟨fun i hi => ?_, fun i r => ?_, fun i r hroot => ?_, fun i r r' hr hr' hlt => ?_,
    fun i r hr => ?_, fun x => ?_, fun i r b => ?_, fun i r a b => ?_⟩, hkeeps⟩
  · rcases eq_or_ne i p.marketId with rfl | hne
    · rw [hmarketSelf] at hi
      exact absurd hi hp.registered
    · rw [hmarket i hne] at hi ⊢
      exact h.unregistered i hi
  · have hold := h.published i r
    rcases eq_or_ne i p.marketId with rfl | hi
    · have hnext := hp.next
      rw [hmarketSelf]
      dsimp only
      rcases eq_or_ne r p.round with rfl | hr
      · rw [hself]
        exact ⟨fun _ => by omega, fun _ => hp.root_ne⟩
      · rw [hother _ r fun heq => hr (Prod.mk.inj heq).2, hold]
        have hne : r.toNat ≠ p.round.toNat := fun heq => hr (BitVec.eq_of_toNat_eq heq)
        omega
    · rw [hother i r fun heq => hi (Prod.mk.inj heq).1, hmarket i hi]
      exact hold
  · have hne : (i, r) ≠ (p.marketId, p.round) := by
      intro heq
      obtain ⟨rfl, rfl⟩ := Prod.mk.inj heq
      rw [hself] at hroot
      exact hp.root_ne hroot
    rw [hother i r hne] at hroot ⊢
    exact h.unpublished i r hroot
  · rcases hround i r hr with heq | ⟨hne, hold⟩ <;> rcases hround i r' hr' with heq' | ⟨hne', hold'⟩
    · rw [(Prod.mk.inj heq).2, (Prod.mk.inj heq').2] at hlt
      exact absurd hlt (lt_irrefl _)
    · -- no round of the market comes after the new one
      obtain ⟨rfl, rfl⟩ := Prod.mk.inj heq
      have hle := ((h.published _ r').mp hold').2
      have hnext := hp.next
      omega
    · obtain ⟨rfl, rfl⟩ := Prod.mk.inj heq'
      rw [hother _ r hne, hself]
      exact (h.latest _ r hold).trans_lt hp.later
    · rw [hother i r hne, hother i r' hne']
      exact h.increasing i r r' hold hold' hlt
  · rcases hround i r hr with heq | ⟨hne, hold⟩
    · obtain ⟨rfl, rfl⟩ := Prod.mk.inj heq
      rw [hself, hmarketSelf]
    · have hle := h.latest i r hold
      rw [hother i r hne]
      rcases eq_or_ne i p.marketId with rfl | hi
      · rw [hmarketSelf]
        exact hle.trans hp.later.le
      · rwa [hmarket i hi]
  · have howed := @owed_of_eq_off W s s' p.marketId hmarket
      (fun i hi => by rw [hp.rounds, update_of_ne hi]) x
    have hsame : owedIn (s'.markets p.marketId) (s'.rounds p.marketId) x
        = owedIn (s.markets p.marketId) (s.rounds p.marketId) x := by
      rw [hp.rounds, update_self]
      exact owedIn_publish hempty hp.quote_le hp.meme_le (by rw [hmarketSelf]) (by rw [hmarketSelf])
        (by rw [hmarketSelf]) (by rw [hmarketSelf]) rfl rfl
    rw [hsame, ← h.liability] at howed
    rw [hp.totalLiability]
    omega
  · rw [hp.log, paid_cons_of_not_isClaim rfl]
    rcases eq_or_ne (i, r) (p.marketId, p.round) with heq | hne
    · obtain ⟨rfl, rfl⟩ := Prod.mk.inj heq
      have hbefore := h.budgets p.marketId p.round b
      rw [hempty] at hbefore
      rw [hself]
      cases b
      · exact (congrArg (· + p.quoteBudget) hbefore).trans (Nat.zero_add _)
      · exact (congrArg (· + p.memeBudget) hbefore).trans (Nat.zero_add _)
    · rw [hother i r hne]
      exact h.budgets i r b
  · rw [hp.log, hp.claimedAssets, claims_cons_of_not_isClaim rfl]
    exact h.claimed i r a b

theorem Sound.claimed_step {id : Bytes32} {round : RoundId} {account : Address}
    {assets : BitVec 8} {quotePaid memePaid : ℕ} (h : Sound s)
    (hc : Claimed s id round account assets quotePaid memePaid s') : Sound s' ∧ Keeps s s' := by
  have hother : ∀ i r, (i, r) ≠ (id, round) → s'.rounds i r = s.rounds i r := by
    intro i r hne
    rw [hc.rounds]
    rcases eq_or_ne i id with rfl | hi
    · rw [update_self, update_of_ne fun hr => hne (by rw [hr])]
    · rw [update_of_ne hi]
  have hself : s'.rounds id round = { s.rounds id round with
      quoteRemaining := (s.rounds id round).quoteRemaining - quotePaid
      memeRemaining := (s.rounds id round).memeRemaining - memePaid } := by
    rw [hc.rounds, update_self, update_self]
  have hterms : ∀ i r, (s'.rounds i r).terms = (s.rounds i r).terms := by
    intro i r
    rcases eq_or_ne (i, r) (id, round) with heq | hne
    · obtain ⟨rfl, rfl⟩ := Prod.mk.inj heq
      rw [hself]
      rfl
    · rw [hother i r hne]
  have hroot : ∀ i r, (s'.rounds i r).root = (s.rounds i r).root := fun i r =>
    Round.terms_root (hterms i r)
  have hblock : ∀ i r, (s'.rounds i r).snapshotBlock = (s.rounds i r).snapshotBlock := fun i r =>
    congrArg (fun x => x.2.2.2.1) (hterms i r)
  refine ⟨⟨?_, fun i r => ?_, fun i r hr => ?_, fun i r r' hr hr' hlt => ?_, fun i r hr => ?_,
    fun x => ?_, fun i r b => ?_, fun i r a b => ?_⟩, fun i r _ => hterms i r⟩
  · rw [hc.markets]
    exact h.unregistered
  · rw [hroot, hc.markets]
    exact h.published i r
  · rw [hroot] at hr
    rw [hother i r fun heq => hc.root_ne (by
      obtain ⟨rfl, rfl⟩ := Prod.mk.inj heq
      exact hr)]
    exact h.unpublished i r hr
  · rw [hroot] at hr hr'
    rw [hblock, hblock]
    exact h.increasing i r r' hr hr' hlt
  · rw [hroot] at hr
    rw [hblock, hc.markets]
    exact h.latest i r hr
  · have howed := @owed_of_eq_off W s s' id (fun i _ => by rw [hc.markets])
      (fun i hi => by rw [hc.rounds, update_of_ne hi]) x
    have hclaim := owedIn_claim (m := s.markets id) (x := x) hc.quote_le hc.meme_le
    have hliability := hc.totalLiability x
    rw [hc.markets, hc.rounds, update_self] at howed
    rw [h.liability] at hliability
    omega
  · have hbefore := h.budgets i r b
    rw [hc.log, paid_cons, Event.paid_claimed]
    rcases eq_or_ne (i, r) (id, round) with heq | hne
    · obtain ⟨rfl, rfl⟩ := Prod.mk.inj heq
      have hquote := hc.quote_le
      have hmeme := hc.meme_le
      rw [if_pos ⟨rfl, rfl⟩, hself]
      cases b <;> simp only [Round.remaining, Round.budget] at hbefore ⊢ <;> omega
    · rw [if_neg fun heq => hne (by rw [heq.1, heq.2]), Nat.zero_add, hother i r hne]
      exact hbefore
  · have hbefore := h.claimed i r a b
    rw [hc.log, claims_cons, hbefore, hc.claimedAssets, Event.claims_claimed]
    rcases eq_or_ne (i, r, a) (id, round, account) with heq | hne
    · obtain ⟨rfl, hpair⟩ := Prod.mk.inj heq
      obtain ⟨rfl, rfl⟩ := Prod.mk.inj hpair
      have hdisjoint := selects_of_disjoint hc.fresh b
      rw [update_self, update_self, update_self, selects_or]
      cases hold : selects (s.claimedAssets i r a) b <;> cases hnow : selects assets b
      · simp
      · simp
      · simp
      · exact absurd ⟨hold, hnow⟩ hdisjoint
    · have hmiss : (decide (id = i) && decide (round = r) && decide (account = a)
          && selects assets b) = false := by
        by_contra hhit
        simp only [Bool.not_eq_false, Bool.and_eq_true, decide_eq_true_eq] at hhit
        exact hne (by rw [hhit.1.1.1, hhit.1.1.2, hhit.1.2])
      rw [hmiss, if_neg Bool.false_ne_true, Nat.add_zero]
      rcases eq_or_ne i id with rfl | hi
      · rw [update_self]
        rcases eq_or_ne r round with rfl | hr
        · rw [update_self, update_of_ne fun ha => hne (by rw [ha])]
        · rw [update_of_ne hr]
      · rw [update_of_ne hi]

/-- **One step keeps the distributor sound**, and the terms of its rounds. -/
theorem sound_of_step {u : Unit} (h : Sound s) (hstep : Step platform calls self s u s') :
    Sound s' ∧ Keeps s s' := by
  cases hstep with
  | setSnapshotPublisher caller publisher hok =>
    simp only [setSnapshotPublisher, bind_eq_ok, revertIf_eq_ok, pure_eq_ok, Except.ok.injEq] at hok
    obtain ⟨-, -, -, -, -, -, -, -, rfl⟩ := hok
    exact h.congr rfl rfl rfl rfl (fun _ _ _ => paid_cons_of_not_isClaim rfl)
      fun _ _ _ _ => claims_cons_of_not_isClaim rfl
  | revokeSnapshotPublisher caller expectedPublisher hok =>
    simp only [revokeSnapshotPublisher, bind_eq_ok, revertIf_eq_ok, pure_eq_ok,
      Except.ok.injEq] at hok
    obtain ⟨-, -, -, -, -, -, -, -, rfl⟩ := hok
    exact h.congr rfl rfl rfl rfl (fun _ _ _ => paid_cons_of_not_isClaim rfl)
      fun _ _ _ _ => claims_cons_of_not_isClaim rfl
  | registerFeeSharingMarket caller id vault locker hok => exact h.registered hok
  | fundQuoteRewards caller value id bucket amount hok => exact h.funded (of_fundQuoteRewards hok)
  | fundMemeFees caller id amount hok => exact h.funded (of_fundMemeFees hok)
  | publishSnapshots caller publications hok =>
    simp only [publishSnapshots, bind_eq_ok, revertIf_eq_ok] at hok
    obtain ⟨-, -, -, -, height, -, hloop⟩ := hok
    -- one publication after the other
    refine Reducer.invariant (I := fun t => Sound t ∧ Keeps s t) (fun t p t' ht hp => ?_) hloop
      ⟨h, fun _ _ _ => rfl⟩
    obtain ⟨hsound, hkeeps⟩ := ht.1.published_step (of_publish hp)
    exact ⟨hsound, ht.2.trans hkeeps⟩
  | claimSnapshot caller id round quoteAmount memeAmount assets proof paid hok =>
    exact h.claimed_step (of_claimSnapshot hok)
  | outside w => exact h.congr rfl rfl rfl rfl (fun _ _ _ => rfl) fun _ _ _ _ => rfl

/-- Every reachable state is sound. -/
theorem sound_of_reachable (h : Reachable platform calls self s) : Sound s :=
  h.invariant (I := Sound) (fun _ => sound_of_init) fun _ _ _ hs hstep => (sound_of_step hs hstep).1

/-- **The accounts of the distributor**: the liability in an asset is what no market has
allocated and what no round has paid; a budget is what has been paid and what remains; nobody
is paid twice; the published rounds of a market are 1, 2, ... up to its last one, each of a later
block than the one before. -/
structure Accounting (s : State W) : Prop where
  liability : ∀ asset, s.totalLiability asset
    = ∑ id, ((if (s.markets id).quote = asset then (s.markets id).unallocatedQuote else 0)
        + if (s.markets id).token = asset then (s.markets id).unallocatedMeme else 0)
      + ∑ id, ∑ round,
        ((if (s.markets id).quote = asset then (s.rounds id round).quoteRemaining else 0)
          + if (s.markets id).token = asset then (s.rounds id round).memeRemaining else 0)
  budgets : ∀ id round side, paid s.log id round side + (s.rounds id round).remaining side
    = (s.rounds id round).budget side
  once : ∀ id round account side, claims s.log id round account side ≤ 1
  consecutive : ∀ id round, (s.rounds id round).root ≠ 0 ↔
    1 ≤ round.toNat ∧ round.toNat ≤ (s.markets id).lastRound.toNat
  increasing : ∀ id r r', (s.rounds id r).root ≠ 0 → (s.rounds id r').root ≠ 0 →
    r.toNat < r'.toNat → (s.rounds id r).snapshotBlock < (s.rounds id r').snapshotBlock

/-- What a market owes, by kinds. -/
theorem owedIn_eq (m : Market) (rounds : RoundId → Round) (asset : Address) :
    owedIn m rounds asset
      = (if m.quote = asset then m.unallocatedQuote else 0)
        + (if m.token = asset then m.unallocatedMeme else 0)
        + ∑ round, ((if m.quote = asset then (rounds round).quoteRemaining else 0)
          + if m.token = asset then (rounds round).memeRemaining else 0) := by
  have hsum : ∀ (c : Prop) [Decidable c] (f : RoundId → ℕ),
      ∑ round, (if c then f round else 0) = if c then ∑ round, f round else 0 := by
    intro c _ f
    split <;> simp
  simp only [owedIn, owedOn, Market.unallocated, Round.remaining]
  rw [Finset.sum_add_distrib, hsum, hsum]
  split_ifs <;> omega

/-- **The accounts are right in every reachable state**, after any run of registrations,
fundings, publications and claims by anyone in any order, and no later step changes the terms
of a published round. -/
theorem holder_rewards_accounting (h : Reachable platform calls self s) :
    Accounting s ∧ ∀ es t, Transition.Run (Step platform calls self) s es t → Keeps s t := by
  have hs := sound_of_reachable h
  refine ⟨⟨fun asset => ?_, hs.budgets, fun id round account side => ?_, hs.published,
    hs.increasing⟩, fun es t hrun => ?_⟩
  · rw [hs.liability, owed, ← Finset.sum_add_distrib]
    exact Finset.sum_congr rfl fun id _ => owedIn_eq _ _ _
  · rw [hs.claimed]
    split <;> decide
  · refine (hrun.invariant (I := fun t => Sound t ∧ Keeps s t) (fun u _ t hu hstep => ?_)
      ⟨hs, fun _ _ _ => rfl⟩).2
    obtain ⟨hsound, hkeeps⟩ := sound_of_step hu.1 hstep
    exact ⟨hsound, hu.2.trans hkeeps⟩

end Invariant

/-! ### A small distributor

The distributor is account 90, the market the one of the small vault. A hundred of the native
currency is funded, sixty of it become the budget of the first round, and account 200 claims
them. -/

namespace Sample

/-- The height of the chain, and the balances on it: what the distributor has may be paid to
anyone, and is then still a word. -/
structure Chain where
  height : ℕ
  balances : Balances
  bounded : ∀ asset holder, holder ≠ 90 → balances asset holder + balances asset 90 ≤ maxUint256

namespace Chain

/-- The distributor pays an account what it has. -/
def pay (w : Chain) (asset recipient : Address) (amount : ℕ)
    (h : recipient ≠ 90 ∧ amount ≤ w.balances asset 90) : Chain where
  height := w.height
  balances := (w.balances.set asset 90 (w.balances asset 90 - amount)).set asset recipient
    (w.balances asset recipient + amount)
  bounded other holder hne := by
    have hholder := w.bounded other holder hne
    have hrecipient := w.bounded asset recipient h.1
    have hle := h.2
    simp only [Balances.set_apply]
    rcases eq_or_ne other asset with rfl | hother
    · rcases eq_or_ne holder recipient with rfl | hdifferent
      · simp only [hne.symm, and_false, if_false, and_self, if_true]
        omega
      · simp only [hne, hdifferent, h.1.symm, and_false, if_false, and_self, if_true]
        omega
    · simpa only [hother, false_and, if_false] using hholder

/-- A payment, which fails if there is too little. -/
def tryPay (w : Chain) (asset recipient : Address) (amount : ℕ) : Option Chain :=
  if h : recipient ≠ 90 ∧ amount ≤ w.balances asset 90 then some (w.pay asset recipient amount h)
  else none

end Chain

/-- Nobody has approved the distributor; the fees come in the native currency. -/
def calls : Externals Chain where
  hasCode _ _ := true
  balance w := w.balances
  blockNumber w := .ok w.height
  blockHash _ _ := .ok 7
  factory _ := .ok 30
  market _ _ := .ok ⟨UserStockVault.Sample.config, ⟨0, 1, launchPhasePoolCreated⟩⟩
  authority _ := .ok 40
  canCall _ _ _ _ := .ok true
  hasRole _ _ _ _ := .ok true
  protocolFeeVault _ _ := .ok 20
  poolManager _ _ := .ok 25
  tokenMarketId _ _ := .ok 1
  holderRewardsDistributor _ _ := .ok 90
  safeTransferFrom _ _ _ _ := .error .noReason
  safeTransfer w asset recipient amount := orRevert (w.tryPay asset recipient amount) .noReason
  sendNative w recipient amount := w.tryPay 0 recipient amount

/-- The distributor has the hundred that come with the funding. -/
def chain (height : ℕ) : Chain where
  height
  balances asset holder := if asset = 0 ∧ holder = 90 then 100 else 0
  bounded asset holder hne := by
    rw [if_neg fun h => hne h.2]
    split <;> decide

/-- The distributor has a hundred of the native currency, and nothing is registered. -/
def start : State Chain where
  outside := chain 100
  snapshotPublisher := 0
  markets _ := Market.empty
  rounds _ _ := Round.empty
  claimedAssets _ _ _ := 0
  excluded _ _ := false
  exclusions _ := []
  totalLiability _ := 0
  log := []

theorem init_start : Init start where
  publisher := rfl
  markets _ := rfl
  rounds _ _ := rfl
  claimed _ _ _ := rfl
  excluded _ _ := rfl
  exclusions _ := rfl
  totalLiability _ := rfl
  log := rfl

/-- The first round: sixty of the native currency, for account 200. -/
def publication : Publication where
  marketId := 1
  round := 1
  snapshotBlock := 100
  snapshotBlockHash := 7
  root := claimLeaf DocumentedV4.platform 90 1 1 200 60 0
  dataHash := 3
  quoteBudget := 60
  memeBudget := 0

/-- The factory registers the market. -/
def register : Except Revert (State Chain) := registerFeeSharingMarket calls 90 start 30 1 20 33

/-- The distributor with the market. -/
def registered : State Chain := value register (by decide +kernel)

/-- The governance appoints the account 300 as the publisher. -/
def authorize : Except Revert (State Chain) :=
  setSnapshotPublisher calls registered 40 300

/-- The distributor with its publisher. -/
def authorized : State Chain := value authorize (by decide +kernel)

/-- The vault funds the market with a hundred. -/
def fund : Except Revert (State Chain) :=
  fundQuoteRewards calls 90 authorized 20 100 1 1 100

/-- The distributor that owes its holders a hundred. -/
def funded : State Chain := value fund (by decide +kernel)

/-- A block later, the round is published. -/
def publishing : Except Revert (State Chain) :=
  publishSnapshots calls 90 { funded with outside := chain 101 } 300 [publication]

/-- The distributor with the published round. -/
def published : State Chain := value publishing (by decide +kernel)

/-- The account 200 claims its sixty. -/
def claim : Except Revert (State Chain × ℕ × ℕ) :=
  claimSnapshot DocumentedV4.platform calls 90 published 200 1 1 60 0 1 []

/-- The distributor after the claim. -/
def claimedState : State Chain := (value claim (by decide +kernel)).1

theorem reachable_funded : Reachable DocumentedV4.platform calls 90 funded :=
  (((Transition.Reachable.of_init init_start).next
    (Step.registerFeeSharingMarket 30 1 20 33 (eq_ok_value _ : register = .ok registered))).next
      (Step.setSnapshotPublisher 40 300 (eq_ok_value _ : authorize = .ok authorized))).next
        (Step.fundQuoteRewards 20 100 1 1 100 (eq_ok_value _ : fund = .ok funded))

theorem reachable_claimed : Reachable DocumentedV4.platform calls 90 claimedState :=
  ((reachable_funded.next (Step.outside (chain 101))).next
    (Step.publishSnapshots 300 [publication] (eq_ok_value _ : publishing = .ok published))).next
      (Step.claimSnapshot 200 1 1 60 0 1 [] _ (@eq_ok_value _ _ claim _))

end Sample

/-- The accounts of the small distributor, which has paid sixty of its hundred. -/
theorem holder_rewards_accounting_sample :
    Sample.claimedState.outside.balances 0 200 = 60 ∧
      Sample.claimedState.outside.balances 0 90 = 40 ∧ Accounting Sample.claimedState :=
  have hpaid : Sample.claimedState.outside.balances 0 200 = 60 ∧
      Sample.claimedState.outside.balances 0 90 = 40 := by decide +kernel
  ⟨hpaid.1, hpaid.2, (holder_rewards_accounting Sample.reachable_claimed).1⟩

end HolderRewards

end TickerGarden
