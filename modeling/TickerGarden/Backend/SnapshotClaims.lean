import TickerGarden.Backend.HolderSnapshot
import TickerGarden.Holders.Registration

/-!
# A snapshot can be claimed in full

A dataset that `buildSnapshot` has made is published on chain as a root and two budgets. What the
distributor then checks of a claim is what the dataset provides: the leaf and the hash of a pair
are the same function on both sides, so the proof of an entry is accepted
(`verifyProof_of_mem`). And the budgets are exact: as long as the owners of the entries claim
what their entries say, a round has left what the unclaimed entries add up to
(`remaining_eq_sum`), which covers any one of them and is nothing when there are none.
-/

namespace TickerGarden

open Checked HolderRewards Function

namespace Backend

namespace HolderSnapshot

/-! ### The published dataset -/

/-- What an entry gets of an asset. -/
def Share.amount (r : Share) : Side → ℕ
  | .quote => r.quoteAmount
  | .meme => r.memeAmount

/-- The budget of an asset. -/
def SnapshotPayload.budget (d : SnapshotPayload) : Side → ℕ
  | .quote => d.quoteBudget
  | .meme => d.memeBudget

/-- What a market has of an asset. -/
def SnapshotContext.available (i : SnapshotContext) : Side → ℕ
  | .quote => i.quoteAvailable
  | .meme => i.memeAvailable

/-- **A dataset that is ready to be claimed.** -/
structure Claimable (platform : Platform) (input : SnapshotInput) (dataset : SnapshotDataset) :
    Prop where
  /-- Every proof leads from the leaf of the contract to the root. -/
  proofs : ∀ e ∈ dataset.entries, verifyProof platform e.proof dataset.root
    (snapshotLeaf platform input.toSnapshotContext e.toShare)
  /-- The entries add up to the budgets, which are there. -/
  sums : ∀ side, (dataset.entries.map fun e => e.amount side).sum = dataset.budget side
  available : ∀ side, dataset.budget side ≤ input.available side
  excluded : ∀ e ∈ dataset.entries, e.account ∉ input.exclusions
  nodup : (dataset.entries.map fun e => e.account).Nodup
  positive : ∀ e ∈ dataset.entries, e.quoteAmount ≠ 0 ∨ e.memeAmount ≠ 0
  burn : input.burnMemeFees = true → ∀ e ∈ dataset.entries, e.memeAmount = 0

variable {platform : Platform} {payloadHash : SnapshotPayload → Bytes32} {input : SnapshotInput}
  {dataset : SnapshotDataset}

/-- What the entries say, read of the shares. -/
theorem Built.map_entries {β : Type} (h : Built platform input dataset) (f : Share → β) :
    dataset.entries.map (fun e => f e.toShare)
      = (shares input.toSnapshotContext dataset.eligibleSupply (sortBalances input.balances)).map
        f := by
  rw [h.entries]
  exact List.map_map.symm.trans (congrArg (List.map f) (map_toShare_proveEntries _ _))

theorem Built.toShare_mem (h : Built platform input dataset) {e : SnapshotEntry}
    (he : e ∈ dataset.entries) : e.toShare ∈ shares input.toSnapshotContext dataset.eligibleSupply
      (sortBalances input.balances) := by
  have hmem := List.mem_map_of_mem (f := fun e => id e.toShare) he
  rwa [h.map_entries id, List.map_id] at hmem

/-- **What `buildSnapshot` makes is ready to be claimed.** -/
theorem claimable_of_buildSnapshot (h : buildSnapshot platform payloadHash input = .ok dataset) :
    Claimable platform input dataset := by
  have hbuilt := built_of_buildSnapshot h
  have hchecked := checkedInput_of_checkInput hbuilt.checked
  have hsupply := hbuilt.supply ▸ hbuilt.supply_ne
  refine ⟨fun e he => ?_, fun side => ?_, fun side => ?_, fun e he => ?_, ?_, fun e he => ?_,
    fun hmode e he => ?_⟩
  · rw [hbuilt.entries] at he
    rw [hbuilt.root]
    exact proofRoot_of_mem he
  · rw [hbuilt.map_entries fun r => r.amount side]
    cases side with
    | quote => exact hbuilt.quoteBudget.symm
    | meme => exact hbuilt.memeBudget.symm
  · cases side with
    | quote =>
      rw [SnapshotPayload.budget, hbuilt.quoteBudget, hbuilt.supply]
      exact sum_quoteAmount_le hsupply
    | meme =>
      rw [SnapshotPayload.budget, hbuilt.memeBudget, hbuilt.supply]
      exact sum_memeAmount_le hsupply
  · obtain ⟨⟨b, -, hb, -, heq⟩, -⟩ := mem_shares.mp (hbuilt.toShare_mem he)
    have haccount : e.account = b.account := congrArg Share.account heq
    rwa [haccount]
  · rw [hbuilt.map_entries Share.account]
    exact hchecked.accounts_nodup.sublist accounts_shares_sublist
  · have hpos := (mem_shares.mp (hbuilt.toShare_mem he)).2
    omega
  · obtain ⟨⟨b, -, -, -, heq⟩, -⟩ := mem_shares.mp (hbuilt.toShare_mem he)
    have hamount : e.memeAmount = _ := congrArg Share.memeAmount heq
    rw [hamount, share, hbuilt.burn hmode, Nat.zero_mul, Nat.zero_div]

/-! ### The budgets of a round -/

/-- What a claim of an entry pays of an asset. -/
def Share.pays (r : Share) (assets : BitVec 8) (side : Side) : ℕ :=
  if selects assets side then r.amount side else 0

/-- In a log, whoever has claimed of a round has claimed what an entry of the dataset says. -/
def ByOwners (dataset : SnapshotDataset) (id : Bytes32) (round : RoundId) (log : List Event) :
    Prop :=
  ∀ account assets quotePaid memePaid,
    Event.holderSnapshotClaimed id round account assets quotePaid memePaid ∈ log →
      ∃ e ∈ dataset.entries, e.account = account ∧ quotePaid = e.pays assets .quote ∧
        memePaid = e.pays assets .meme

/-- A sum over entries of distinct accounts, of which one has something. -/
theorem sum_of_account {entries : List SnapshotEntry}
    (hnodup : (entries.map fun e => e.account).Nodup) {e : SnapshotEntry} (he : e ∈ entries)
    (c : Prop) [Decidable c] (f : SnapshotEntry → ℕ) :
    (entries.map fun x => if x.account = e.account ∧ c then f x else 0).sum
      = if c then f e else 0 := by
  induction entries with
  | nil => cases he
  | cons x entries ih =>
    rw [List.map_cons, List.nodup_cons] at hnodup
    rw [List.map_cons, List.sum_cons]
    rcases List.mem_cons.mp he with rfl | he
    · have hzero : (entries.map fun x => if x.account = e.account ∧ c then f x else 0).sum = 0 := by
        refine List.sum_eq_zero fun n hn => ?_
        obtain ⟨y, hy, rfl⟩ := List.mem_map.mp hn
        refine if_neg ?_
        rintro ⟨heq, -⟩
        exact hnodup.1 (List.mem_map.mpr ⟨y, hy, heq⟩)
      rw [hzero, Nat.add_zero]
      simp
    · have hne : x.account ≠ e.account := fun heq =>
        hnodup.1 (List.mem_map.mpr ⟨e, he, heq.symm⟩)
      rw [ih hnodup.2 he, if_neg fun h => hne h.1, Nat.zero_add]

/-- What one event has paid, by entries: a claim belongs to one of them. -/
theorem eventPaid_eq_sum (hnodup : (dataset.entries.map fun e => e.account).Nodup) {id : Bytes32}
    {round : RoundId} {event : Event} (howners : ByOwners dataset id round [event]) (side : Side) :
    event.paid id round side = (dataset.entries.map fun e =>
      if event.claims id round e.account side then e.amount side else 0).sum := by
  have hother (hpaid : event.paid id round side = 0)
      (hclaims : ∀ a, event.claims id round a side = false) : event.paid id round side
        = (dataset.entries.map fun e =>
          if event.claims id round e.account side then e.amount side else 0).sum := by
    rw [hpaid]
    symm
    refine List.sum_eq_zero fun n hn => ?_
    obtain ⟨y, -, rfl⟩ := List.mem_map.mp hn
    rw [hclaims, if_neg Bool.false_ne_true]
  cases event with
  | holderSnapshotClaimed i r account assets quotePaid memePaid =>
    by_cases hround : i = id ∧ r = round
    · obtain ⟨rfl, rfl⟩ := hround
      obtain ⟨e, he, rfl, rfl, rfl⟩ := howners account assets quotePaid memePaid
        (List.mem_singleton_self _)
      have hsum := sum_of_account hnodup he (selects assets side = true) fun x => x.amount side
      rw [Event.paid_claimed, if_pos ⟨rfl, rfl⟩]
      simp only [Event.claims_claimed, decide_true, Bool.true_and, Bool.and_eq_true,
        decide_eq_true_eq]
      simp only [eq_comm (a := e.account)]
      rw [hsum]
      cases side <;> rfl
    · refine hother ?_ fun a => ?_
      · rw [Event.paid_claimed, if_neg hround]
      · rw [Event.claims_claimed]
        rcases not_and_or.mp hround with hne | hne
        · rw [decide_eq_false hne]
          rfl
        · rw [decide_eq_false hne, Bool.and_false]
          rfl
  | _ => exact hother rfl fun _ => rfl

/-- **What a round has paid**, by entries. -/
theorem paid_eq_sum (hnodup : (dataset.entries.map fun e => e.account).Nodup) {id : Bytes32}
    {round : RoundId} {log : List Event} (howners : ByOwners dataset id round log) (side : Side) :
    paid log id round side
      = (dataset.entries.map fun e => claims log id round e.account side * e.amount side).sum := by
  induction log with
  | nil =>
    symm
    refine List.sum_eq_zero fun n hn => ?_
    obtain ⟨y, -, rfl⟩ := List.mem_map.mp hn
    exact Nat.zero_mul _
  | cons event log ih =>
    have hrest : ByOwners dataset id round log := fun account assets q m hmem =>
      howners account assets q m (List.mem_cons_of_mem _ hmem)
    rw [paid_cons, ih hrest]
    have hsplit : (dataset.entries.map fun e =>
          claims (event :: log) id round e.account side * e.amount side).sum
        = (dataset.entries.map fun e =>
            if event.claims id round e.account side then e.amount side else 0).sum
          + (dataset.entries.map fun e => claims log id round e.account side * e.amount side).sum := by
      rw [← List.sum_map_add]
      refine congrArg List.sum (List.map_congr_left fun e _ => ?_)
      rw [claims_cons, Nat.add_mul, Nat.add_comm]
      congr 1
      split_ifs
      · exact Nat.one_mul _
      · exact Nat.zero_mul _
    have hevent : ByOwners dataset id round [event] := fun account assets q m hmem =>
      howners account assets q m (List.mem_cons.mpr (Or.inl (List.mem_singleton.mp hmem)))
    rw [hsplit, eventPaid_eq_sum hnodup hevent]

section Contract

variable {W : Type} {calls : Externals W} {self : Address} {s s' : State W} {id : Bytes32}
  {round : RoundId}

/-- The round of a dataset stands with its root and its budgets. -/
structure Stands (s : State W) (id : Bytes32) (round : RoundId) (dataset : SnapshotDataset) :
    Prop where
  root : (s.rounds id round).root = dataset.root
  root_ne : (s.rounds id round).root ≠ 0
  budget : ∀ side, (s.rounds id round).budget side = dataset.budget side

/-- A sum of which some terms are taken. -/
theorem sum_taken_add_left (entries : List SnapshotEntry) (taken : SnapshotEntry → Bool)
    (f : SnapshotEntry → ℕ) :
    (entries.map fun e => (if taken e then 1 else 0) * f e).sum
      + (entries.map fun e => if taken e then 0 else f e).sum = (entries.map f).sum := by
  rw [← List.sum_map_add]
  refine congrArg List.sum (List.map_congr_left fun e _ => ?_)
  cases taken e
  · exact (congrArg (· + _) (Nat.zero_mul _)).trans (Nat.zero_add _)
  · exact Nat.one_mul _

/-- **A round has left what its unclaimed entries add up to.** -/
theorem remaining_eq_sum (hsound : Sound s) (hclaimable : Claimable platform input dataset)
    (hstands : Stands s id round dataset) (howners : ByOwners dataset id round s.log)
    (side : Side) :
    (s.rounds id round).remaining side = (dataset.entries.map fun e =>
      if selects (s.claimedAssets id round e.account) side then 0 else e.amount side).sum := by
  have hbudget := hsound.budgets id round side
  rw [hstands.budget, ← hclaimable.sums side, paid_eq_sum hclaimable.nodup howners] at hbudget
  have hclaims : (dataset.entries.map fun e => claims s.log id round e.account side * e.amount side)
      = dataset.entries.map fun e =>
        (if selects (s.claimedAssets id round e.account) side then 1 else 0) * e.amount side :=
    List.map_congr_left fun e _ => by rw [hsound.claimed]
  have hsplit := sum_taken_add_left dataset.entries
    (fun e => selects (s.claimedAssets id round e.account) side) fun e => e.amount side
  rw [hclaims] at hbudget
  omega

/-- An unclaimed entry is covered. -/
theorem pays_le_remaining (hsound : Sound s) (hclaimable : Claimable platform input dataset)
    (hstands : Stands s id round dataset) (howners : ByOwners dataset id round s.log)
    {e : SnapshotEntry} (he : e ∈ dataset.entries) {assets : BitVec 8}
    (hfresh : s.claimedAssets id round e.account &&& assets = 0) (side : Side) :
    e.pays assets side ≤ (s.rounds id round).remaining side := by
  rw [remaining_eq_sum hsound hclaimable hstands howners side, Share.pays]
  split_ifs with hselects
  · refine List.le_sum_of_mem (List.mem_map.mpr ⟨e, he, if_neg ?_⟩)
    exact fun hold => selects_of_disjoint hfresh side ⟨hold, hselects⟩
  · exact Nat.zero_le _

/-- When all have claimed an asset, nothing of it is left. -/
theorem remaining_eq_zero (hsound : Sound s) (hclaimable : Claimable platform input dataset)
    (hstands : Stands s id round dataset) (howners : ByOwners dataset id round s.log) {side : Side}
    (hall : ∀ e ∈ dataset.entries, selects (s.claimedAssets id round e.account) side = true) :
    (s.rounds id round).remaining side = 0 := by
  rw [remaining_eq_sum hsound hclaimable hstands howners side]
  refine List.sum_eq_zero fun n hn => ?_
  obtain ⟨e, he, rfl⟩ := List.mem_map.mp hn
  exact if_pos (hall e he)

/-! ### A claim of an entry -/

/-- The payments of a claim, as the distributor makes them. -/
def payout (calls : Externals W) (self : Address) (s : State W) (id : Bytes32) (account : Address)
    (quotePaid memePaid : ℕ) : Except Revert (W × (Address → ℕ)) := do
  let m := s.markets id
  let (w, totalLiability) ← payIf calls self s.outside s.totalLiability m.quote account quotePaid
  let (w, totalLiability) ← payIf calls self w totalLiability m.token account memePaid
  solventIf calls self w totalLiability m.quote quotePaid
  solventIf calls self w totalLiability m.token memePaid
  return (w, totalLiability)

/-- The input of a snapshot was read off the distributor: the chain, its own address, the fee
mode of the market and the list of the accounts it excludes. -/
structure ReadFrom (platform : Platform) (contract : Address) (s : State W)
    (input : SnapshotInput) : Prop where
  chainId : input.chainId = platform.chainId
  distributor : input.distributor = contract
  burnMemeFees : (s.markets input.marketId).burnMemeFees = input.burnMemeFees
  exclusions : ∀ account ∈ s.exclusions input.marketId, account ∈ input.exclusions

/-- The round of a snapshot. -/
def SnapshotContext.roundId (i : SnapshotContext) : RoundId := BitVec.ofNat 64 i.round

/-- The leaf of an entry is the one the contract computes of its claim. -/
theorem claimLeaf_eq (hchecked : CheckedInput input) (hread : ReadFrom platform self s input)
    (r : Share) : claimLeaf platform self input.marketId input.roundId r.account r.quoteAmount
      r.memeAmount = snapshotLeaf platform input.toSnapshotContext r := by
  have hround : input.roundId.toNat = input.round := by
    rw [SnapshotContext.roundId, BitVec.toNat_ofNat, Nat.mod_eq_of_lt hchecked.round_lt]
  rw [claimLeaf, snapshotLeaf, hround, hread.distributor, hread.chainId]
  rfl

/-- The distributor after the claim of an entry has been paid. -/
def afterClaim (s : State W) (id : Bytes32) (round : RoundId) (r : Share) (assets : BitVec 8)
    (x : W × (Address → ℕ)) : State W :=
  { s with
    outside := x.1
    rounds := update s.rounds id (update (s.rounds id) round
      { s.rounds id round with
        quoteRemaining := (s.rounds id round).quoteRemaining - r.pays assets .quote
        memeRemaining := (s.rounds id round).memeRemaining - r.pays assets .meme })
    claimedAssets := update s.claimedAssets id (update (s.claimedAssets id) round
      (update (s.claimedAssets id round) r.account
        (s.claimedAssets id round r.account ||| assets)))
    totalLiability := x.2
    log := .holderSnapshotClaimed id round r.account assets (r.pays assets .quote)
      (r.pays assets .meme) :: s.log }

/-- **The claim of an entry is its payment**: every check of the distributor lets it pass, the
one of the budget among them. -/
theorem claimSnapshot_eq_payout (hreachable : Reachable platform calls self s)
    (hsound : Sound s) (hchecked : CheckedInput input)
    (hclaimable : Claimable platform input dataset) (hread : ReadFrom platform self s input)
    (hregistered : (s.markets input.marketId).token ≠ 0)
    (hstands : Stands s input.marketId input.roundId dataset)
    (howners : ByOwners dataset input.marketId input.roundId s.log) {e : SnapshotEntry}
    (he : e ∈ dataset.entries) {assets : BitVec 8} (hne : assets ≠ 0) (hle : assets ≤ 3)
    (hfresh : s.claimedAssets input.marketId input.roundId e.account &&& assets = 0) :
    claimSnapshot platform calls self s e.account input.marketId input.roundId e.quoteAmount
        e.memeAmount assets e.proof
      = payout calls self s input.marketId e.account (e.pays assets .quote) (e.pays assets .meme)
        >>= fun x => .ok (afterClaim s input.marketId input.roundId e.toShare assets x,
          e.pays assets .quote, e.pays assets .meme) := by
  have hquote : e.pays assets .quote ≤ (s.rounds input.marketId input.roundId).quoteRemaining :=
    pays_le_remaining hsound hclaimable hstands howners he hfresh .quote
  have hmeme : e.pays assets .meme ≤ (s.rounds input.marketId input.roundId).memeRemaining :=
    pays_le_remaining hsound hclaimable hstands howners he hfresh .meme
  have hpays (side : Side) : (if assets &&& side.bit ≠ 0 then e.amount side else 0)
      = e.pays assets side := by
    simp [Share.pays, selects]
  have hcaller : ¬ (assets = 0 ∨ assets > 3 ∨ s.excluded input.marketId e.account = true ∨
      (e.quoteAmount = 0 ∧ e.memeAmount = 0)) := by
    rintro (hzero | hmore | hexcluded | ⟨hq, hm⟩)
    · exact hne hzero
    · exact absurd hle (BitVec.not_le.mpr hmore)
    · exact hclaimable.excluded e he (hread.exclusions _
        (mem_exclusions_of_excluded hreachable hexcluded))
    · exact (hclaimable.positive e he).elim (· hq) (· hm)
  have hproof : ¬ ¬ verifyProof platform e.proof (s.rounds input.marketId input.roundId).root
      (claimLeaf platform self input.marketId input.roundId e.account e.quoteAmount
        e.memeAmount) := by
    rw [claimLeaf_eq hchecked hread, hstands.root, not_not]
    exact hclaimable.proofs e he
  have hburn : ¬ ((s.markets input.marketId).burnMemeFees = true ∧ e.memeAmount ≠ 0) := by
    rintro ⟨hmode, hmeme⟩
    exact hmeme (hclaimable.burn (hread.burnMemeFees.symm.trans hmode) e he)
  have hbudget : ¬ (e.pays assets .quote > (s.rounds input.marketId input.roundId).quoteRemaining ∨
      e.pays assets .meme > (s.rounds input.marketId input.roundId).memeRemaining) := by
    rw [not_or, not_lt, not_lt]
    exact ⟨hquote, hmeme⟩
  have hquotePaid : (if assets &&& 1 ≠ 0 then e.quoteAmount else 0) = e.pays assets .quote :=
    hpays .quote
  have hmemePaid : (if assets &&& 2 ≠ 0 then e.memeAmount else 0) = e.pays assets .meme :=
    hpays .meme
  rw [claimSnapshot, revertIf_neg hcaller]
  dsimp only
  rw [revertIf_neg hproof, market_eq_ok.mpr ⟨hregistered, rfl⟩]
  simp only [ok_bind]
  rw [revertIf_neg hburn, revertIf_neg hstands.root_ne, revertIf_neg (not_not.mpr hfresh),
    hquotePaid, hmemePaid, revertIf_neg hbudget]
  simp only [ok_bind]
  rw [usub_eq_ok.mpr ⟨hquote, rfl⟩, usub_eq_ok.mpr ⟨hmeme, rfl⟩, payout]
  simp only [ok_bind, bind_assoc]
  rfl

/-! ### Assets that pay exactly -/

/-- An asset that pays what it is told to: the native currency to an account that takes it, or
a token without fees or hooks. -/
structure PaysExactly (calls : Externals W) (contract asset : Address) : Prop where
  /-- Balances are words. -/
  word : ∀ w holder, calls.balance w asset holder ≤ maxUint256
  pays : ∀ w recipient amount, recipient ≠ contract → amount ≤ calls.balance w asset contract →
    ∃ w', (asset = 0 → calls.sendNative w recipient amount = some w') ∧
      (asset ≠ 0 → calls.safeTransfer w asset recipient amount = .ok w') ∧
      calls.balance w' asset contract + amount = calls.balance w asset contract ∧
      calls.balance w' asset recipient = calls.balance w asset recipient + amount ∧
      ∀ other, other ≠ asset → calls.balance w' other contract = calls.balance w other contract

/-- What a payment leaves: the asset is as solvent as before, and the others are untouched. -/
structure Paid (calls : Externals W) (contract asset : Address) (w : W) (l : Address → ℕ) (w' : W)
    (l' : Address → ℕ) : Prop where
  solvent : l' asset ≤ calls.balance w' asset contract
  liability : ∀ other, other ≠ asset → l' other = l other
  balance : ∀ other, other ≠ asset → calls.balance w' other contract = calls.balance w other contract

variable {asset recipient : Address} {w w' : W} {l l' : Address → ℕ} {amount : ℕ}

/-- A payment of an asset that pays exactly goes through. -/
theorem pay_of_paysExactly (h : PaysExactly calls self asset) (hne : recipient ≠ self)
    (hsolvent : l asset ≤ calls.balance w asset self) (hle : amount ≤ l asset) :
    ∃ w' l', pay calls self w l asset recipient amount = .ok (w', l') ∧
      Paid calls self asset w l w' l' := by
  obtain ⟨w', hnative, htoken, hself, hrecipient, hother⟩ :=
    h.pays w recipient amount hne (hle.trans hsolvent)
  have hdebit : Sums.debit l asset amount
      = (.ok (update l asset (l asset - amount)) : Except Revert (Address → ℕ)) :=
    Sums.debit_eq_ok.mpr ⟨hle, rfl⟩
  have hself' : (update l asset (l asset - amount)) asset ≤ calls.balance w' asset self := by
    rw [update_self]
    omega
  refine ⟨w', update l asset (l asset - amount), ?_, hself',
    fun other ho => update_of_ne ho _ _, hother⟩
  rw [pay, solvent, revertIf_neg (Nat.not_lt.mpr hsolvent), hdebit]
  simp only [ok_bind]
  split_ifs with hzero
  · rw [hnative hzero]
    rfl
  · have hword := h.word w self
    have hword' := h.word w' recipient
    rw [hrecipient] at hword'
    rw [htoken hzero]
    simp only [ok_bind]
    rw [uadd_eq_ok.mpr ⟨by omega, rfl⟩, uadd_eq_ok.mpr ⟨hword', rfl⟩]
    simp only [ok_bind]
    rw [revertIf_neg (not_not.mpr hself), revertIf_neg (not_not.mpr hrecipient),
      revertIf_neg (Nat.not_lt.mpr hself')]
    rfl

theorem payIf_of_paysExactly (h : PaysExactly calls self asset) (hne : recipient ≠ self)
    (hsolvent : l asset ≤ calls.balance w asset self) (hle : amount ≤ l asset) :
    ∃ w' l', payIf calls self w l asset recipient amount = .ok (w', l') ∧
      Paid calls self asset w l w' l' := by
  rw [payIf]
  split_ifs with hzero
  · exact pay_of_paysExactly h hne hsolvent hle
  · exact ⟨w, l, rfl, hsolvent, fun _ _ => rfl, fun _ _ => rfl⟩

theorem solventIf_eq_ok (hsolvent : l asset ≤ calls.balance w asset self) :
    solventIf calls self w l asset amount = .ok () := by
  rw [solventIf]
  split_ifs
  · exact revertIf_neg (Nat.not_lt.mpr hsolvent)
  · rfl

/-- What a round has left is owed. -/
theorem remaining_le_liability (hsound : Sound s) (id : Bytes32) (round : RoundId) (side : Side) :
    (s.rounds id round).remaining side ≤ s.totalLiability ((s.markets id).asset side) := by
  have hround : (s.rounds id round).remaining side ≤ owedOn (s.markets id) (s.rounds id) side :=
    (Sums.le_sum (fun r => (s.rounds id r).remaining side) round).trans (Nat.le_add_left _ _)
  have hmarket : owedOn (s.markets id) (s.rounds id) side
      ≤ owedIn (s.markets id) (s.rounds id) ((s.markets id).asset side) := by
    rw [owedIn]
    cases side with
    | quote =>
      rw [Market.asset, if_pos rfl]
      exact Nat.le_add_right _ _
    | meme =>
      rw [Market.asset, if_pos rfl]
      exact Nat.le_add_left _ _
  rw [hsound.liability, owed]
  exact (hround.trans hmarket).trans
    (Sums.le_sum (fun i => owedIn (s.markets i) (s.rounds i) ((s.markets id).asset side)) id)

/-- The distributor holds what it owes in the assets of a market. -/
def SolventIn (calls : Externals W) (contract : Address) (s : State W) (id : Bytes32) : Prop :=
  ∀ side, s.totalLiability ((s.markets id).asset side)
    ≤ calls.balance s.outside ((s.markets id).asset side) contract

/-- **The payments of a claim go through**, in assets that pay exactly. -/
theorem payout_of_paysExactly {account : Address} {quotePaid memePaid : ℕ}
    (hexact : ∀ side, PaysExactly calls self ((s.markets id).asset side))
    (hassets : (s.markets id).quote ≠ (s.markets id).token) (hne : account ≠ self)
    (hsolvent : SolventIn calls self s id)
    (hquote : quotePaid ≤ s.totalLiability (s.markets id).quote)
    (hmeme : memePaid ≤ s.totalLiability (s.markets id).token) :
    ∃ x, payout calls self s id account quotePaid memePaid = .ok x := by
  obtain ⟨w₁, l₁, h₁, hp₁⟩ := payIf_of_paysExactly (hexact .quote) hne (hsolvent .quote) hquote
  have hmeme₁ : memePaid ≤ l₁ (s.markets id).token := by
    rw [hp₁.liability _ hassets.symm]
    exact hmeme
  have hsolvent₁ : l₁ (s.markets id).token ≤ calls.balance w₁ (s.markets id).token self := by
    rw [hp₁.liability _ hassets.symm, hp₁.balance _ hassets.symm]
    exact hsolvent .meme
  obtain ⟨w₂, l₂, h₂, hp₂⟩ := payIf_of_paysExactly (hexact .meme) hne hsolvent₁ hmeme₁
  have hsolvent₂ : l₂ (s.markets id).quote ≤ calls.balance w₂ (s.markets id).quote self := by
    rw [hp₂.liability _ hassets, hp₂.balance _ hassets]
    exact hp₁.solvent
  have hsolvent₃ : l₂ (s.markets id).token ≤ calls.balance w₂ (s.markets id).token self :=
    hp₂.solvent
  refine ⟨(w₂, l₂), ?_⟩
  simp only [Market.asset] at h₁ h₂
  rw [payout]
  dsimp only
  rw [h₁]
  simp only [ok_bind]
  rw [h₂]
  simp only [ok_bind]
  rw [solventIf_eq_ok hsolvent₂, solventIf_eq_ok hsolvent₃]
  rfl

/-! ### The whole life of a round -/

/-- What is left to the owners of the entries of a published dataset. -/
structure Open (platform : Platform) (calls : Externals W) (contract : Address) (s : State W)
    (input : SnapshotInput) (dataset : SnapshotDataset) : Prop where
  /-- Whoever has not claimed an asset yet is within the budget, and the claim is decided by its
  payment alone. -/
  claim : ∀ e ∈ dataset.entries, ∀ assets : BitVec 8, assets ≠ 0 → assets ≤ 3 →
    s.claimedAssets input.marketId input.roundId e.account &&& assets = 0 →
      (∀ side, e.pays assets side ≤ (s.rounds input.marketId input.roundId).remaining side) ∧
      claimSnapshot platform calls contract s e.account input.marketId input.roundId e.quoteAmount
          e.memeAmount assets e.proof
        = payout calls contract s input.marketId e.account (e.pays assets .quote)
            (e.pays assets .meme)
          >>= fun x => .ok (afterClaim s input.marketId input.roundId e.toShare assets x,
            e.pays assets .quote, e.pays assets .meme)
  /-- In assets that pay exactly, the claim goes through. -/
  paid : (∀ side, PaysExactly calls contract ((s.markets input.marketId).asset side)) →
    SolventIn calls contract s input.marketId →
    ∀ e ∈ dataset.entries, ∀ assets : BitVec 8, assets ≠ 0 → assets ≤ 3 →
      s.claimedAssets input.marketId input.roundId e.account &&& assets = 0 →
      ∃ s', claimSnapshot platform calls contract s e.account input.marketId input.roundId
        e.quoteAmount e.memeAmount assets e.proof
          = .ok (s', e.pays assets .quote, e.pays assets .meme)
  /-- When all have claimed an asset, its budget is used up. -/
  usedUp : ∀ side, (∀ e ∈ dataset.entries,
    selects (s.claimedAssets input.marketId input.roundId e.account) side = true) →
      (s.rounds input.marketId input.roundId).remaining side = 0

/-- A published round belongs to a registered market. -/
theorem token_ne_of_stands (hsound : Sound s) (hstands : Stands s id round dataset) :
    (s.markets id).token ≠ 0 := by
  intro hzero
  have hlast := (hsound.unregistered id hzero).2.2
  obtain ⟨hone, hle⟩ := (hsound.published id round).mp hstands.root_ne
  rw [hlast] at hle
  exact absurd (hone.trans hle) (by decide)

theorem open_of_sound (hreachable : Reachable platform calls self s)
    (hchecked : CheckedInput input) (hclaimable : Claimable platform input dataset)
    (hread : ReadFrom platform self s input)
    (hstands : Stands s input.marketId input.roundId dataset)
    (howners : ByOwners dataset input.marketId input.roundId s.log) :
    Open platform calls self s input dataset := by
  have hsound := sound_of_reachable hreachable
  have hregistered := token_ne_of_stands hsound hstands
  refine ⟨fun e he assets hne hle hfresh => ⟨?_, ?_⟩, ?_, fun side hall => ?_⟩
  · exact pays_le_remaining hsound hclaimable hstands howners he hfresh
  · exact claimSnapshot_eq_payout hreachable hsound hchecked hclaimable hread hregistered hstands howners he
      hne hle hfresh
  · intro hexact hsolvent e he assets hne hle hfresh
    have hself : e.account ≠ self := by
      rintro rfl
      exact hclaimable.excluded e he (hread.distributor ▸ hchecked.distributor_mem)
    have howed (side : Side) := (pays_le_remaining hsound hclaimable hstands howners he hfresh
      side).trans (remaining_le_liability hsound input.marketId input.roundId side)
    obtain ⟨x, hx⟩ := payout_of_paysExactly hexact (quote_ne_token hreachable hregistered) hself
      hsolvent (howed .quote) (howed .meme)
    refine ⟨afterClaim s input.marketId input.roundId e.toShare assets x, ?_⟩
    rw [claimSnapshot_eq_payout hreachable hsound hchecked hclaimable hread hregistered hstands howners he
      hne hle hfresh, hx]
    rfl
  · exact remaining_eq_zero hsound hclaimable hstands howners hall

end Contract

/-- **A dataset that `buildSnapshot` has made can be claimed in full.** Its proofs are accepted,
its entries add up to its budgets, and nobody is excluded or listed twice. Once a round stands
with its root and budgets, then after any run in which whoever claims of the round claims
an entry of their own, everybody else can still claim theirs, in any parts; and once all have, the
budgets are used up. -/
theorem snapshot_fully_claimable
    (h : buildSnapshot platform payloadHash input = .ok dataset) :
    Claimable platform input dataset ∧
      ∀ {W : Type} (calls : Externals W) (contract : Address) (s t : State W) (es : List Unit),
        Reachable platform calls contract s → ReadFrom platform contract s input →
        Stands s input.marketId input.roundId dataset →
        Transition.Run (Step platform calls contract) s es t →
        ByOwners dataset input.marketId input.roundId t.log →
          Open platform calls contract t input dataset := by
  have hclaimable := claimable_of_buildSnapshot h
  have hchecked := checkedInput_of_checkInput (built_of_buildSnapshot h).checked
  refine ⟨hclaimable, fun calls contract s t es hs hread hstands hrun howners => ?_⟩
  have hregistered := token_ne_of_stands (sound_of_reachable hs) hstands
  -- the terms of the round and of the market are as they were when it was published
  have hterms := (holder_rewards_accounting hs).2 es t hrun _ _ hstands.root_ne
  have hsettled := settled_of_run hregistered hrun
  have hstands' : Stands t input.marketId input.roundId dataset := by
    have hroot := Round.terms_root hterms
    simp only [Round.terms, Prod.mk.injEq] at hterms
    obtain ⟨-, -, -, -, hquote, hmeme⟩ := hterms
    refine ⟨hroot.trans hstands.root, hroot ▸ hstands.root_ne, fun side => ?_⟩
    rw [← hstands.budget side]
    cases side
    · exact hquote
    · exact hmeme
  have hread' : ReadFrom platform contract t input :=
    ⟨hread.chainId, hread.distributor, hsettled.burnMemeFees.trans hread.burnMemeFees,
      fun a ha => hread.exclusions a (hsettled.exclusions ▸ ha)⟩
  exact open_of_sound (hs.of_run hrun) hchecked hclaimable hread' hstands' howners

/-! ### A small snapshot

The market of the small distributor, with the hundred of the native currency it is funded with
and two holders. -/

namespace Sample

open HolderRewards.Sample (Chain chain calls funded reachable_funded)

/-- The accounts the distributor excludes. -/
def exclusions : List Address := funded.exclusions 1

/-- A snapshot of two holders and of the distributor itself, which has no share. -/
def givenInput : SnapshotInput where
  chainId := DocumentedV4.platform.chainId
  deploymentDigest := 1
  distributor := 90
  marketId := 1
  token := UserStockVault.Sample.config.memeToken
  quote := UserStockVault.Sample.config.quoteAsset
  round := 1
  snapshotBlock := 100
  snapshotBlockHash := 7
  registeredBlock := 100
  lastSnapshotBlock := 0
  totalSupply := 10
  quoteAvailable := 100
  memeAvailable := 0
  burnMemeFees := UserStockVault.Sample.config.burnMemeFees
  exclusions
  balances := [⟨201, 2⟩, ⟨90, 3⟩, ⟨200, 5⟩]

/-- The builder's dataset. -/
def built : Except JsError SnapshotDataset :=
  buildSnapshot DocumentedV4.platform (fun _ => 3) givenInput

/-- The dataset: two entries under one root. -/
def givenDataset : SnapshotDataset := value built (by decide +kernel)

/-- The first round of the market, with the root and the budgets of the dataset. -/
def publication : Publication where
  marketId := 1
  round := 1
  snapshotBlock := 100
  snapshotBlockHash := 7
  root := givenDataset.root
  dataHash := givenDataset.dataHash
  quoteBudget := givenDataset.quoteBudget
  memeBudget := givenDataset.memeBudget

/-- A block later the publisher publishes it. -/
def publishing : Except Revert (State Chain) :=
  publishSnapshots calls 90 { funded with outside := chain 101 } 300 [publication]

/-- The distributor with the published round. -/
def published : State Chain := value publishing (by decide +kernel)

theorem reachable_published : Reachable DocumentedV4.platform calls 90 published :=
  (reachable_funded.next (Step.outside (chain 101))).next
    (Step.publishSnapshots 300 [publication] (eq_ok_value _ : publishing = .ok published))

theorem read_published : ReadFrom DocumentedV4.platform 90 published givenInput := by
  have hread : (published.markets givenInput.marketId).burnMemeFees = givenInput.burnMemeFees ∧
      ((published.exclusions givenInput.marketId).all fun a => decide (a ∈ givenInput.exclusions))
        = true := by
    decide +kernel
  exact ⟨by decide +kernel, rfl, hread.1, fun account h =>
    of_decide_eq_true (List.all_eq_true.mp hread.2 account h)⟩

theorem stands_published :
    Stands published givenInput.marketId givenInput.roundId givenDataset where
  root := by decide +kernel
  root_ne := by decide +kernel
  budget side := by cases side <;> decide +kernel

/-- Nobody has claimed yet. -/
theorem log_published : (published.log.all fun e => !e.isClaim) = true := by decide +kernel

theorem byOwners_published :
    ByOwners givenDataset givenInput.marketId givenInput.roundId published.log := by
  intro account assets quotePaid memePaid hmem
  cases List.all_eq_true.mp log_published _ hmem

/-- Every asset is paid exactly. -/
theorem paysExactly (asset : Address) : PaysExactly calls 90 asset where
  word w holder := by
    have hself := w.bounded asset 0 (by decide)
    rcases eq_or_ne holder 90 with rfl | hne
    · exact (Nat.le_add_left _ _).trans hself
    · exact (Nat.le_add_right _ _).trans (w.bounded asset holder hne)
  pays w recipient amount hne hle := by
    have hpay : w.tryPay asset recipient amount = some (w.pay asset recipient amount ⟨hne, hle⟩) :=
      dif_pos ⟨hne, hle⟩
    have hself : (w.pay asset recipient amount ⟨hne, hle⟩).balances asset 90 + amount
        = w.balances asset 90 := by
      simp only [Chain.pay, Balances.set_apply, hne.symm, and_false, if_false, and_self, if_true]
      exact Nat.sub_add_cancel hle
    refine ⟨w.pay asset recipient amount ⟨hne, hle⟩, ?_, fun _ => ?_, hself, ?_, fun other hother => ?_⟩
    · rintro rfl
      exact hpay
    · exact orRevert_eq_ok.mpr hpay
    · show (w.pay asset recipient amount ⟨hne, hle⟩).balances asset recipient
        = w.balances asset recipient + amount
      simp only [Chain.pay, Balances.set_apply, and_self, if_true]
    · show (w.pay asset recipient amount ⟨hne, hle⟩).balances other 90 = w.balances other 90
      simp only [Chain.pay, Balances.set_apply, hother, false_and, if_false]

/-- The distributor has what it owes. -/
theorem solventIn_published : SolventIn calls 90 published givenInput.marketId := by
  intro side
  cases side <;> decide +kernel

theorem unclaimed_published : ∀ e ∈ givenDataset.entries,
    published.claimedAssets givenInput.marketId givenInput.roundId e.account &&& 3 = 0 := by
  decide +kernel

end Sample

/-- The small snapshot is claimable in the first state of its round: both holders may take what
they are entitled to. -/
theorem snapshot_fully_claimable_sample :
    Claimable DocumentedV4.platform Sample.givenInput Sample.givenDataset ∧
      Sample.givenDataset.entries.length = 2 ∧ ∀ e ∈ Sample.givenDataset.entries,
        ∃ s', claimSnapshot DocumentedV4.platform HolderRewards.Sample.calls 90 Sample.published
          e.account Sample.givenInput.marketId Sample.givenInput.roundId e.quoteAmount e.memeAmount 3
            e.proof = .ok (s', e.pays 3 .quote, e.pays 3 .meme) := by
  obtain ⟨hclaimable, hall⟩ := snapshot_fully_claimable (eq_ok_value _ : Sample.built = .ok Sample.givenDataset)
  have hopen := hall HolderRewards.Sample.calls 90 Sample.published Sample.published []
    Sample.reachable_published Sample.read_published Sample.stands_published
    (Transition.Run.refl _) Sample.byOwners_published
  refine ⟨hclaimable, by decide +kernel, fun e he => ?_⟩
  exact hopen.paid (fun side => Sample.paysExactly _) Sample.solventIn_published e he 3 (by decide)
    (by decide) (Sample.unclaimed_published e he)

end HolderSnapshot

end Backend

end TickerGarden
