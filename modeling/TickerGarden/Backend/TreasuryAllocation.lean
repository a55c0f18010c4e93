import Mathlib.Algebra.BigOperators.Ring.Finset
import TickerGarden.Backend.TreasuryTwab
import TickerGarden.Graduation.PoolMath

/-!
# What a treasury root commits to

The facts about an output of the treasury generator: who has a leaf and for how much, that the
leaves sum to the amount, that every proof leads to the root, and that nothing in it depends on
the order in which the transfers are supplied or the maps are iterated over.

The last fact comes from two others. An accepted list of transfers is *strictly* ordered once it
is sorted, so that there is only one way to sort it
(`TickerGarden.Backend.Treasury.sortObservations_perm`); and the drafts are determined by the
weights, so that there is only one way to list them by account
(`TickerGarden.Backend.Treasury.sortDrafts_eq`).

An epoch in which nobody is eligible has no leaves, and nothing sums to its amount. It is
accepted under the policy that says so, and only then.
-/

namespace TickerGarden

open Checked

namespace Backend

namespace Treasury

/-! ### The order of the observations -/

section Order

variable {a b c : Transfer} {ts us : List Transfer}

theorem Transfer.before_iff : a.Before b ↔ a.blockNumber < b.blockNumber ∨
    a.blockNumber = b.blockNumber ∧ (a.transactionIndex < b.transactionIndex ∨
      a.transactionIndex = b.transactionIndex ∧ a.logIndex < b.logIndex) := by
  rw [Transfer.Before]
  split_ifs <;> omega

theorem Transfer.Before.trans (hab : a.Before b) (hbc : b.Before c) : a.Before c := by
  rw [Transfer.before_iff] at *
  omega

/-- The observations, sorted. -/
theorem pairwise_sortObservations (ts : List Transfer) :
    (sortObservations ts).Pairwise fun a b => ¬ b.Before a := by
  have : Std.Total fun a b : Transfer => ¬ b.Before a := ⟨fun a b => by
    rw [Transfer.before_iff, Transfer.before_iff]
    omega⟩
  have : IsTrans Transfer fun a b => ¬ b.Before a := ⟨fun a b c => by
    rw [Transfer.before_iff, Transfer.before_iff, Transfer.before_iff]
    omega⟩
  exact List.pairwise_insertionSort _ ts

/-- **What the checks of neighbours say**: the times do not decrease, and sorted observations
are in strict order. -/
theorem of_checkObservations (hsorted : ts.Pairwise fun a b => ¬ b.Before a)
    (h : checkObservations ts = .ok ()) :
    ts.Pairwise Transfer.Before ∧ ts.Pairwise fun a b => a.timestamp ≤ b.timestamp := by
  have hchain : ts.IsChain fun a b => a.Before b ∧ a.timestamp ≤ b.timestamp := by
    induction ts with
    | nil => exact List.IsChain.nil
    | cons a ts ih =>
      cases ts with
      | nil => exact List.IsChain.singleton a
      | cons b ts =>
        simp only [checkObservations, bind_eq_ok, revertIf_eq_ok, not_lt, not_and, not_or,
          not_not, ge_iff_le, not_le] at h
        obtain ⟨-, htime, -, hblock, hrest⟩ := h
        obtain ⟨hfirst, hsorted⟩ := List.pairwise_cons.mp hsorted
        have hle := hfirst b List.mem_cons_self
        refine List.IsChain.cons_cons ⟨?_, htime⟩ (ih hsorted hrest)
        rw [Transfer.before_iff] at hle ⊢
        have hsame := hblock
        omega
  have htrans : IsTrans Transfer fun a b => a.Before b ∧ a.timestamp ≤ b.timestamp :=
    ⟨fun a b c hab hbc => ⟨hab.1.trans hbc.1, hab.2.trans hbc.2⟩⟩
  have hpairwise := hchain.pairwise
  exact ⟨hpairwise.imp And.left, hpairwise.imp And.right⟩

/-- **There is one way to sort** observations that are in strict order. -/
theorem sortObservations_perm (hperm : us.Perm ts)
    (hstrict : (sortObservations ts).Pairwise Transfer.Before) :
    sortObservations us = sortObservations ts := by
  have hus : (sortObservations us).Perm (sortObservations ts) :=
    (List.perm_insertionSort _ us).trans (hperm.trans (List.perm_insertionSort _ ts).symm)
  -- two of them are the same, or one is before the other
  have hapart : ∀ ⦃a⦄, a ∈ sortObservations ts → ∀ ⦃b⦄, b ∈ sortObservations ts →
      a = b ∨ a.Before b ∨ b.Before a :=
    List.Pairwise.forall_of_forall_of_flip (fun a _ => Or.inl rfl)
      (hstrict.imp fun h => Or.inr (Or.inl h)) (hstrict.imp fun h => Or.inr (Or.inr h))
  refine List.Perm.eq_of_pairwise ?_ (pairwise_sortObservations us)
    (pairwise_sortObservations ts) hus
  intro a b ha hb hba hab
  exact (hapart (hus.subset ha) hb).resolve_right (not_or.mpr ⟨hab, hba⟩)

theorem perm_sortObservations (ts : List Transfer) : (sortObservations ts).Perm ts :=
  List.perm_insertionSort _ ts

/-- An observation is the transfer it is made of. -/
theorem observe_eq {input : Input} {v w : Transfer} (h : observe input v = .ok w) : w = v := by
  simp only [observe, integer, bind_eq_ok, pure_eq_ok, Except.ok.injEq] at h
  obtain ⟨-, -, _, ⟨-, -, rfl⟩, _, ⟨-, -, rfl⟩, _, ⟨-, -, rfl⟩, -, -, rfl⟩ := h
  rfl

theorem mapM_observe_eq_ok {input : Input} : ts.mapM (observe input) = .ok us ↔
    us = ts ∧ ∀ v ∈ ts, observe input v = .ok v := by
  induction ts generalizing us with
  | nil => simp [eq_comm]
  | cons v ts ih =>
    simp only [List.mapM_cons, bind_eq_ok, ih, pure_eq_ok, Except.ok.injEq, List.forall_mem_cons]
    constructor
    · rintro ⟨w, hw, _, ⟨rfl, hall⟩, rfl⟩
      obtain rfl := observe_eq hw
      exact ⟨rfl, hw, hall⟩
    · rintro ⟨rfl, hv, hall⟩
      exact ⟨v, hv, _, ⟨rfl, hall⟩, rfl⟩

end Order

/-! ### The drafts -/

section Drafts

variable {order order' : MapOrder} {excluded : List Address} {acc acc' : Table Address Accumulator}
  {d e : Draft} {ds es : List Draft}

theorem mem_draftsOf : d ∈ draftsOf order excluded acc ↔
    ∃ v, acc.lookup d.account = some v ∧ 0 < v.weighted ∧ d.account ∉ excluded ∧
      d.twab = v.weighted := by
  simp only [draftsOf, List.mem_filterMap, Option.bind_eq_some_iff, (order.perm _).mem_iff]
  constructor
  · rintro ⟨a, -, v, hv, hd⟩
    split_ifs at hd with hif
    obtain rfl := Option.some.inj hd
    exact ⟨v, hv, hif.1, hif.2, rfl⟩
  · rintro ⟨v, hv, hpos, hnot, htwab⟩
    refine ⟨d.account, AList.lookup_isSome.mp (by rw [hv]; rfl), v, hv, ?_⟩
    rw [if_pos ⟨hpos, hnot⟩, ← htwab]

/-- An account has one draft. -/
theorem draft_unique (hd : d ∈ draftsOf order excluded acc) (he : e ∈ draftsOf order excluded acc)
    (h : d.account = e.account) : d = e := by
  obtain ⟨v, hv, -, -, htwab⟩ := mem_draftsOf.mp hd
  obtain ⟨w, hw, -, -, htwab'⟩ := mem_draftsOf.mp he
  obtain rfl : v = w := Option.some.inj (hv.symm.trans ((congrArg acc.lookup h).trans hw))
  obtain ⟨account, twab⟩ := d
  obtain ⟨account', twab'⟩ := e
  obtain rfl : account = account' := h
  rw [Draft.mk.injEq]
  exact ⟨rfl, htwab.trans htwab'.symm⟩

theorem nodup_draftsOf : (draftsOf order excluded acc).Nodup := by
  refine List.Nodup.filterMap ?_ ((order.perm _).nodup_iff.mpr acc.keys_nodup)
  have haccount : ∀ a d, (acc.lookup a).bind (fun v =>
      if v.weighted > 0 ∧ a ∉ excluded then some (⟨a, v.weighted⟩ : Draft) else none) = some d →
      d.account = a := by
    intro a d h
    obtain ⟨v, -, hd⟩ := Option.bind_eq_some_iff.mp h
    split_ifs at hd
    exact (congrArg Draft.account (Option.some.inj hd)).symm
  intro a a' d hd hd'
  exact (haccount a d hd).symm.trans (haccount a' d hd')

theorem perm_sortDrafts (ds : List Draft) : (sortDrafts ds).Perm ds := List.perm_insertionSort _ ds

theorem pairwise_sortDrafts (ds : List Draft) :
    (sortDrafts ds).Pairwise fun a b => a.account.toNat ≤ b.account.toNat := by
  have : Std.Total fun a b : Draft => a.account.toNat ≤ b.account.toNat := ⟨fun a b => le_total _ _⟩
  have : IsTrans Draft fun a b => a.account.toNat ≤ b.account.toNat := ⟨fun a b c => le_trans⟩
  exact List.pairwise_insertionSort _ ds

/-- **The drafts of the same weights are the same**, in whatever order the map is read. -/
theorem perm_draftsOf (h : ∀ a, acc'.lookup a = acc.lookup a) :
    (draftsOf order' excluded acc').Perm (draftsOf order excluded acc) := by
  refine (List.perm_ext_iff_of_nodup nodup_draftsOf nodup_draftsOf).mpr fun d => ?_
  rw [mem_draftsOf, mem_draftsOf, h]

/-- **There is one way to list the drafts** by account. -/
theorem sortDrafts_eq (h : ∀ a, acc'.lookup a = acc.lookup a) :
    sortDrafts (draftsOf order' excluded acc') = sortDrafts (draftsOf order excluded acc) := by
  have hperm : (draftsOf order' excluded acc').Perm (draftsOf order excluded acc) :=
    perm_draftsOf h
  have hsorted : (sortDrafts (draftsOf order' excluded acc')).Perm
      (sortDrafts (draftsOf order excluded acc)) :=
    (perm_sortDrafts _).trans (hperm.trans (perm_sortDrafts _).symm)
  refine List.Perm.eq_of_pairwise ?_ (pairwise_sortDrafts _) (pairwise_sortDrafts _) hsorted
  intro a b ha hb hab hba
  exact draft_unique ((perm_sortDrafts _).subset (hsorted.subset ha))
    ((perm_sortDrafts _).subset hb) (BitVec.eq_of_toNat_eq (le_antisymm hab hba))

end Drafts

/-! ### The output does not depend on the order -/

section Permutation

variable {platform : Platform} {datasetHash : Dataset → Bytes32}
  {balancesOrder accOrder balancesOrder' accOrder' : MapOrder} {input : Input} {out : Output}

/-- **The output is the same** for every order of the transfers, and for every order in which
the maps are iterated over. -/
theorem generate_perm {transfers : List Transfer} (hperm : transfers.Perm input.transfers)
    (h : generate platform datasetHash balancesOrder accOrder input = .ok out) :
    generate platform datasetHash balancesOrder' accOrder' { input with transfers } = .ok out := by
  simp only [generate, bind_eq_ok, mapM_observe_eq_ok, pure_eq_ok, Except.ok.injEq] at h ⊢
  obtain ⟨_, hvalid, _, ⟨rfl, hobserve⟩, _, hcheck, acc, hweigh, _, hfits, ⟨root, leaves⟩,
    hallocate, rfl⟩ := h
  obtain ⟨hstrict, -⟩ := of_checkObservations (pairwise_sortObservations _) hcheck
  obtain ⟨acc', hweigh', hlookup⟩ := weigh_order balancesOrder' hweigh
  have hsorted := sortObservations_perm hperm hstrict
  have htotal : ((draftsOf accOrder' (normalizeAddresses input.excludedAccounts) acc').map
      Draft.twab).sum = ((draftsOf accOrder (normalizeAddresses input.excludedAccounts) acc).map
      Draft.twab).sum := ((perm_draftsOf hlookup).map _).sum_eq
  have hdrafts : sortDrafts (draftsOf accOrder' (normalizeAddresses input.excludedAccounts) acc')
      = sortDrafts (draftsOf accOrder (normalizeAddresses input.excludedAccounts) acc) :=
    sortDrafts_eq hlookup
  refine ⟨(), hvalid, transfers, ⟨rfl, fun v hv => hobserve v (hperm.subset hv)⟩, (), ?_, acc', ?_,
    (), ?_, (root, leaves), ?_, ?_⟩
  · rw [hsorted]
    exact hcheck
  · rw [hsorted]
    exact hweigh'
  · rw [htotal]
    exact hfits
  · rw [htotal, hdrafts]
    exact hallocate
  · rw [htotal]

end Permutation

/-! ### The amounts -/

section Amounts

variable {platform : Platform} {quote total : ℕ} {ds : List Draft} {amounts : List (Draft × ℕ)}
  {c : Context} {index : ℕ} {allocations : List Allocation}

/-- The drafts in the order in which they get a unit. -/
theorem pairwise_favoured (quote total : ℕ) (ds : List Draft) :
    (ds.insertionSort fun a b => ¬ b.Favoured quote total a).Pairwise
      fun a b => ¬ b.Favoured quote total a := by
  have : Std.Total fun a b : Draft => ¬ b.Favoured quote total a := ⟨fun a b => by
    rw [Draft.Favoured, Draft.Favoured]
    split_ifs <;> omega⟩
  have : IsTrans Draft fun a b => ¬ b.Favoured quote total a := ⟨fun a b c => by
    rw [Draft.Favoured, Draft.Favoured, Draft.Favoured]
    split_ifs <;> omega⟩
  exact List.pairwise_insertionSort _ ds

/-- **What the apportionment gives**: the quotas with a unit for the favoured, who come first,
and the amount in all. -/
theorem of_apportion (hnodup : ds.Nodup) (htotal : total = (ds.map Draft.twab).sum)
    (hpos : 0 < total) (h : apportion quote total ds = .ok amounts) :
    ∃ favoured : List Draft,
      amounts = ds.map (fun d => (d, Apportionment.award quote Draft.twab total favoured d)) ∧
      (amounts.map Prod.snd).sum = quote ∧
      ∀ d ∈ favoured, ∀ e ∈ ds, e ∉ favoured → ¬ e.Favoured quote total d := by
  simp only [apportion, bind_eq_ok, pure_eq_ok, Except.ok.injEq] at h
  obtain ⟨-, -, rfl⟩ := h
  obtain rfl : total = Apportionment.total Draft.twab ds := htotal
  have horder := List.perm_insertionSort
    (fun a b : Draft => ¬ b.Favoured quote (Apportionment.total Draft.twab ds) a) ds
  refine ⟨_, rfl, ?_, fun d hd e he hnot =>
    Apportionment.priority (pairwise_favoured quote _ ds) hd (horder.mem_iff.mpr he) hnot⟩
  rw [List.map_map]
  exact Apportionment.sum_award hpos hnodup horder

/-- **The leaves of the amounts**: one for each amount that is not nothing, in their order. -/
theorem of_allocationsFrom (h : allocationsFrom platform c index amounts = .ok allocations) :
    (allocations.map fun a => ((⟨a.account, a.twab⟩ : Draft), a.amount))
        = amounts.filter (fun x => x.2 ≠ 0) ∧
      allocations.length ≤ 2 ^ 32 - 1 - index ∧
      ∀ i a, allocations[i]? = some a → a.index = index + i ∧
        hashLeaf platform c a.index a.account a.twab a.amount = .ok a.leaf := by
  induction amounts generalizing index allocations with
  | nil =>
    obtain rfl := Except.ok.inj h
    exact ⟨rfl, Nat.zero_le _, fun i a ha => nomatch ha⟩
  | cons x amounts ih =>
    obtain ⟨d, amount⟩ := x
    rw [allocationsFrom] at h
    by_cases hzero : amount = 0
    · rw [if_pos hzero] at h
      rw [List.filter_cons_of_neg (by simpa using hzero)]
      exact ih h
    · rw [if_neg hzero] at h
      simp only [bind_eq_ok, revertIf_eq_ok, pure_eq_ok, Except.ok.injEq] at h
      obtain ⟨-, hindex, leaf, hleaf, rest, hrest, rfl⟩ := h
      obtain ⟨hdrafts, hlength, hall⟩ := ih hrest
      refine ⟨?_, ?_, fun i a ha => ?_⟩
      · rw [List.filter_cons_of_pos (by simpa using hzero), List.map_cons, hdrafts]
      · rw [List.length_cons]
        omega
      · cases i with
        | zero =>
          obtain rfl := Option.some.inj ha
          exact ⟨rfl, hleaf⟩
        | succ i =>
          obtain ⟨heq, hhash⟩ := hall i a ha
          exact ⟨by omega, hhash⟩

/-- The amounts that are left out are nothing. -/
theorem sum_filter_ne_zero (amounts : List (Draft × ℕ)) :
    ((amounts.filter fun x => x.2 ≠ 0).map Prod.snd).sum = (amounts.map Prod.snd).sum := by
  induction amounts with
  | nil => rfl
  | cons x amounts ih =>
    rw [List.map_cons, List.sum_cons]
    by_cases hzero : x.2 = 0
    · rw [List.filter_cons_of_neg (by simpa using hzero), ih, hzero, Nat.zero_add]
    · rw [List.filter_cons_of_pos (by simpa using hzero), List.map_cons, List.sum_cons, ih]

theorem pair_comm (a b : Bytes32) : pair platform a b = pair platform b a := by
  rw [pair, pair]
  rcases lt_trichotomy a.toNat b.toNat with hlt | heq | hlt
  · rw [if_neg fun h => hlt.asymm (BitVec.lt_def.mp h), if_pos (BitVec.lt_def.mpr hlt)]
  · rw [BitVec.eq_of_toNat_eq heq]
  · rw [if_pos (BitVec.lt_def.mpr hlt), if_neg fun h => hlt.asymm (BitVec.lt_def.mp h)]

/-- The leaves of a tree are the allocations with their proofs. -/
theorem map_tree (allocations : List Allocation) :
    (tree platform allocations).2.map Leaf.toAllocation = allocations := by
  rw [tree]
  refine List.ext_getElem? fun i => ?_
  rw [List.getElem?_map, List.getElem?_mapIdx]
  cases allocations[i]? <;> rfl

/-- **Every proof of a tree leads to its root**, and is short enough to be checked. -/
theorem verifyProof_tree (hlength : allocations.length ≤ 2 ^ 32) {l : Leaf}
    (hl : l ∈ (tree platform allocations).2) :
    verifyProof platform l.leaf l.proof (tree platform allocations).1 = true := by
  obtain ⟨i, hi⟩ := List.getElem?_of_mem hl
  rw [tree, List.getElem?_mapIdx, Option.map_eq_some_iff] at hi
  obtain ⟨a, ha, rfl⟩ := hi
  have hleaf : (allocations.map Allocation.leaf)[i]? = some a.leaf := by
    rw [List.getElem?_map, ha]
    rfl
  have hroot := MerkleTree.foldl_climb (h := pair platform) pair_comm
    (n := allocations.length) (by rw [List.length_map]; exact Nat.le_succ _) hleaf
  have hlevels : (MerkleTree.levels (pair platform) allocations.length
      (allocations.map Allocation.leaf)).length ≤ 33 :=
    MerkleTree.length_levels_le (pair platform) (k := 32) (by rwa [List.length_map])
  have hshort := MerkleTree.length_climb_le (MerkleTree.levels (pair platform) allocations.length
    (allocations.map Allocation.leaf)).dropLast i
  rw [List.length_dropLast] at hshort
  rw [MerkleTree.root] at hroot
  rw [verifyProof, tree, Bool.and_eq_true, decide_eq_true_eq, beq_iff_eq, hroot]
  exact ⟨by dsimp only; omega, rfl⟩

end Amounts

/-! ### The facts of an output -/

/-- The time-weighted balance of an account over the window of an input. -/
def Input.twab (input : Input) (a : Address) : ℤ :=
  twabOf input.transfers input.windowStart input.windowEnd a

/-- **Who is eligible**: whoever held something during the window and is not excluded. -/
def Eligible (input : Input) (a : Address) : Prop :=
  a ≠ 0 ∧ a ∉ input.excludedAccounts ∧ 0 < input.twab a

/-- The exact part of an account, rounded down. -/
def quotaOf (input : Input) (total : ℕ) (a : Address) : ℕ :=
  input.quoteAmount * (input.twab a).toNat / total

/-- What rounding down takes off. -/
def remainderOf (input : Input) (total : ℕ) (a : Address) : ℕ :=
  input.quoteAmount * (input.twab a).toNat % total

/-- **Amounts by largest remainder**: everybody gets the quota or one unit more, and whoever gets
the unit has the larger remainder, or the same and the smaller account. -/
structure LargestRemainder (input : Input) (total : ℕ) (amount : Address → ℕ) : Prop where
  rounded : ∀ a, Eligible input a →
    amount a = quotaOf input total a ∨ amount a = quotaOf input total a + 1
  first : ∀ a b, Eligible input a → Eligible input b → amount a = quotaOf input total a + 1 →
    amount b = quotaOf input total b → remainderOf input total b < remainderOf input total a ∨
      remainderOf input total a = remainderOf input total b ∧ a.toNat < b.toNat

open Classical in
/-- **What an output says**, of the input alone. -/
structure Generated (platform : Platform) (input : Input) (out : Output) : Prop where
  /-- The amount is given out exactly, if there is anybody to give it to. -/
  sum_eq : (∃ a, Eligible input a) →
    (out.leaves.map fun l => l.amount).sum = input.quoteAmount
  /-- Otherwise nothing is, under the policy for that. -/
  empty : (¬ ∃ a, Eligible input a) → out.leaves = [] ∧ out.merkleRoot = emptyRoot platform ∧
    input.emptyEpochPolicy = "reviewed-rollover"
  totalAllocated : out.totalAllocated = (out.leaves.map fun l => l.amount).sum
  /-- The total weight is that of the eligible accounts. -/
  totalTwab : (out.totalTwab : ℤ) = ∑ a with Eligible input a, input.twab a
  /-- The leaves are the amounts by largest remainder that are not nothing. -/
  amounts : ∃ amount : Address → ℕ, LargestRemainder input out.totalTwab amount ∧
    (∀ a, (∃ l ∈ out.leaves, l.account = a) ↔ Eligible input a ∧ 0 < amount a) ∧
    ∀ l ∈ out.leaves, l.amount = amount l.account
  /-- No account has two leaves, and no excluded one has any. -/
  accounts : out.leaves.Pairwise fun l m => l.account ≠ m.account
  excluded : ∀ l ∈ out.leaves, l.account ∉ input.excludedAccounts
  /-- Every leaf has the exact time-weighted balance of its account. -/
  twab : ∀ l ∈ out.leaves, (l.twab : ℤ) = input.twab l.account
  /-- Every leaf is the hash of what it says, and its proof leads to the root. -/
  leaf : ∀ l ∈ out.leaves,
    hashLeaf platform input.toContext l.index l.account l.twab l.amount = .ok l.leaf
  proofs : ∀ l ∈ out.leaves, verifyProof platform l.leaf l.proof out.merkleRoot = true

section Facts

variable {platform : Platform} {datasetHash : Dataset → Bytes32}
  {balancesOrder accOrder : MapOrder} {input : Input} {out : Output} {d : Draft}
  {acc : Table Address Accumulator}

theorem mem_normalizeAddresses {values : List Address} {a : Address} :
    a ∈ normalizeAddresses values ↔ a ∈ values := by
  rw [normalizeAddresses, List.mem_insertionSort, List.mem_dedup]

/-- **The drafts are the eligible accounts** with their time-weighted balances. -/
theorem mem_draftsOf_iff
    (hordered : (sortObservations input.transfers).Pairwise fun v w => v.timestamp ≤ w.timestamp)
    (h : weigh input.windowStart input.windowEnd balancesOrder (sortObservations input.transfers)
      = .ok acc) :
    d ∈ draftsOf accOrder (normalizeAddresses input.excludedAccounts) acc ↔
      Eligible input d.account ∧ (d.twab : ℤ) = input.twab d.account := by
  have htwab : ∀ a, twabOf (sortObservations input.transfers) input.windowStart input.windowEnd a
      = input.twab a := fun a => twabOf_perm (perm_sortObservations _) _ _ a
  obtain ⟨hsome, hnone⟩ := weigh_eq_ok hordered h
  simp only [htwab] at hsome hnone
  rw [mem_draftsOf, mem_normalizeAddresses]
  constructor
  · rintro ⟨v, hv, hpos, hnot, heq⟩
    obtain ⟨hne, hweight⟩ := hsome _ v hv
    refine ⟨⟨hne, hnot, ?_⟩, ?_⟩
    · rw [← hweight]
      exact_mod_cast hpos
    · rw [heq, hweight]
  · rintro ⟨⟨hne, hnot, hpos⟩, heq⟩
    cases hv : acc.lookup d.account with
    | none => exact absurd (hnone _ hne hv) hpos.ne'
    | some v =>
      obtain ⟨-, hweight⟩ := hsome _ v hv
      rw [← hweight] at hpos heq
      exact ⟨v, rfl, by exact_mod_cast hpos, hnot, by exact_mod_cast heq⟩

/-- The stages of a successful generation. -/
structure Stages (platform : Platform) (input : Input) (out : Output) (ds : List Draft) : Prop where
  nodup : ds.Nodup
  drafts : ∀ d, d ∈ ds ↔ Eligible input d.account ∧ (d.twab : ℤ) = input.twab d.account
  total : out.totalTwab = (ds.map Draft.twab).sum
  allocate : allocate platform input out.totalTwab ds = .ok (out.merkleRoot, out.leaves)
  allocated : out.totalAllocated = (out.leaves.map fun l => l.amount).sum

theorem stages_of_generate
    (h : generate platform datasetHash balancesOrder accOrder input = .ok out) :
    ∃ ds, Stages platform input out ds := by
  simp only [generate, bind_eq_ok, mapM_observe_eq_ok, pure_eq_ok, Except.ok.injEq] at h
  obtain ⟨_, -, _, ⟨rfl, -⟩, _, hcheck, acc, hweigh, _, -, ⟨root, leaves⟩, hallocate, rfl⟩ := h
  obtain ⟨-, hordered⟩ := of_checkObservations (pairwise_sortObservations _) hcheck
  have hperm := perm_sortDrafts
    (draftsOf accOrder (normalizeAddresses input.excludedAccounts) acc)
  exact ⟨_, {
    nodup := hperm.nodup_iff.mpr nodup_draftsOf
    drafts := fun d => hperm.mem_iff.trans (mem_draftsOf_iff hordered hweigh)
    total := ((hperm.map _).sum_eq).symm
    allocate := hallocate
    allocated := rfl }⟩

/-! #### From the stages to the facts -/

variable {ds : List Draft}

/-- The draft of an account. -/
def draftOf (input : Input) (a : Address) : Draft := ⟨a, (input.twab a).toNat⟩

theorem Stages.eq_draftOf (h : Stages platform input out ds) (hd : d ∈ ds) :
    d = draftOf input d.account := by
  obtain ⟨-, htwab⟩ := (h.drafts d).mp hd
  obtain ⟨account, twab⟩ := d
  rw [draftOf, Draft.mk.injEq, ← htwab, Int.toNat_natCast]
  exact ⟨rfl, rfl⟩

theorem Stages.draftOf_mem (h : Stages platform input out ds) {a : Address} :
    draftOf input a ∈ ds ↔ Eligible input a := by
  rw [h.drafts]
  exact ⟨And.left, fun ha => ⟨ha, Int.toNat_of_nonneg ha.2.2.le⟩⟩

/-- The drafts are of different accounts. -/
theorem Stages.pairwise (h : Stages platform input out ds) :
    ds.Pairwise fun d e => d.account ≠ e.account := by
  refine h.nodup.imp_of_mem fun {d e} hd he hne heq => hne ?_
  rw [h.eq_draftOf hd, h.eq_draftOf he, heq]

open Classical in
/-- The total is over the eligible accounts. -/
theorem Stages.totalTwab (h : Stages platform input out ds) :
    (out.totalTwab : ℤ) = ∑ a with Eligible input a, input.twab a := by
  have hset : (Finset.univ.filter fun a => Eligible input a) = (ds.map Draft.account).toFinset := by
    ext a
    rw [Finset.mem_filter, and_iff_right (Finset.mem_univ a), List.mem_toFinset, List.mem_map]
    constructor
    · exact fun ha => ⟨draftOf input a, h.draftOf_mem.mpr ha, rfl⟩
    · rintro ⟨d, hd, rfl⟩
      exact ((h.drafts d).mp hd).1
  rw [hset, List.sum_toFinset _ (List.pairwise_map.mpr h.pairwise), h.total, List.map_map,
    Nat.cast_list_sum, List.map_map]
  exact congrArg List.sum (List.map_congr_left fun d hd => ((h.drafts d).mp hd).2)

/-- Something is weighed, if there are drafts. -/
theorem Stages.total_pos (h : Stages platform input out ds) (hd : d ∈ ds) : 0 < out.totalTwab := by
  obtain ⟨heligible, htwab⟩ := (h.drafts d).mp hd
  have hpos := heligible.2.2
  rw [← htwab] at hpos
  rw [h.total]
  exact (Nat.cast_pos.mp hpos).trans_le
    (List.single_le_sum (fun _ _ => Nat.zero_le _) _ (List.mem_map_of_mem hd))

/-- An epoch without drafts. -/
theorem Stages.generated_of_nil (h : Stages platform input out []) : Generated platform input out := by
  have hallocate := h.allocate
  simp only [Treasury.allocate, if_true, bind_eq_ok, revertIf_eq_ok, not_not, pure_eq_ok,
    Except.ok.injEq, Prod.mk.injEq] at hallocate
  obtain ⟨-, hpolicy, hroot, hleaves⟩ := hallocate
  have hnone : ∀ a, ¬ Eligible input a := fun a ha =>
    List.not_mem_nil (h.draftOf_mem.mpr ha)
  have hno : ∀ l, l ∉ out.leaves := fun l hl => by
    rw [← hleaves] at hl
    cases hl
  exact {
    sum_eq := fun hsome => hsome.elim fun a ha => absurd ha (hnone a)
    empty := fun _ => ⟨hleaves.symm, hroot.symm, hpolicy⟩
    totalAllocated := h.allocated
    totalTwab := h.totalTwab
    amounts := by
      refine ⟨fun _ => 0, ⟨fun a ha => absurd ha (hnone a), fun a _ ha => absurd ha (hnone a)⟩,
        fun a => ⟨?_, fun ha => absurd ha.1 (hnone a)⟩, fun l hl => absurd hl (hno l)⟩
      rintro ⟨l, hl, -⟩
      exact absurd hl (hno l)
    accounts := by
      rw [← hleaves]
      exact List.Pairwise.nil
    excluded := fun l hl => absurd hl (hno l)
    twab := fun l hl => absurd hl (hno l)
    leaf := fun l hl => absurd hl (hno l)
    proofs := fun l hl => absurd hl (hno l) }

/-- The amounts of the drafts are by largest remainder. -/
theorem Stages.largestRemainder (h : Stages platform input out ds) {favoured : List Draft}
    (hfirst : ∀ d ∈ favoured, ∀ e ∈ ds, e ∉ favoured →
      ¬ e.Favoured input.quoteAmount out.totalTwab d) :
    LargestRemainder input out.totalTwab fun a => Apportionment.award input.quoteAmount Draft.twab
      out.totalTwab favoured (draftOf input a) where
  rounded a _ := by
    rw [Apportionment.award]
    split
    · exact Or.inr rfl
    · exact Or.inl rfl
  first a b ha hb hup hdown := by
    have hin : draftOf input a ∈ favoured := by
      by_contra hnot
      rw [Apportionment.award, if_neg hnot] at hup
      exact absurd hup (Nat.ne_of_lt (Nat.lt_succ_self _))
    have hout : draftOf input b ∉ favoured := by
      intro hmem
      rw [Apportionment.award, if_pos hmem] at hdown
      exact absurd hdown (Nat.ne_of_gt (Nat.lt_succ_self _))
    have hbefore := hfirst _ hin _ (h.draftOf_mem.mpr hb) hout
    have hne : a.toNat ≠ b.toNat := fun heq => hout (BitVec.eq_of_toNat_eq heq ▸ hin)
    have hquota : ∀ x, Apportionment.remainder input.quoteAmount Draft.twab out.totalTwab
        (draftOf input x) = remainderOf input out.totalTwab x := fun _ => rfl
    have haccount : ∀ x, (draftOf input x).account = x := fun _ => rfl
    rw [Draft.Favoured, hquota, hquota, haccount, haccount] at hbefore
    split_ifs at hbefore with heq
    · exact Or.inr ⟨heq.symm, by omega⟩
    · exact Or.inl (by omega)

/-- **The facts of an output with drafts.** -/
theorem Stages.generated_of_mem (h : Stages platform input out ds) (hd : d ∈ ds) :
    Generated platform input out := by
  have hallocate := h.allocate
  rw [Treasury.allocate, if_neg (List.ne_nil_of_mem hd)] at hallocate
  simp only [bind_eq_ok, pure_eq_ok, Except.ok.injEq] at hallocate
  obtain ⟨amounts, hamounts, allocations, hallocations, -, -, htree⟩ := hallocate
  obtain ⟨favoured, rfl, hsum, hfirst⟩ := of_apportion h.nodup h.total (h.total_pos hd) hamounts
  obtain ⟨hdrafts, hlength, hall⟩ := of_allocationsFrom hallocations
  have hleaves : out.leaves = (tree platform allocations).2 := congrArg Prod.snd htree.symm
  have hroot : out.merkleRoot = (tree platform allocations).1 := congrArg Prod.fst htree.symm
  have hmap : out.leaves.map Leaf.toAllocation = allocations := by rw [hleaves, map_tree]
  -- a leaf is an allocation, which is an amount of a draft that is not nothing
  have hmem : ∀ l ∈ out.leaves, ∃ e ∈ ds, e = ⟨l.account, l.twab⟩ ∧ l.amount ≠ 0 ∧
      l.amount = Apportionment.award input.quoteAmount Draft.twab out.totalTwab favoured e := by
    intro l hl
    have ha : l.toAllocation ∈ allocations := hmap ▸ List.mem_map_of_mem hl
    have hx := List.mem_map_of_mem (f := fun a => ((⟨a.account, a.twab⟩ : Draft), a.amount)) ha
    rw [hdrafts, List.mem_filter, List.mem_map] at hx
    obtain ⟨⟨e, he, heq⟩, hne⟩ := hx
    rw [Prod.mk.injEq] at heq
    exact ⟨e, he, heq.1, by simpa using hne, heq.2.symm⟩
  have hof : ∀ a, Eligible input a → Apportionment.award input.quoteAmount Draft.twab out.totalTwab
      favoured (draftOf input a) ≠ 0 → ∃ l ∈ out.leaves, l.account = a := by
    intro a ha hne
    have hx : (draftOf input a, Apportionment.award input.quoteAmount Draft.twab out.totalTwab
        favoured (draftOf input a)) ∈ allocations.map
          fun a => ((⟨a.account, a.twab⟩ : Draft), a.amount) := by
      rw [hdrafts, List.mem_filter]
      exact ⟨List.mem_map_of_mem (f := fun d => (d, Apportionment.award input.quoteAmount Draft.twab
        out.totalTwab favoured d)) (h.draftOf_mem.mpr ha), by simpa using hne⟩
    obtain ⟨b, hb, heq⟩ := List.mem_map.mp hx
    rw [← hmap] at hb
    obtain ⟨l, hl, rfl⟩ := List.mem_map.mp hb
    rw [Prod.mk.injEq, draftOf, Draft.mk.injEq] at heq
    exact ⟨l, hl, heq.1.1⟩
  have heligible : ∀ l ∈ out.leaves, Eligible input l.account ∧
      (l.twab : ℤ) = input.twab l.account := by
    intro l hl
    obtain ⟨e, he, rfl, -⟩ := hmem l hl
    exact (h.drafts _).mp he
  have hamount : ∀ l ∈ out.leaves, l.amount = Apportionment.award input.quoteAmount Draft.twab
      out.totalTwab favoured (draftOf input l.account) := by
    intro l hl
    obtain ⟨e, he, rfl, -, heq⟩ := hmem l hl
    rw [heq, h.eq_draftOf he]
  have hpairs : (out.leaves.map fun l => ((⟨l.account, l.twab⟩ : Draft), l.amount))
      = (ds.map fun d => (d, Apportionment.award input.quoteAmount Draft.twab out.totalTwab favoured
          d)).filter fun x => x.2 ≠ 0 := by
    rw [← hdrafts, ← hmap, List.map_map]
    rfl
  have hdifferent : (ds.map fun d => (d, Apportionment.award input.quoteAmount Draft.twab
      out.totalTwab favoured d)).Pairwise fun x y => x.1.account ≠ y.1.account := by
    rw [List.pairwise_map]
    exact h.pairwise
  exact {
    sum_eq := fun _ => by
      rw [← hsum, ← sum_filter_ne_zero, ← hpairs, List.map_map]
      rfl
    empty := fun hnone => absurd ⟨d.account, ((h.drafts d).mp hd).1⟩ hnone
    totalAllocated := h.allocated
    totalTwab := h.totalTwab
    amounts := by
      refine ⟨_, h.largestRemainder hfirst, fun a => ⟨?_, fun ha => hof a ha.1 ha.2.ne'⟩, hamount⟩
      rintro ⟨l, hl, rfl⟩
      obtain ⟨-, -, -, hne, -⟩ := hmem l hl
      exact ⟨(heligible l hl).1, by rw [← hamount l hl]; exact Nat.pos_of_ne_zero hne⟩
    accounts := by
      have hpairwise : (out.leaves.map fun l => ((⟨l.account, l.twab⟩ : Draft), l.amount)).Pairwise
          fun x y => x.1.account ≠ y.1.account := by
        rw [hpairs]
        exact hdifferent.filter _
      rw [List.pairwise_map] at hpairwise
      exact hpairwise
    excluded := fun l hl => (heligible l hl).1.2.1
    twab := fun l hl => (heligible l hl).2
    leaf := by
      intro l hl
      have ha : l.toAllocation ∈ allocations := hmap ▸ List.mem_map_of_mem hl
      obtain ⟨i, hi⟩ := List.getElem?_of_mem ha
      exact (hall i _ hi).2
    proofs := by
      intro l hl
      rw [hroot]
      exact verifyProof_tree (hlength.trans (Nat.sub_le_of_le_add (by decide))) (hleaves ▸ hl) }

/-- **The roots of the treasury**: what an accepted input generates is an allocation of its
amount by largest remainder, in proportion to the exact time-weighted balances, with a proof for
every leaf; and it is generated for every order of the transfers and of the maps. -/
theorem treasury_root (h : generate platform datasetHash balancesOrder accOrder input = .ok out) :
    Generated platform input out ∧ ∀ (transfers : List Transfer) (balancesOrder' accOrder' : MapOrder),
      transfers.Perm input.transfers →
        generate platform datasetHash balancesOrder' accOrder' { input with transfers } = .ok out := by
  refine ⟨?_, fun transfers balancesOrder' accOrder' hperm => generate_perm hperm h⟩
  obtain ⟨ds, hstages⟩ := stages_of_generate h
  cases ds with
  | nil => exact hstages.generated_of_nil
  | cons d ds => exact hstages.generated_of_mem List.mem_cons_self

end Facts

/-! ### A small epoch -/

namespace Sample

/-- The keys as they come. -/
def order : MapOrder := ⟨id, fun l => List.Perm.refl l⟩

/-- The policy that excludes account 9. -/
def policy : Bytes32 :=
  DocumentedV4.platform.keccak256 (.eligibilityPolicy
    (DocumentedV4.platform.keccak256 (.text "TICKERGARDEN_V1_TREASURY_ELIGIBILITY_POLICY_V1")) 1 1
    [9])

/-- Account 7 holds 100 units before the window, and pays half of them to account 8 in the
middle of it. -/
def input : Input where
  chainId := 1
  distributor := 1
  marketId := 1
  epochId := 1
  memeToken := 2
  quoteToken := 0
  eligibilityPolicyHash := policy
  windowStart := 10
  windowEnd := 604810
  sourceBlockNumber := 100
  sourceBlockHash := 1
  emptyEpochPolicy := ""
  excludedAccounts := [9]
  sourceBlockTimestamp := 700000
  quoteAmount := 1001
  transfers := [⟨6, 0, 0, 302410, 7, 8, 50⟩, ⟨5, 0, 0, 5, 0, 7, 100⟩]

/-- The same epoch without a transfer, under the policy for that. -/
def emptyInput : Input :=
  { input with emptyEpochPolicy := "reviewed-rollover", transfers := [] }

/-- What is computed of an input, with maps in the order of their entries. -/
def output (i : Input) : Except GoError Output :=
  generate DocumentedV4.platform (fun _ => 1) order order i

theorem output_isOk : (output input).isOk = true := by decide +kernel

theorem emptyOutput_isOk : (output emptyInput).isOk = true := by decide +kernel

end Sample

/-- The facts of the small epoch. -/
theorem treasury_root_sample :
    Generated DocumentedV4.platform Sample.input
        (value (Sample.output Sample.input) Sample.output_isOk) ∧
      (value (Sample.output Sample.input) Sample.output_isOk).leaves.map (fun l => l.amount)
        = [751, 250] :=
  ⟨(treasury_root (eq_ok_value Sample.output_isOk)).1, by decide +kernel⟩

/-- **An epoch without holders gives nothing out**: an accepted input whose leaves do not sum to
its amount. -/
theorem empty_epoch_sums_to_zero :
    ∃ out, generate DocumentedV4.platform (fun _ => 1) Sample.order Sample.order Sample.emptyInput
        = .ok out ∧ (out.leaves.map fun l => l.amount).sum = 0 ∧
      Sample.emptyInput.quoteAmount = 1001 :=
  ⟨_, eq_ok_value Sample.emptyOutput_isOk, by decide +kernel, rfl⟩

end Treasury

end Backend

end TickerGarden
