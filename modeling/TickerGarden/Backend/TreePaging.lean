import TickerGarden.Backend.ShardedTree
import TickerGarden.Graduation.PoolMath
import TickerGarden.Lib.Reducer

/-!
# The sharded tree is the tree in memory

`ShardedTree.sharded_eq_buildSnapshot`: wherever a work has stopped, and with pages of whatever
sizes it goes on, it ends as `buildSnapshot` does on the same balances: with the same root, the
same sums, the same amounts and the same proofs, or with the same error.

The invariant is `Sound`. What it says of each phase is how much of the whole is already
written: the entries of the accounts up to the cursor, the levels of the tree below the one in
work and this one up to the cursor, the proofs of the first leaves. The whole is what
`buildSnapshot` computes at once, namely `entries`, `nodeLevel` and `proven`.

`buildSnapshot` takes 100000 holders at most, and this is the one thing the sharded tree does
without: `ShardedTree.buildSnapshot_refuses_capped` has a ledger with one more.
-/

namespace TickerGarden

open Checked

namespace Backend

namespace ShardedTree

open HolderSnapshot SnapshotLedger

/-! ### The whole -/

section Whole

variable (platform : Platform) (digests : Digests) (i : SnapshotContext)
  (balances : Table Address BalanceRow)

/-- The supply the budgets are divided by. -/
def supply : ℕ := eligibleSupply i (holdings balances)

/-- The rows the leaves are computed of. -/
def positive : List Holding := (holdings balances).filter fun r => r.balance > 0

/-- The shares of all accounts. -/
def entries : List Share := shares i (supply i balances) (holdings balances)

/-- The leaves of the tree. -/
def leaves : List Bytes32 := (entries i balances).map (snapshotLeaf platform i)

/-- The nodes of shares. -/
def leafNodes (rs : List Share) : List Node := rs.map fun r => ⟨snapshotLeaf platform i r, some r⟩

/-- The hashes of a level. -/
def levelHashes (k : ℕ) : List Bytes32 :=
  (MerkleTree.levelUp (pair platform))^[k] (leaves platform i balances)

/-- The nodes of a level. -/
def nodeLevel : ℕ → List Node
  | 0 => leafNodes platform i (entries i balances)
  | k + 1 => (levelHashes platform i balances (k + 1)).map fun hash => ⟨hash, none⟩

/-- The entries with their proofs. -/
def proven : List SnapshotEntry :=
  proveEntries (treeLevels platform (leaves platform i balances)) (entries i balances)

/-- The manifest after some rows. -/
def metaOf (done : List Holding) : Meta where
  eligibleSupply := supply i balances
  entryCount := (shares i (supply i balances) done).length
  quoteBudget := ((shares i (supply i balances) done).map Share.quoteAmount).sum
  memeBudget := ((shares i (supply i balances) done).map Share.memeAmount).sum
  balancesDigest := done.foldl digests.balance 0

/-- The manifest of the snapshot. -/
def fullManifest : SnapshotManifest :=
  let body : ManifestBody := {
    metaOf digests i balances (positive balances) with
    input := i
    root := treeRoot (treeLevels platform (leaves platform i balances)) }
  { body with dataHash := digests.manifest body }

/-- The row of an entry. -/
def proofRow (e : SnapshotEntry) : Address × WalletProof :=
  (e.account, ⟨e.quoteAmount, e.memeAmount, e.proof⟩)

end Whole

variable {platform : Platform} {digests : Digests} {i : SnapshotContext}
  {balances : Table Address BalanceRow}

/-! ### The entries of a page -/

section Entries

variable {s : ℕ}

theorem shares_append (xs ys : List Holding) :
    shares i s (xs ++ ys) = shares i s xs ++ shares i s ys := by
  rw [shares, eligible, List.filter_append, List.map_append, List.filter_append]
  rfl

/-- Accounts without a balance have no share. -/
theorem shares_positive : shares i s (positive balances) = shares i s (holdings balances) := by
  rw [shares, shares, eligible, eligible, positive, List.filter_filter]
  congr 2
  refine List.filter_congr fun r _ => ?_
  rw [← Bool.decide_and]
  exact decide_eq_decide.mpr (and_iff_left_of_imp And.right)

/-- The shares of one row. -/
theorem shares_singleton (r : Holding) :
    shares i s [r] = if r.account ∉ i.exclusions ∧ 0 < r.balance ∧
        0 < (share i s r).quoteAmount + (share i s r).memeAmount then [share i s r] else [] := by
  by_cases hr : r.account ∉ i.exclusions ∧ r.balance > 0
  · have heligible : eligible i [r] = [r] := List.filter_cons_of_pos (decide_eq_true hr)
    rw [shares, heligible, List.map_singleton]
    by_cases hamount : 0 < (share i s r).quoteAmount + (share i s r).memeAmount
    · rw [if_pos ⟨hr.1, hr.2, hamount⟩]
      exact List.filter_cons_of_pos (decide_eq_true hamount)
    · rw [if_neg fun h => hamount h.2.2]
      exact List.filter_cons_of_neg (by simpa using hamount)
  · have heligible : eligible i [r] = [] := List.filter_cons_of_neg (by simpa using hr)
    rw [shares, heligible, if_neg fun h => hr ⟨h.1, h.2.1⟩]
    rfl

theorem leafNodes_append (xs ys : List Share) :
    leafNodes platform i (xs ++ ys) = leafNodes platform i xs ++ leafNodes platform i ys :=
  List.map_append

theorem length_leafNodes (rs : List Share) : (leafNodes platform i rs).length = rs.length :=
  List.length_map _

/-- One turn of the loop: the manifest goes on, and the new entry has the next number. -/
theorem leafRow_metaOf (done : List Holding) (acc : List (ℕ × Node)) {r : Holding}
    (hr : 0 < r.balance) :
    leafRow platform digests i (metaOf digests i balances done, acc) r
      = (metaOf digests i balances (done ++ [r]),
        acc ++ Table.numbered (shares i (supply i balances) done).length
          (leafNodes platform i (shares i (supply i balances) [r]))) := by
  have hdigest : (done ++ [r]).foldl digests.balance 0
      = digests.balance (done.foldl digests.balance 0) r := by
    rw [List.foldl_append]
    rfl
  rw [leafRow, metaOf, metaOf, hdigest, shares_append, shares_singleton]
  dsimp only
  by_cases hexcluded : r.account ∈ i.exclusions
  · rw [if_pos hexcluded, if_neg fun h => h.1 hexcluded]
    simp [leafNodes, Table.numbered]
  · rw [if_neg hexcluded]
    by_cases hamount : 0 < (share i (supply i balances) r).quoteAmount
        + (share i (supply i balances) r).memeAmount
    · rw [if_neg hamount.ne', if_pos ⟨hexcluded, hr, hamount⟩]
      simp [leafNodes, Table.numbered]
    · rw [if_pos (by omega), if_neg fun h => hamount h.2.2]
      simp [leafNodes, Table.numbered]

/-- **The loop over a page** goes on from the rows that are done. -/
theorem foldl_leafRow {rows : List Holding} (hrows : ∀ r ∈ rows, 0 < r.balance)
    (done : List Holding) (acc : List (ℕ × Node)) :
    rows.foldl (leafRow platform digests i) (metaOf digests i balances done, acc)
      = (metaOf digests i balances (done ++ rows),
        acc ++ Table.numbered (shares i (supply i balances) done).length
          (leafNodes platform i (shares i (supply i balances) rows))) := by
  induction rows generalizing done acc with
  | nil =>
    rw [List.append_nil]
    exact (congrArg _ (List.append_nil acc)).symm
  | cons r rows ih =>
    obtain ⟨hr, hrows⟩ := List.forall_mem_cons.mp hrows
    have hsplit : done ++ r :: rows = done ++ [r] ++ rows :=
      (List.append_cons done r rows)
    rw [List.foldl_cons, leafRow_metaOf done acc hr, ih hrows, hsplit, List.append_assoc acc]
    have hcons : shares i (supply i balances) (r :: rows)
        = shares i (supply i balances) [r] ++ shares i (supply i balances) rows :=
      shares_append [r] rows
    rw [hcons, leafNodes_append, Table.numbered_append, length_leafNodes, shares_append done,
      List.length_append]

end Entries

/-! ### The nodes of a page -/

/-- Nodes of an inner level. -/
def inner (hashes : List Bytes32) : List Node := hashes.map fun hash => ⟨hash, none⟩

/-- **A page of pairs** is a part of the level above. -/
theorem pairRows_numbered (c : ℕ) (l : List Node) :
    pairRows platform (Table.numbered (2 * c) l)
      = Table.numbered c (inner (MerkleTree.levelUp (pair platform) (l.map Node.hash))) := by
  match l with
  | [] => rfl
  | [a] =>
    rw [Table.numbered, Table.numbered, pairRows, Nat.mul_div_cancel_left c Nat.two_pos]
    rfl
  | a :: b :: l =>
    have ih := pairRows_numbered (c + 1) l
    have hc : 2 * c + 1 + 1 = 2 * (c + 1) := by omega
    rw [Table.numbered, Table.numbered, pairRows, hc, ih, Nat.mul_div_cancel_left c Nat.two_pos]
    rfl

theorem map_hash_inner (hashes : List Bytes32) : (inner hashes).map Node.hash = hashes := by
  rw [inner, List.map_map]
  exact List.map_id hashes

theorem map_hash_nodeLevel (k : ℕ) :
    (nodeLevel platform i balances k).map Node.hash = levelHashes platform i balances k := by
  cases k with
  | zero =>
    rw [nodeLevel, leafNodes, List.map_map]
    rfl
  | succ k => exact map_hash_inner _

theorem length_nodeLevel (k : ℕ) :
    (nodeLevel platform i balances k).length = (levelHashes platform i balances k).length := by
  rw [← map_hash_nodeLevel, List.length_map]

/-- The level above a level. -/
theorem nodeLevel_succ (k : ℕ) :
    nodeLevel platform i balances (k + 1)
      = inner (MerkleTree.levelUp (pair platform) (levelHashes platform i balances k)) := by
  rw [nodeLevel, levelHashes, levelHashes, Function.iterate_succ_apply']
  rfl

theorem length_levelHashes_succ (k : ℕ) :
    (levelHashes platform i balances (k + 1)).length
      = ((levelHashes platform i balances k).length + 1) / 2 := by
  rw [levelHashes, Function.iterate_succ_apply', MerkleTree.length_levelUp]
  rfl

theorem length_levelHashes (k : ℕ) :
    (levelHashes platform i balances k).length
      = ((entries i balances).length + 2 ^ k - 1) / 2 ^ k := by
  rw [levelHashes, MerkleTree.length_iterate_levelUp, leaves, List.length_map]

/-- What is read of a level that is written. -/
theorem nodePage_eq {nodes : Table ℕ Node} {l : List Node} (h : ∀ n, nodes.lookup n = l[n]?)
    (first limit : ℕ) :
    nodePage nodes first limit = Table.numbered first ((l.drop first).take limit) := by
  have hfilter := Table.filter_numbered 0 first l
  rw [Nat.zero_add] at hfilter
  rw [nodePage, Table.rows_eq_numbered h, hfilter, Table.take_numbered]

/-- **A page of the level above**, computed from a level that is written. -/
theorem pairRows_nodePage {nodes : Table ℕ Node} {k : ℕ}
    (h : ∀ n, nodes.lookup n = (nodeLevel platform i balances k)[n]?) (c size : ℕ) :
    pairRows platform (nodePage nodes (c * 2) (size * 2))
      = Table.numbered c (((nodeLevel platform i balances (k + 1)).drop c).take size) := by
  rw [nodePage_eq h, Nat.mul_comm c, Nat.mul_comm size, pairRows_numbered, List.map_take,
    List.map_drop, map_hash_nodeLevel, MerkleTree.levelUp_take, MerkleTree.levelUp_drop,
    nodeLevel_succ, inner, inner, List.map_take, List.map_drop]

/-! ### The invariant -/

/-- A table has the nodes of a list. -/
def Filled (nodes : Table ℕ Node) (l : List Node) : Prop := ∀ n, nodes.lookup n = l[n]?

/-- What has been checked before the leaves. -/
structure Begun (i : SnapshotContext) (balances : Table Address BalanceRow) : Prop where
  supply_ne : supply i balances ≠ 0
  burn : ¬ (i.burnMemeFees ∧ i.memeAvailable ≠ 0)

/-- The errors of a snapshot, and when there are. -/
def Refused (i : SnapshotContext) (balances : Table Address BalanceRow) (e : JsError) : Prop :=
  (supply i balances = 0 ∧ e = ⟨"no eligible holders"⟩) ∨
  (supply i balances ≠ 0 ∧ (i.burnMemeFees ∧ i.memeAvailable ≠ 0) ∧
    e = ⟨"burn-mode Meme funding"⟩) ∨
  (Begun i balances ∧ entries i balances = [] ∧ e = ⟨"no distributable budget"⟩)

/-- Nothing is published yet. -/
structure Unpublished (w : Work) : Prop where
  dataset : w.dataset = none
  proofs : w.proofs = ∅

/-- The entries of the rows up to the cursor are written. -/
structure LeavesSound (platform : Platform) (digests : Digests) (i : SnapshotContext)
    (balances : Table Address BalanceRow) (cursor : WithBot ℕ) (manifest : Meta) (w : Work) :
    Prop where
  begun : Begun i balances
  unpublished : Unpublished w
  above : ∀ k, k ≠ 0 → Filled (w.nodes k) []
  done : ∃ done, done ++ Paging.rest (fun r : Holding => accountKey r.account) cursor
      (positive balances) = positive balances ∧ manifest = metaOf digests i balances done ∧
    Filled (w.nodes 0) (leafNodes platform i (shares i (supply i balances) done))

/-- The levels below are written, and this one up to the cursor. -/
structure TreeSound (platform : Platform) (digests : Digests) (i : SnapshotContext)
    (balances : Table Address BalanceRow) (manifest : Meta) (level cursor : ℕ) (w : Work) :
    Prop where
  begun : Begun i balances
  unpublished : Unpublished w
  entries_ne : entries i balances ≠ []
  manifest_eq : manifest = metaOf digests i balances (positive balances)
  level_pos : 0 < level
  cursor_lt : cursor < (levelHashes platform i balances level).length
  below : ∀ k, k < level → Filled (w.nodes k) (nodeLevel platform i balances k)
  here : Filled (w.nodes level) ((nodeLevel platform i balances level).take cursor)
  above : ∀ k, level < k → Filled (w.nodes k) []

/-- The tree is written, and the proofs up to the cursor. -/
structure ProofsSound (platform : Platform) (digests : Digests) (i : SnapshotContext)
    (balances : Table Address BalanceRow) (manifest : SnapshotManifest) (cursor : ℕ) (w : Work) :
    Prop where
  begun : Begun i balances
  entries_ne : entries i balances ≠ []
  manifest_eq : manifest = fullManifest platform digests i balances
  dataset : w.dataset = some manifest
  tree : ∀ k, 1 < (levelHashes platform i balances k).length ∨ k = 0 →
    Filled (w.nodes k) (nodeLevel platform i balances k)
  cursor_le : cursor ≤ (entries i balances).length
  proofs : w.proofs = (((proven platform i balances).take cursor).map proofRow).foldl
    (fun proofs r => proofs.insert r.1 r.2) ∅

/-- **The invariant.** -/
def Sound (platform : Platform) (digests : Digests) (i : SnapshotContext)
    (balances : Table Address BalanceRow) (w : Work) : Prop :=
  match w.stage with
  | .balancesReady => Unpublished w ∧ ∀ k, Filled (w.nodes k) []
  | .leaves cursor manifest => LeavesSound platform digests i balances cursor manifest w
  | .tree manifest level cursor => TreeSound platform digests i balances manifest level cursor w
  | .proofs manifest cursor => ProofsSound platform digests i balances manifest cursor w
  | .complete manifest =>
    ProofsSound platform digests i balances manifest (entries i balances).length w

theorem sound_start : Sound platform digests i balances Work.start :=
  ⟨⟨rfl, rfl⟩, fun _ _ => rfl⟩

/-- A bound on the pages that are left. -/
def workLeft (platform : Platform) (i : SnapshotContext) (balances : Table Address BalanceRow)
    (w : Work) : ℕ :=
  match w.stage with
  | .balancesReady => (positive balances).length + 4 * (entries i balances).length + 4
  | .leaves cursor _ => (Paging.rest (fun r : Holding => accountKey r.account) cursor
      (positive balances)).length + 4 * (entries i balances).length + 3
  | .tree _ level cursor => 3 * (levelHashes platform i balances (level - 1)).length - cursor
      + (entries i balances).length + 2
  | .proofs _ cursor => (entries i balances).length - cursor + 1
  | .complete _ => 0

/-- How a page ends: as the snapshot fails, or closer to its end. -/
def Advances (platform : Platform) (digests : Digests) (i : SnapshotContext)
    (balances : Table Address BalanceRow) (w : Work) (result : Except JsError Work) : Prop :=
  (∃ e, result = .error e ∧ Refused i balances e) ∨
  ∃ w', result = .ok w' ∧ Sound platform digests i balances w' ∧
    workLeft platform i balances w' < workLeft platform i balances w

/-- Nodes are written behind the ones that are there. -/
theorem insertNodes_filled {nodes : ℕ → Table ℕ Node} {level : ℕ} {l l' : List Node}
    (h : Filled (nodes level) l) :
    ∃ nodes', insertNodes nodes level (Table.numbered l.length l') = .ok nodes' ∧
      Filled (nodes' level) (l ++ l') ∧ ∀ k, k ≠ level → nodes' k = nodes k := by
  obtain ⟨table, hinsert, hfilled⟩ := @Table.insertNew_numbered _ JsError
    ⟨"duplicate key value violates unique constraint"⟩ (nodes level) l l' h
  refine ⟨Function.update nodes level table, ?_, ?_, fun k hk => Function.update_of_ne hk _ _⟩
  · rw [insertNodes, hinsert]
    rfl
  · rw [Function.update_self]
    exact hfilled

/-! ### The phases -/

/-- The queries before the leaves. -/
theorem beginLeaves_supply :
    (((holdings balances).filter fun r => r.account ∉ i.exclusions).map Holding.balance).sum
      = supply i balances := by
  rw [supply, eligibleSupply, eligible]
  generalize holdings balances = rows
  induction rows with
  | nil => rfl
  | cons r rows ih =>
    by_cases hexcluded : r.account ∈ i.exclusions
    · rw [List.filter_cons_of_neg (by simpa using hexcluded), ih,
        List.filter_cons_of_neg (by simpa using fun h => absurd hexcluded h)]
    · rw [List.filter_cons_of_pos (by simpa using hexcluded), List.map_cons, List.sum_cons, ih]
      rcases Nat.eq_zero_or_pos r.balance with hzero | hpos
      · rw [List.filter_cons_of_neg (by simp [hzero]), hzero, Nat.zero_add]
      · rw [List.filter_cons_of_pos (by simp [hexcluded, hpos]), List.map_cons, List.sum_cons]

theorem beginLeaves_advances {w : Work} (hstage : w.stage = .balancesReady)
    (h : Sound platform digests i balances w) :
    Advances platform digests i balances w (beginLeaves i balances w) := by
  rw [Sound, hstage] at h
  obtain ⟨hunpublished, hempty⟩ := h
  rw [beginLeaves, beginLeaves_supply]
  by_cases hsupply : supply i balances = 0
  · refine Or.inl ⟨_, ?_, Or.inl ⟨hsupply, rfl⟩⟩
    rw [throwIf, revertIf_pos hsupply]
    rfl
  by_cases hburn : i.burnMemeFees ∧ i.memeAvailable ≠ 0
  · refine Or.inl ⟨_, ?_, Or.inr (Or.inl ⟨hsupply, hburn, rfl⟩)⟩
    rw [throwIf, revertIf_neg hsupply, ok_bind, throwIf, revertIf_pos hburn]
    rfl
  · refine Or.inr ⟨{ w with stage := .leaves ⊥ ⟨supply i balances, 0, 0, 0, 0⟩ }, ?_, ?_, ?_⟩
    · rw [throwIf, revertIf_neg hsupply, ok_bind, throwIf, revertIf_neg hburn]
      rfl
    · refine LeavesSound.mk ⟨hsupply, hburn⟩ ⟨hunpublished.dataset, hunpublished.proofs⟩
        (fun k _ => hempty k) ⟨[], ?_, rfl, hempty 0⟩
      exact Paging.rest_of_forall_lt fun r _ => WithBot.bot_lt_coe _
    · rw [workLeft, workLeft, hstage]
      have hrest := @Paging.length_rest_le _ _ _ (fun r : Holding => accountKey r.account) ⊥
        (positive balances)
      dsimp only
      omega

theorem listed_positive (balances : Table Address BalanceRow) :
    Paging.Listed (fun r : Holding => accountKey r.account) (positive balances) := by
  refine List.Pairwise.filter _ ?_
  rw [holdings, List.pairwise_map]
  refine (Table.listed_rows (fun a b => BitVec.eq_of_toNat_eq) balances).imp ?_
  intro x y h
  exact WithBot.coe_lt_coe.mpr h

/-- Without entries there is no leaf. -/
theorem entryCount_metaOf_positive :
    (metaOf digests i balances (positive balances)).entryCount = (entries i balances).length := by
  rw [metaOf, shares_positive]
  rfl

theorem leavesPage_advances {w : Work} {cursor : WithBot ℕ} {manifest : Meta} {size : ℕ}
    (hstage : w.stage = .leaves cursor manifest)
    (h : LeavesSound platform digests i balances cursor manifest w) (hsize : 1 ≤ size) :
    Advances platform digests i balances w
      (leavesPage platform digests i balances size cursor manifest w) := by
  obtain ⟨done, hdone, rfl, hfilled⟩ := h.done
  have hnext := Paging.rest_next (listed_positive balances) size cursor
  set rows := Paging.page (fun r : Holding => accountKey r.account) size cursor
    (positive balances) with hrows
  -- the rows of the page are behind the ones that are done
  have hsplit : done ++ rows ++ Paging.rest (fun r : Holding => accountKey r.account)
      (Paging.next (fun r : Holding => accountKey r.account) cursor rows) (positive balances)
        = positive balances := by
    rw [hnext, hrows, Paging.page_eq_take, List.append_assoc, List.take_append_drop, hdone]
  have hpos : ∀ r ∈ rows, 0 < r.balance := by
    rintro r hr
    have hmem := (Paging.mem_rest.mp (List.mem_of_mem_take hr)).1
    exact of_decide_eq_true (List.mem_filter.mp hmem).2
  have hfold := @foldl_leafRow platform digests i balances rows hpos done []
  obtain ⟨nodes', hinsert, hfilled', hothers⟩ := @insertNodes_filled w.nodes 0 _
    (leafNodes platform i (shares i (supply i balances) rows)) hfilled
  rw [← leafNodes_append, ← shares_append] at hfilled'
  rw [length_leafNodes] at hinsert
  have habove : ∀ k, k ≠ 0 → Filled (nodes' k) [] := fun k hk => by
    rw [hothers k hk]
    exact h.above k hk
  have hpage : leavesPage platform digests i balances size cursor
      (metaOf digests i balances done) w = (do
        throwIf (rows.length < size ∧ (metaOf digests i balances (done ++ rows)).entryCount = 0)
          "no distributable budget"
        return { w with
          nodes := nodes'
          stage := if rows.length < size then .tree (metaOf digests i balances (done ++ rows)) 1 0
            else .leaves (Paging.next (fun r : Holding => accountKey r.account) cursor rows)
              (metaOf digests i balances (done ++ rows)) }) := by
    rw [positive] at hrows
    rw [leavesPage, ← hrows, hfold]
    dsimp only
    rw [List.nil_append, hinsert]
    rfl
  rw [hpage]
  by_cases hshort : rows.length < size
  · -- the last page
    have hnil := Paging.rest_next_eq_nil (listed_positive balances) hshort
    have hall : done ++ rows = positive balances := by
      rw [← hrows] at hnil
      rwa [hnil, List.append_nil] at hsplit
    rw [hall] at hfilled' ⊢
    rw [shares_positive] at hfilled'
    rw [entryCount_metaOf_positive, if_pos hshort]
    by_cases hentries : entries i balances = []
    · refine Or.inl ⟨_, ?_, Or.inr (Or.inr ⟨h.begun, hentries, rfl⟩)⟩
      rw [throwIf, revertIf_pos ⟨hshort, by rw [hentries]; rfl⟩]
      rfl
    · have hlength : (entries i balances).length ≠ 0 := fun hzero =>
        hentries (List.eq_nil_of_length_eq_zero hzero)
      refine Or.inr ⟨_, by rw [throwIf, revertIf_neg fun hzero => hlength hzero.2]; rfl, ?_, ?_⟩
      · exact {
          begun := h.begun
          unpublished := ⟨h.unpublished.dataset, h.unpublished.proofs⟩
          entries_ne := hentries
          manifest_eq := rfl
          level_pos := Nat.one_pos
          cursor_lt := by
            rw [length_levelHashes]
            omega
          below := fun k hk => by
            obtain rfl : k = 0 := by omega
            exact hfilled'
          here := habove 1 Nat.one_ne_zero
          above := fun k hk => habove k (by omega) }
      · have hcount : (levelHashes platform i balances 0).length = (entries i balances).length :=
          List.length_map _
        rw [workLeft, workLeft, hstage]
        dsimp only
        rw [Nat.sub_self, hcount]
        omega
  · rw [if_neg hshort]
    refine Or.inr ⟨_, by rw [throwIf, revertIf_neg fun hless => hshort hless.1]; rfl, ?_, ?_⟩
    · exact {
        begun := h.begun
        unpublished := ⟨h.unpublished.dataset, h.unpublished.proofs⟩
        above := habove
        done := ⟨done ++ rows, hsplit, rfl, hfilled'⟩ }
    · have hless := Paging.length_rest_next_lt (listed_positive balances) hsize hshort
      rw [← hrows] at hless
      rw [workLeft, workLeft, hstage]
      dsimp only
      omega

/-! ### The tree -/

/-- The root is the node of the level that has only one. -/
theorem treeRoot_of_length_one {k : ℕ}
    (h : (levelHashes platform i balances k).length = 1) :
    levelHashes platform i balances k
      = [treeRoot (treeLevels platform (leaves platform i balances))] := by
  obtain ⟨a, ha⟩ := List.length_eq_one_iff.mp h
  have hroot := MerkleTree.root_of_iterate (Nat.le_succ _) ha
  rw [MerkleTree.root] at hroot
  rw [ha, treeRoot, treeLevels, hroot]
  rfl

theorem levelHashes_anti {k m : ℕ} (h : k ≤ m) :
    (levelHashes platform i balances m).length ≤ (levelHashes platform i balances k).length := by
  induction h with
  | refl => exact le_rfl
  | @step m _ ih =>
    rw [length_levelHashes_succ]
    omega

theorem beginProofs_advances {w : Work} {manifest : Meta} {level cursor : ℕ}
    (hstage : w.stage = .tree manifest level cursor)
    (h : TreeSound platform digests i balances manifest level cursor w)
    (hcount : (levelHashes platform i balances (level - 1)).length = 1) :
    Advances platform digests i balances w (beginProofs digests i manifest level w) := by
  have hlevel := h.level_pos
  have hroot := treeRoot_of_length_one hcount
  have hnode : ∃ node, (w.nodes (level - 1)).lookup 0 = some node ∧
      node.hash = treeRoot (treeLevels platform (leaves platform i balances)) := by
    have hhash : ((nodeLevel platform i balances (level - 1)).map Node.hash)[0]?
        = some (treeRoot (treeLevels platform (leaves platform i balances))) := by
      rw [map_hash_nodeLevel, hroot]
      rfl
    rw [List.getElem?_map, Option.map_eq_some_iff] at hhash
    obtain ⟨node, hnode, hhash⟩ := hhash
    exact ⟨node, (h.below (level - 1) (by omega) 0).trans hnode, hhash⟩
  obtain ⟨node, hlookup, hhash⟩ := hnode
  have hpage : beginProofs digests i manifest level w = .ok { w with
      dataset := some (fullManifest platform digests i balances)
      stage := .proofs (fullManifest platform digests i balances) 0 } := by
    rw [beginProofs, hlookup]
    dsimp only
    rw [h.unpublished.dataset, h.manifest_eq, hhash]
    rfl
  refine Or.inr ⟨_, hpage, ?_, ?_⟩
  · exact {
      begun := h.begun
      entries_ne := h.entries_ne
      manifest_eq := rfl
      dataset := rfl
      tree := fun k hk => by
        refine h.below k (Nat.lt_of_not_le fun hle => ?_)
        rcases hk with hk | rfl
        · have hanti := @levelHashes_anti platform i balances _ _ ((Nat.sub_le level 1).trans hle)
          omega
        · omega
      cursor_le := Nat.zero_le _
      proofs := by
        rw [List.take_zero]
        exact h.unpublished.proofs }
  · have hlt := h.cursor_lt
    have hle := @levelHashes_anti platform i balances _ _ (Nat.sub_le level 1)
    rw [workLeft, workLeft, hstage]
    dsimp only
    omega

theorem treePage_advances {w : Work} {manifest : Meta} {level cursor size : ℕ}
    (hstage : w.stage = .tree manifest level cursor)
    (h : TreeSound platform digests i balances manifest level cursor w) (hsize : 1 ≤ size) :
    Advances platform digests i balances w
      (treePage platform digests i size manifest level cursor w) := by
  obtain ⟨k, rfl⟩ : ∃ k, level = k + 1 := ⟨level - 1, by have := h.level_pos; omega⟩
  have hcount : (manifest.entryCount + 2 ^ k - 1) / 2 ^ k
      = (levelHashes platform i balances k).length := by
    rw [h.manifest_eq, entryCount_metaOf_positive, length_levelHashes]
  rw [treePage, Nat.add_sub_cancel]
  dsimp only
  rw [hcount]
  by_cases hone : (levelHashes platform i balances k).length = 1
  · rw [if_pos hone]
    exact beginProofs_advances hstage h hone
  rw [if_neg hone, pairRows_nodePage (h.below k (Nat.lt_succ_self k))]
  have hup := @length_levelHashes_succ platform i balances k
  have hcursor := h.cursor_lt
  have hwidth := @length_nodeLevel platform i balances (k + 1)
  have htake : ((nodeLevel platform i balances (k + 1)).take cursor).length = cursor := by
    rw [List.length_take, hwidth]
    omega
  obtain ⟨nodes', hinsert, hfilled, hothers⟩ := @insertNodes_filled w.nodes (k + 1) _
    (((nodeLevel platform i balances (k + 1)).drop cursor).take size) h.here
  rw [htake] at hinsert
  rw [← List.take_add] at hfilled
  have hlength : (Table.numbered cursor
      (((nodeLevel platform i balances (k + 1)).drop cursor).take size)).length
        = min size ((levelHashes platform i balances (k + 1)).length - cursor) := by
    rw [Table.length_numbered, List.length_take, List.length_drop, hwidth]
  rw [hinsert, ok_bind, hlength]
  have hunpublished : Unpublished w := h.unpublished
  by_cases hdone : (cursor + min size ((levelHashes platform i balances (k + 1)).length - cursor))
      * 2 ≥ (levelHashes platform i balances k).length
  · -- the level is finished
    rw [if_pos hdone]
    refine Or.inr ⟨_, rfl, ?_, ?_⟩
    · exact {
        begun := h.begun
        unpublished := ⟨hunpublished.dataset, hunpublished.proofs⟩
        entries_ne := h.entries_ne
        manifest_eq := h.manifest_eq
        level_pos := Nat.succ_pos _
        cursor_lt := by
          rw [length_levelHashes_succ]
          omega
        below := fun m hm => by
          rcases Nat.lt_succ_iff_lt_or_eq.mp hm with hlt | rfl
          · show Filled (nodes' m) _
            rw [hothers m (by omega)]
            exact h.below m hlt
          · rw [List.take_of_length_le (by omega)] at hfilled
            exact hfilled
        here := by
          show Filled (nodes' (k + 1 + 1)) _
          rw [hothers (k + 1 + 1) (by omega)]
          exact h.above (k + 1 + 1) (by omega)
        above := fun m hm => by
          show Filled (nodes' m) _
          rw [hothers m (by omega)]
          exact h.above m (by omega) }
    · rw [workLeft, workLeft, hstage]
      dsimp only
      rw [Nat.add_sub_cancel, Nat.add_sub_cancel]
      omega
  · rw [if_neg hdone]
    refine Or.inr ⟨_, rfl, ?_, ?_⟩
    · exact {
        begun := h.begun
        unpublished := ⟨hunpublished.dataset, hunpublished.proofs⟩
        entries_ne := h.entries_ne
        manifest_eq := h.manifest_eq
        level_pos := Nat.succ_pos _
        cursor_lt := by omega
        below := fun m hm => by
          show Filled (nodes' m) _
          rw [hothers m (by omega)]
          exact h.below m hm
        here := by
          have hmin : min size ((levelHashes platform i balances (k + 1)).length - cursor)
              = size := by omega
          rw [hmin]
          exact hfilled
        above := fun m hm => by
          show Filled (nodes' m) _
          rw [hothers m (by omega)]
          exact h.above m hm }
    · rw [workLeft, workLeft, hstage]
      dsimp only
      rw [Nat.add_sub_cancel]
      omega

/-! ### The proofs -/

/-- **The walk from a leaf** collects the siblings a proof in memory has. -/
theorem walk_eq {nodes : ℕ → Table ℕ Node} (fuel : ℕ) {hashes : List Bytes32} {level : ℕ}
    (h : ∀ k, 1 < ((MerkleTree.levelUp (pair platform))^[k] hashes).length → ∀ n,
      ((nodes (level + k)).lookup n).map Node.hash
        = ((MerkleTree.levelUp (pair platform))^[k] hashes)[n]?) (index : ℕ) :
    walk nodes fuel index hashes.length level
      = .ok (MerkleTree.climb (MerkleTree.levels (pair platform) fuel hashes).dropLast index) := by
  induction fuel generalizing hashes level index with
  | zero => rfl
  | succ fuel ih =>
    rw [walk]
    by_cases hcount : 1 < hashes.length
    · have hsibling : (if index % 2 = 0 then index + 1 else index - 1) = index ^^^ 1 := by
        rcases Nat.even_or_odd index with heven | hodd
        · rw [if_pos (Nat.even_iff.mp heven), Nat.xor_one_of_even heven]
        · rw [if_neg (by rw [Nat.odd_iff.mp hodd]; exact Nat.one_ne_zero),
            Nat.xor_one_of_odd hodd]
      have habove := @ih (MerkleTree.levelUp (pair platform) hashes) (level + 1)
        (fun k hk n => by
          rw [← Function.iterate_succ_apply] at hk
          rw [← Function.iterate_succ_apply, Nat.add_right_comm]
          exact h (k + 1) hk n) (index / 2)
      rw [MerkleTree.length_levelUp] at habove
      have hhere := h 0 hcount (index ^^^ 1)
      rw [Function.iterate_zero, id_eq, Nat.add_zero] at hhere
      rw [if_pos hcount, MerkleTree.levels_of_one_lt fuel hcount,
        List.dropLast_cons_of_ne_nil (MerkleTree.levels_ne_nil _ _ _), MerkleTree.climb_cons,
        hsibling, habove]
      dsimp only
      by_cases hlt : index ^^^ 1 < hashes.length
      · rw [List.getElem?_eq_getElem hlt, Option.map_eq_some_iff] at hhere
        obtain ⟨node, hnode, hhash⟩ := hhere
        rw [if_pos hlt, hnode, List.getElem?_eq_getElem hlt, ← hhash]
        rfl
      · rw [if_neg hlt, List.getElem?_eq_none (Nat.le_of_not_lt hlt)]
        rfl
    · rw [if_neg hcount, MerkleTree.levels, if_neg hcount]
      rfl

/-- The leaf of an entry. -/
theorem getElem?_leafNodes (rs : List Share) (n : ℕ) :
    (leafNodes platform i rs)[n]? = rs[n]?.map fun r => ⟨snapshotLeaf platform i r, some r⟩ :=
  List.getElem?_map

/-- **The proof of a leaf** is the one it has in memory. -/
theorem proveLeaf_eq {nodes : ℕ → Table ℕ Node}
    (h : ∀ k, 1 < (levelHashes platform i balances k).length ∨ k = 0 →
      Filled (nodes k) (nodeLevel platform i balances k)) {n : ℕ} {r : Share}
    (hr : (entries i balances)[n]? = some r) :
    proveLeaf platform (fullManifest platform digests i balances) nodes
        (n, ⟨snapshotLeaf platform i r, some r⟩)
      = .ok (proofRow ⟨r, MerkleTree.climb
          (treeLevels platform (leaves platform i balances)).dropLast n⟩) := by
  have hcount : (fullManifest platform digests i balances).entryCount
      = (leaves platform i balances).length :=
    entryCount_metaOf_positive.trans (List.length_map _).symm
  have hwalk := @walk_eq platform nodes (leaves platform i balances).length
    (leaves platform i balances) 0 (fun k hk m => by
      rw [Nat.zero_add, h k (Or.inl hk) m, ← List.getElem?_map, map_hash_nodeLevel]
      rfl) n
  have hleaf : (leaves platform i balances)[n]? = some (snapshotLeaf platform i r) := by
    rw [leaves, List.getElem?_map, hr]
    rfl
  have hroot := MerkleTree.foldl_climb (pair_comm platform) (Nat.le_succ _) hleaf
  rw [MerkleTree.root] at hroot
  have hsame : proofRoot platform (snapshotLeaf platform i r)
      (MerkleTree.climb (treeLevels platform (leaves platform i balances)).dropLast n)
        = (fullManifest platform digests i balances).root := by
    show _ = treeRoot (treeLevels platform (leaves platform i balances))
    rw [treeRoot, treeLevels, hroot]
    rfl
  rw [proveLeaf, hcount, hwalk, ok_bind]
  dsimp only
  rw [← treeLevels, hsame, throwIf, revertIf_neg (not_not.mpr rfl)]
  rfl

/-- The rows of a page of proofs. -/
theorem mapM_proveLeaf {nodes : ℕ → Table ℕ Node}
    (h : ∀ k, 1 < (levelHashes platform i balances k).length ∨ k = 0 →
      Filled (nodes k) (nodeLevel platform i balances k)) (cursor size : ℕ) :
    (nodePage (nodes 0) cursor size).mapM
        (proveLeaf platform (fullManifest platform digests i balances) nodes)
      = .ok ((((proven platform i balances).drop cursor).take size).map proofRow) := by
  set path := fun n => MerkleTree.climb
    (treeLevels platform (leaves platform i balances)).dropLast n with hpath
  rw [nodePage_eq (h 0 (Or.inr rfl))]
  have hrow : ∀ x ∈ Table.numbered cursor
      (((nodeLevel platform i balances 0).drop cursor).take size),
      proveLeaf platform (fullManifest platform digests i balances) nodes x
        = .ok (x.2.payload.elim (0, ⟨0, 0, []⟩) fun r => proofRow ⟨r, path x.1⟩) := by
    rintro ⟨n, node⟩ hx
    obtain ⟨hle, hnode⟩ := Table.mem_numbered.mp hx
    rw [List.getElem?_take, List.getElem?_drop, Nat.add_sub_cancel' hle, nodeLevel,
      getElem?_leafNodes] at hnode
    split_ifs at hnode
    obtain ⟨r, hr, rfl⟩ := Option.map_eq_some_iff.mp hnode
    exact proveLeaf_eq h hr
  rw [mapM_eq_ok hrow]
  refine congrArg Except.ok (List.ext_getElem? fun k => ?_)
  rw [List.getElem?_map, Table.getElem?_numbered, List.getElem?_take, List.getElem?_drop,
    nodeLevel, getElem?_leafNodes, List.getElem?_map, List.getElem?_take, List.getElem?_drop,
    proven, getElem?_proveEntries]
  split_ifs
  · cases (entries i balances)[cursor + k]? <;> rfl
  · rfl

/-- The accounts of the entries are told apart. -/
theorem nodup_proven :
    (((proven platform i balances).map proofRow).map Prod.fst).Nodup := by
  have haccounts : ((proven platform i balances).map proofRow).map Prod.fst
      = (entries i balances).map Share.account := by
    rw [← map_toShare_proveEntries (treeLevels platform (leaves platform i balances))
      (entries i balances), List.map_map, List.map_map]
    rfl
  have hkeys : (holdings balances).map Holding.account
      = (balances.rows BitVec.toNat).map Prod.fst := by
    rw [holdings, List.map_map]
    rfl
  rw [haccounts]
  refine accounts_shares_sublist.nodup ?_
  rw [hkeys]
  exact Table.nodup_rows BitVec.toNat balances

theorem length_proven : (proven platform i balances).length = (entries i balances).length :=
  length_proveEntries _ _

theorem proofsPage_advances {w : Work} {manifest : SnapshotManifest} {cursor size : ℕ}
    (hstage : w.stage = .proofs manifest cursor)
    (h : ProofsSound platform digests i balances manifest cursor w) (hsize : 1 ≤ size) :
    Advances platform digests i balances w (proofsPage platform size manifest cursor w) := by
  obtain rfl := h.manifest_eq
  have hcursor := h.cursor_le
  have hpage : (nodePage (w.nodes 0) cursor size).length
      = min size ((entries i balances).length - cursor) := by
    rw [nodePage_eq (h.tree 0 (Or.inr rfl)), Table.length_numbered, List.length_take,
      List.length_drop, nodeLevel, length_leafNodes]
  have hcount : (fullManifest platform digests i balances).entryCount
      = (entries i balances).length := entryCount_metaOf_positive
  have hfold : ((((proven platform i balances).drop cursor).take size).map proofRow).foldl
      (fun proofs r => proofs.insert r.1 r.2) w.proofs
        = (((proven platform i balances).take (cursor + size)).map proofRow).foldl
          (fun proofs r => proofs.insert r.1 r.2) ∅ := by
    rw [h.proofs, ← List.foldl_append, ← List.map_append, ← List.take_add]
  rw [proofsPage, mapM_proveLeaf h.tree, ok_bind, hpage, hfold, hcount]
  by_cases hmore : cursor + min size ((entries i balances).length - cursor)
      < (entries i balances).length
  · have hmin : min size ((entries i balances).length - cursor) = size := by omega
    rw [hmin] at hmore ⊢
    rw [if_pos hmore]
    refine Or.inr ⟨_, rfl, ?_, ?_⟩
    · exact { h with cursor_le := hmore.le, proofs := rfl }
    · rw [workLeft, workLeft, hstage]
      dsimp only
      omega
  · -- all leaves are proved
    have hall : (proven platform i balances).take (cursor + size) = proven platform i balances := by
      refine List.take_of_length_le ?_
      rw [length_proven]
      omega
    have hlength : ((((proven platform i balances).take (cursor + size)).map proofRow).foldl
        (fun proofs r => proofs.insert r.1 r.2) (∅ : Table Address WalletProof)).entries.length
          = (entries i balances).length := by
      rw [hall, Table.length_foldl_insert nodup_proven, List.length_map, length_proven]
    rw [if_neg hmore]
    refine Or.inr ⟨{ w with
      proofs := (((proven platform i balances).take (cursor + size)).map proofRow).foldl
        (fun proofs r => proofs.insert r.1 r.2) ∅
      verifiedHeader := true
      stage := .complete (fullManifest platform digests i balances) }, ?_, ?_, ?_⟩
    · rw [throwIf, revertIf_neg (not_not.mpr hlength), ok_bind, throwIf,
        revertIf_neg (not_not.mpr h.dataset)]
      rfl
    · refine { h with cursor_le := le_rfl, proofs := ?_ }
      rw [hall, List.take_of_length_le length_proven.le]
    · rw [workLeft, workLeft, hstage]
      exact Nat.succ_pos _

/-! ### Calls -/

/-- A call nothing is in the way of. -/
structure Call.Undisturbed (call : Call) : Prop where
  one_le : 1 ≤ call.pageSize
  le_thousand : call.pageSize ≤ 1000
  anchored : call.anchored = true

/-- A work that is not complete goes on, or fails as the snapshot does. -/
theorem advanceStage_advances {w : Work} {size : ℕ} (hsize : 1 ≤ size)
    (h : Sound platform digests i balances w) (hleft : w.result = none) :
    Advances platform digests i balances w (advanceStage platform digests i balances size w) := by
  have hsound := h
  rw [Sound] at h
  rw [advanceStage]
  cases hstage : w.stage with
  | balancesReady => exact beginLeaves_advances hstage hsound
  | leaves cursor manifest =>
    rw [hstage] at h
    exact leavesPage_advances hstage h hsize
  | tree manifest level cursor =>
    rw [hstage] at h
    exact treePage_advances hstage h hsize
  | proofs manifest cursor =>
    rw [hstage] at h
    exact proofsPage_advances hstage h hsize
  | complete manifest =>
    rw [Work.result, hstage] at hleft
    cases hleft

/-- A complete work stays as it is. -/
theorem advanceStage_complete {w : Work} {size : ℕ} (hdone : w.result ≠ none) :
    advanceStage platform digests i balances size w = .ok w := by
  rw [Work.result] at hdone
  rw [advanceStage]
  cases hstage : w.stage with
  | complete manifest => rfl
  | _ =>
    rw [hstage] at hdone
    exact absurd rfl hdone

/-- **A committed call leaves a sound work.** -/
theorem sound_advance {call : Call} {w w' : Work} {result : Option SnapshotManifest}
    (h : Sound platform digests i balances w)
    (hcall : advanceShardedTree platform digests i balances call w = .ok (result, w')) :
    Sound platform digests i balances w' := by
  simp only [advanceShardedTree, bind_eq_ok, revertIf_eq_ok, pure_eq_ok, Except.ok.injEq,
    Prod.mk.injEq, not_or, Nat.not_lt] at hcall
  obtain ⟨_, ⟨hone, -⟩, _, -, w'', hstage, -, rfl⟩ := hcall
  by_cases hleft : w.result = none
  · rcases advanceStage_advances hone h hleft with ⟨e, he, -⟩ | ⟨w₁, hw₁, hsound, -⟩
    · rw [he] at hstage
      cases hstage
    · rw [hw₁, Except.ok.injEq] at hstage
      exact hstage ▸ hsound
  · rw [advanceStage_complete hleft, Except.ok.injEq] at hstage
    exact hstage ▸ h

theorem sound_of_reachable {w : Work} (h : Reachable platform digests i balances w) :
    Sound platform digests i balances w := by
  refine h.invariant (I := Sound platform digests i balances) ?_ ?_
  · rintro _ rfl
    exact sound_start
  · rintro w _ w' hw (⟨call, hpage⟩ | _)
    · exact sound_advance hw hpage
    · exact hw

/-- A call nothing is in the way of comes to its page. -/
theorem Call.Undisturbed.advance {call : Call} (hcall : call.Undisturbed) (w : Work) :
    advanceShardedTree platform digests i balances call w
      = (do
        let w ← advanceStage platform digests i balances call.pageSize w
        return (w.result, w)) := by
  have hsize : ¬ (call.pageSize < 1 ∨ call.pageSize > 1000) := by
    rintro (hless | hmore)
    · exact absurd hcall.one_le (by omega)
    · exact absurd hcall.le_thousand (by omega)
  rw [advanceShardedTree, throwIf, revertIf_neg hsize, hcall.anchored]
  rfl

/-- It fails only as the snapshot does. -/
theorem refused_of_undisturbed {call : Call} {w : Work} {e : JsError} (hcall : call.Undisturbed)
    (h : Sound platform digests i balances w)
    (he : advanceShardedTree platform digests i balances call w = .error e) :
    Refused i balances e := by
  rw [hcall.advance] at he
  by_cases hleft : w.result = none
  · rcases advanceStage_advances hcall.one_le h hleft with ⟨e', he', hrefused⟩ | ⟨w', hw', -, -⟩
    · rw [he', error_bind, Except.error.injEq] at he
      exact he ▸ hrefused
    · rw [hw', ok_bind] at he
      cases he
  · rw [advanceStage_complete hleft, ok_bind] at he
    cases he

/-- The work is at its end. -/
def Finished (platform : Platform) (digests : Digests) (i : SnapshotContext)
    (balances : Table Address BalanceRow) (w : Work) : Prop :=
  w.result ≠ none ∧ Sound platform digests i balances w

theorem workLeft_pos {w : Work} (hleft : w.result = none) :
    0 < workLeft platform i balances w := by
  rw [workLeft]
  rw [Work.result] at hleft
  cases hstage : w.stage with
  | complete manifest =>
    rw [hstage] at hleft
    cases hleft
  | _ => exact Nat.succ_pos _

theorem workLeft_eq_zero {w : Work} (hdone : w.result ≠ none) :
    workLeft platform i balances w = 0 := by
  rw [Work.result] at hdone
  rw [workLeft]
  cases hstage : w.stage with
  | complete manifest => rfl
  | _ =>
    rw [hstage] at hdone
    exact absurd rfl hdone

/-- **Enough calls end the work**, or fail as the snapshot does. -/
theorem advanceAll_ends {calls : List Call} (hcalls : ∀ call ∈ calls, call.Undisturbed) {w : Work}
    (h : Sound platform digests i balances w)
    (hleft : workLeft platform i balances w ≤ calls.length) :
    (∃ e, advanceAll platform digests i balances calls w = .error e ∧ Refused i balances e) ∨
    ∃ w', advanceAll platform digests i balances calls w = .ok w' ∧
      Finished platform digests i balances w' := by
  induction calls generalizing w with
  | nil =>
    refine Or.inr ⟨w, rfl, fun hnone => ?_, h⟩
    exact absurd hleft (Nat.not_le.mpr (workLeft_pos hnone))
  | cons call calls ih =>
    obtain ⟨hcall, hcalls⟩ := List.forall_mem_cons.mp hcalls
    rw [advanceAll, List.foldlM_cons, hcall.advance]
    by_cases hnone : w.result = none
    · rcases advanceStage_advances hcall.one_le h hnone with
        ⟨e, he, hrefused⟩ | ⟨w', hw', hsound, hless⟩
      · exact Or.inl ⟨e, by rw [he]; rfl, hrefused⟩
      · rw [hw']
        rw [List.length_cons] at hleft
        exact ih hcalls hsound (Nat.le_of_lt_succ (hless.trans_le hleft))
    · rw [advanceStage_complete hnone]
      refine ih hcalls h ?_
      rw [workLeft_eq_zero hnone]
      exact Nat.zero_le _

/-- The pages that are left are bounded by the number of accounts. -/
theorem workLeft_le (w : Work) :
    workLeft platform i balances w ≤ 5 * (holdings balances).length + 5 := by
  have hpositive : (positive balances).length ≤ (holdings balances).length :=
    List.length_filter_le _ _
  have hentries : (entries i balances).length ≤ (holdings balances).length := by
    have haccounts := (@accounts_shares_sublist i (supply i balances)
      (holdings balances)).length_le
    rwa [List.length_map, List.length_map] at haccounts
  rw [workLeft]
  cases hstage : w.stage with
  | balancesReady =>
    dsimp only
    omega
  | leaves cursor manifest =>
    have hrest := @Paging.length_rest_le _ _ _ (fun r : Holding => accountKey r.account) cursor
      (positive balances)
    dsimp only
    omega
  | tree manifest level cursor =>
    have hlevel := @levelHashes_anti platform i balances _ _ (Nat.zero_le (level - 1))
    have hcount : (levelHashes platform i balances 0).length = (entries i balances).length :=
      List.length_map _
    dsimp only
    omega
  | proofs manifest cursor =>
    dsimp only
    omega
  | complete manifest => exact Nat.zero_le _

/-! ### The snapshot in memory -/

/-- What `buildSnapshot` checks of an input before it computes anything. -/
structure Accepted (input : SnapshotInput) : Prop where
  checked : checkInput input = .ok ()
  quoteAvailable_lt : input.quoteAvailable < 2 ^ 256
  memeAvailable_lt : input.memeAvailable < 2 ^ 256

section InMemory

variable {payloadHash : SnapshotPayload → Bytes32} {input : SnapshotInput}

/-- Sorting the balances of a ledger lists them as the ledger does. -/
theorem sortBalances_eq {rows : List Holding} (hperm : rows.Perm (holdings balances)) :
    sortBalances rows = holdings balances := by
  have : Std.Total fun x y : Holding => x.account.toNat ≤ y.account.toNat :=
    ⟨fun x y => le_total _ _⟩
  have : IsTrans Holding fun x y => x.account.toNat ≤ y.account.toNat := ⟨fun x y z => le_trans⟩
  have hlisted : (holdings balances).Pairwise fun x y => x.account.toNat < y.account.toNat := by
    rw [holdings, List.pairwise_map]
    exact Table.listed_rows (fun a b => BitVec.eq_of_toNat_eq) balances
  have hperm' := (List.perm_insertionSort (fun x y : Holding => x.account.toNat ≤ y.account.toNat)
    rows).trans hperm
  refine List.Perm.eq_of_pairwise ?_ (List.pairwise_insertionSort _ rows)
    (hlisted.imp fun h => h.le) hperm'
  intro x y hx hy hxy hyx
  by_contra hne
  -- two rows of one account would not be strictly ordered
  rcases List.pairwise_iff_getElem.mp hlisted with hlt
  obtain ⟨m, hm, rfl⟩ := List.getElem_of_mem (hperm'.mem_iff.mp hx)
  obtain ⟨n, hn, rfl⟩ := List.getElem_of_mem hy
  rcases Nat.lt_trichotomy m n with h | rfl | h
  · exact absurd (hlt m n hm hn h) (Nat.not_lt.mpr hyx)
  · exact hne rfl
  · exact absurd (hlt n m hn hm h) (Nat.not_lt.mpr hxy)

/-- The dataset of a ledger. -/
def datasetOf (platform : Platform) (payloadHash : SnapshotPayload → Bytes32)
    (i : SnapshotContext) (balances : Table Address BalanceRow) : SnapshotDataset :=
  let payload : SnapshotPayload := {
    input := { i with
      exclusions := i.exclusions.insertionSort fun x y => x.toNat ≤ y.toNat
      balances := holdings balances }
    root := treeRoot (treeLevels platform (leaves platform i balances))
    quoteBudget := ((entries i balances).map Share.quoteAmount).sum
    memeBudget := ((entries i balances).map Share.memeAmount).sum
    eligibleSupply := supply i balances
    entries := proven platform i balances }
  { payload with dataHash := payloadHash payload }

/-- **What `buildSnapshot` computes of an input it accepts.** -/
theorem buildSnapshot_eq (h : Accepted input)
    (hperm : input.balances.Perm (holdings balances)) :
    buildSnapshot platform payloadHash input = (do
      throwIf (supply input.toSnapshotContext balances = 0) "no eligible holders"
      throwIf (input.burnMemeFees ∧ input.memeAvailable ≠ 0) "burn-mode Meme funding"
      throwIf (entries input.toSnapshotContext balances = []) "no distributable budget"
      return datasetOf platform payloadHash input.toSnapshotContext balances) := by
  rw [buildSnapshot, h.checked, ok_bind]
  dsimp only
  rw [sortBalances_eq hperm, uint, uint, throwIf, throwIf, throwIf, throwIf, throwIf,
    revertIf_neg h.quoteAvailable_lt.not_ge, revertIf_neg h.memeAvailable_lt.not_ge]
  rfl

theorem buildSnapshot_of_refused (h : Accepted input)
    (hperm : input.balances.Perm (holdings balances)) {e : JsError}
    (he : Refused input.toSnapshotContext balances e) :
    buildSnapshot platform payloadHash input = .error e := by
  rw [buildSnapshot_eq h hperm]
  rcases he with ⟨hsupply, rfl⟩ | ⟨hsupply, hburn, rfl⟩ | ⟨hbegun, hentries, rfl⟩
  · rw [throwIf, revertIf_pos hsupply]
    rfl
  · rw [throwIf, revertIf_neg hsupply, ok_bind, throwIf, revertIf_pos hburn]
    rfl
  · rw [throwIf, revertIf_neg hbegun.supply_ne, ok_bind, throwIf, revertIf_neg hbegun.burn,
      ok_bind, throwIf, revertIf_pos hentries]
    rfl

/-- The work and the dataset are the same snapshot. -/
structure SameSnapshot (w : Work) (manifest : SnapshotManifest) (dataset : SnapshotDataset) :
    Prop where
  complete : w.stage = .complete manifest
  root : manifest.root = dataset.root
  quoteBudget : manifest.quoteBudget = dataset.quoteBudget
  memeBudget : manifest.memeBudget = dataset.memeBudget
  eligibleSupply : manifest.eligibleSupply = dataset.eligibleSupply
  entryCount : manifest.entryCount = dataset.entries.length
  /-- The amounts and the proof of each account. -/
  proofs : ∀ account proof, w.proofs.lookup account = some proof ↔
    ∃ e ∈ dataset.entries, e.account = account ∧ proof = ⟨e.quoteAmount, e.memeAmount, e.proof⟩

/-- A complete work is the snapshot in memory. -/
theorem sameSnapshot_of_complete (h : Accepted input)
    (hperm : input.balances.Perm (holdings balances)) {w : Work} {manifest : SnapshotManifest}
    (hsound : Sound platform digests input.toSnapshotContext balances w)
    (hstage : w.stage = .complete manifest) :
    ∃ dataset, buildSnapshot platform payloadHash input = .ok dataset ∧
      SameSnapshot w manifest dataset := by
  rw [Sound, hstage] at hsound
  obtain rfl := hsound.manifest_eq
  refine ⟨datasetOf platform payloadHash input.toSnapshotContext balances, ?_, hstage, rfl, ?_, ?_,
    rfl, ?_, fun account proof => ?_⟩
  · rw [buildSnapshot_eq h hperm, throwIf, revertIf_neg hsound.begun.supply_ne, ok_bind, throwIf,
      revertIf_neg hsound.begun.burn, ok_bind, throwIf, revertIf_neg hsound.entries_ne]
    rfl
  · rw [fullManifest, metaOf, shares_positive]
    rfl
  · rw [fullManifest, metaOf, shares_positive]
    rfl
  · exact entryCount_metaOf_positive.trans length_proven.symm
  · have hproofs := hsound.proofs
    rw [List.take_of_length_le length_proven.le] at hproofs
    rw [hproofs, Table.lookup_foldl_insert nodup_proven, List.mem_map]
    constructor
    · rintro ⟨e, he, hrow⟩
      obtain ⟨rfl, rfl⟩ := Prod.mk.inj hrow
      exact ⟨e, he, rfl, rfl⟩
    · rintro ⟨e, he, rfl, rfl⟩
      exact ⟨e, he, rfl⟩

end InMemory

/-- The errors of a snapshot that cannot be. -/
def TreeError (e : JsError) : Prop :=
  e = ⟨"no eligible holders"⟩ ∨ e = ⟨"burn-mode Meme funding"⟩ ∨ e = ⟨"no distributable budget"⟩

theorem Refused.treeError {e : JsError} (h : Refused i balances e) : TreeError e := by
  rcases h with ⟨-, rfl⟩ | ⟨-, -, rfl⟩ | ⟨-, -, rfl⟩
  · exact Or.inl rfl
  · exact Or.inr (Or.inl rfl)
  · exact Or.inr (Or.inr rfl)

/-- **The sharded tree is the tree in memory**, for every ledger and every input `buildSnapshot`
accepts, and every sequence of pages and interruptions.

A complete work is the snapshot `buildSnapshot` gives. A call nothing is in the way of fails
only with an error of the snapshot, and then `buildSnapshot` fails with it. And wherever a work
has stopped, enough further calls, with pages of any sizes, end as `buildSnapshot` does: with
its snapshot, or with its error. -/
theorem sharded_eq_buildSnapshot (platform : Platform) (digests : Digests)
    (payloadHash : SnapshotPayload → Bytes32) (input : SnapshotInput)
    (balances : Table Address BalanceRow) (hperm : input.balances.Perm (holdings balances))
    (h : Accepted input) :
    (∀ w manifest, Reachable platform digests input.toSnapshotContext balances w →
      w.stage = .complete manifest → ∃ dataset,
        buildSnapshot platform payloadHash input = .ok dataset ∧
          SameSnapshot w manifest dataset) ∧
    (∀ w call e, Reachable platform digests input.toSnapshotContext balances w →
      Call.Undisturbed call →
        advanceShardedTree platform digests input.toSnapshotContext balances call w = .error e →
          TreeError e ∧ buildSnapshot platform payloadHash input = .error e) ∧
    ∀ w calls, Reachable platform digests input.toSnapshotContext balances w →
      (∀ call ∈ calls, Call.Undisturbed call) →
        5 * (holdings balances).length + 5 ≤ calls.length →
          Reducer.Agree (fun w dataset => ∃ manifest, SameSnapshot w manifest dataset)
            (advanceAll platform digests input.toSnapshotContext balances calls w)
            (buildSnapshot platform payloadHash input) := by
  refine ⟨fun w manifest hw hstage => ?_, fun w call e hw hcall he => ?_,
    fun w calls hw hcalls hlength => ?_⟩
  · exact sameSnapshot_of_complete h hperm (sound_of_reachable hw) hstage
  · have hrefused := refused_of_undisturbed hcall (sound_of_reachable hw) he
    exact ⟨hrefused.treeError, buildSnapshot_of_refused h hperm hrefused⟩
  · rcases advanceAll_ends hcalls (sound_of_reachable hw) ((workLeft_le w).trans hlength) with
      ⟨e, he, hrefused⟩ | ⟨w', hw', hdone, hsound⟩
    · rw [he, buildSnapshot_of_refused h hperm hrefused]
      exact rfl
    · rw [Work.result] at hdone
      cases hstage : w'.stage with
      | complete manifest =>
        obtain ⟨dataset, hbuild, hsame⟩ := @sameSnapshot_of_complete platform digests balances
          payloadHash input h hperm w' manifest hsound hstage
        rw [hw', hbuild]
        exact ⟨manifest, hsame⟩
      | _ =>
        rw [hstage] at hdone
        exact absurd rfl hdone

/-! ### A small ledger, and one above the cap of `buildSnapshot` -/

namespace Sample

/-- A digest that depends on the data, and a hash that does not. -/
def givenDigests : Digests := ⟨fun digest _ => digest, fun _ => 3⟩

/-- Three holders, the distributor among them. -/
def ledger : Table Address BalanceRow :=
  ((AList.insert 201 ⟨2, true⟩ ∅).insert 90 ⟨3, true⟩).insert 200 ⟨5, true⟩

/-- The context of the small snapshot. -/
def givenContext : SnapshotContext where
  chainId := 46630
  deploymentDigest := 1
  distributor := 90
  marketId := 32
  token := 2
  quote := 0
  round := 1
  snapshotBlock := 100
  snapshotBlockHash := 33
  registeredBlock := 100
  lastSnapshotBlock := 0
  totalSupply := 10
  quoteAvailable := 100
  memeAvailable := 0
  burnMemeFees := false
  exclusions := [0, 90, 2]

/-- The small snapshot: two holders, and the distributor, which has no share. -/
def givenInput : SnapshotInput := { givenContext with balances := [⟨200, 5⟩, ⟨201, 2⟩, ⟨90, 3⟩] }

theorem accepted : Accepted givenInput := by
  refine ⟨?_, by decide, by decide⟩
  have hok : (checkInput givenInput).isOk = true := by decide +kernel
  exact eq_ok_value hok

theorem balances_perm : givenInput.balances.Perm (holdings ledger) := by decide +kernel

/-- Pages of one, two and three rows in turn. -/
def paging : List Call := (List.replicate 7 [⟨1, true⟩, ⟨2, true⟩, ⟨3, true⟩]).flatten

/-- The holders of the capped ledger. -/
@[irreducible] def holderCount : ℕ := maxSnapshotHolders + 1

theorem holderCount_eq : holderCount = 100001 := by
  rw [holderCount]
  rfl

theorem holderCount_pos : 0 < holderCount := by
  rw [holderCount]
  exact Nat.succ_pos maxSnapshotHolders

/-- `'0x' || lpad(to_hex(n + 1000000), 40, '0')`. -/
@[irreducible] def holder (n : ℕ) : Address := BitVec.ofNat 160 (1000001 + n)

theorem toNat_holder {n : ℕ} (h : n < holderCount) : (holder n).toNat = 1000001 + n := by
  have hcount := holderCount_eq
  rw [holder, BitVec.toNat_ofNat, Nat.mod_eq_of_lt]
  omega

/-- A ledger of holders of one unit each. -/
def cappedLedger : Table Address BalanceRow where
  entries := (List.range holderCount).map fun n => ⟨holder n, ⟨1, true⟩⟩
  nodupKeys := by
    rw [List.NodupKeys, List.keys, List.map_map]
    refine List.Nodup.map_on ?_ List.nodup_range
    intro m hm n hn heq
    have hnat := congrArg BitVec.toNat heq
    dsimp only [Function.comp_apply] at hnat
    rw [toNat_holder (List.mem_range.mp hm), toNat_holder (List.mem_range.mp hn)] at hnat
    omega

/-- The snapshot of one holder more than a tree may have. -/
def cappedInput : SnapshotInput where
  toSnapshotContext := { givenContext with
    totalSupply := holderCount
    quoteAvailable := holderCount }
  balances := holdings cappedLedger

/-- What there is of each row. -/
theorem of_mem_holdings {r : Holding} (hr : r ∈ holdings cappedLedger) :
    r.balance = 1 ∧ r.account ∉ givenContext.exclusions := by
  obtain ⟨⟨a, row⟩, hmem, rfl⟩ := List.mem_map.mp hr
  have hentry := AList.mem_lookup_iff.mp (Table.mem_rows.mp hmem)
  obtain ⟨n, hn, heq⟩ := List.mem_map.mp hentry
  have hnat := toNat_holder (List.mem_range.mp hn)
  have ha : holder n = a := congrArg (fun e : Sigma fun _ : Address => BalanceRow => e.1) heq
  have hrow : ⟨1, true⟩ = row := congrArg (fun e : Sigma fun _ : Address => BalanceRow => e.2) heq
  refine ⟨by rw [← hrow], fun hexcluded => ?_⟩
  have hsmall : (givenContext.exclusions.all fun a => decide (a.toNat ≤ 90)) = true := by decide
  have hlt := of_decide_eq_true (List.all_eq_true.mp hsmall a hexcluded)
  rw [← ha] at hlt
  omega

theorem length_holdings : (holdings cappedLedger).length = holderCount := by
  rw [holdings, List.length_map, Table.rows, List.length_insertionSort, List.length_map]
  show ((List.range holderCount).map _).length = holderCount
  rw [List.length_map, List.length_range]

/-- Every row is eligible, and so is every unit. -/
theorem eligible_holdings :
    eligible cappedInput.toSnapshotContext (holdings cappedLedger) = holdings cappedLedger := by
  refine List.filter_eq_self.mpr fun r hr => decide_eq_true ?_
  obtain ⟨hbalance, hexcluded⟩ := of_mem_holdings hr
  exact ⟨hexcluded, by rw [hbalance]; exact Nat.one_pos⟩

theorem supply_capped : supply cappedInput.toSnapshotContext cappedLedger = holderCount := by
  have hones : (holdings cappedLedger).map Holding.balance
      = (holdings cappedLedger).map fun _ => 1 :=
    List.map_congr_left fun r hr => (of_mem_holdings hr).1
  rw [supply, eligibleSupply, eligible_holdings, hones, List.map_const', List.sum_replicate,
    length_holdings, Nat.nsmul_eq_mul, Nat.mul_one]

/-- Everyone gets the unit that is there for each. -/
theorem entries_capped : (entries cappedInput.toSnapshotContext cappedLedger).length
    = holderCount := by
  have hone : ∀ r ∈ (holdings cappedLedger).map (share cappedInput.toSnapshotContext holderCount),
      decide (r.quoteAmount + r.memeAmount > 0) = true := by
    rintro _ hr
    obtain ⟨row, hrow, rfl⟩ := List.mem_map.mp hr
    refine decide_eq_true (Nat.lt_add_right _ ?_)
    show 0 < holderCount * row.balance / holderCount
    rw [(of_mem_holdings hrow).1, Nat.mul_one, Nat.div_self holderCount_pos]
    exact Nat.one_pos
  rw [entries, shares, supply_capped, eligible_holdings, List.filter_eq_self.mpr hone,
    List.length_map, length_holdings]

end Sample

/-- The work of the small ledger ends with the dataset of its input, whatever the pages. -/
theorem sharded_eq_buildSnapshot_sample :
    Reducer.Agree (fun w dataset => ∃ manifest, SameSnapshot w manifest dataset)
      (advanceAll DocumentedV4.platform Sample.givenDigests Sample.givenContext Sample.ledger
        Sample.paging Work.start)
      (buildSnapshot DocumentedV4.platform (fun _ => 3) Sample.givenInput) := by
  refine (sharded_eq_buildSnapshot DocumentedV4.platform Sample.givenDigests (fun _ => 3)
    Sample.givenInput Sample.ledger Sample.balances_perm Sample.accepted).2.2 Work.start
      Sample.paging (Transition.Reachable.of_init rfl) ?_ (by decide)
  intro call hcall
  simp only [Sample.paging, List.mem_flatten, List.mem_replicate] at hcall
  obtain ⟨_, ⟨-, rfl⟩, hcall⟩ := hcall
  simp only [List.mem_cons, List.not_mem_nil, or_false] at hcall
  rcases hcall with rfl | rfl | rfl <;> exact ⟨by decide, by decide, rfl⟩

/-- **One holder above the cap**: `buildSnapshot` refuses the ledger, and the sharded tree
completes it. -/
theorem buildSnapshot_refuses_capped :
    Sample.cappedInput.balances = holdings Sample.cappedLedger ∧
      buildSnapshot DocumentedV4.platform (fun _ => 3) Sample.cappedInput
        = .error ⟨"snapshot input bound"⟩ ∧
      ∃ w manifest, advanceAll DocumentedV4.platform Sample.givenDigests
          Sample.cappedInput.toSnapshotContext Sample.cappedLedger
            (List.replicate (5 * Sample.holderCount + 5) ⟨1000, true⟩) Work.start = .ok w ∧
        w.stage = .complete manifest ∧ manifest.entryCount = 100001 := by
  refine ⟨rfl, ?_, ?_⟩
  · have hbound : Sample.cappedInput.balances.length > maxSnapshotHolders ∨
        Sample.cappedInput.exclusions.length > 1000 ∨ ¬ Sample.cappedInput.exclusions.Nodup := by
      refine Or.inl ?_
      show (holdings Sample.cappedLedger).length > maxSnapshotHolders
      rw [Sample.length_holdings, Sample.holderCount]
      exact Nat.lt_succ_self maxSnapshotHolders
    simp only [buildSnapshot, checkInput, throwIf]
    rw [revertIf_pos hbound]
    rfl
  · have hsupply := Sample.supply_capped
    have hentries := Sample.entries_capped
    have hcalls : ∀ call ∈ List.replicate (5 * Sample.holderCount + 5) (Call.mk 1000 true),
        Call.Undisturbed call := by
      intro call hcall
      obtain rfl := (List.mem_replicate.mp hcall).2
      exact ⟨by decide, by decide, rfl⟩
    have hleft := @workLeft_le DocumentedV4.platform Sample.cappedInput.toSnapshotContext
      Sample.cappedLedger Work.start
    rw [Sample.length_holdings] at hleft
    rcases advanceAll_ends hcalls
        (@sound_start DocumentedV4.platform Sample.givenDigests Sample.cappedInput.toSnapshotContext
          Sample.cappedLedger) (by rwa [List.length_replicate]) with
      ⟨e, -, hrefused⟩ | ⟨w, hw, hdone, hsound⟩
    · -- there is a supply, nothing is burned, and there are entries
      rcases hrefused with ⟨hzero, -⟩ | ⟨-, hburn, -⟩ | ⟨-, hnone, -⟩
      · rw [hsupply] at hzero
        exact absurd hzero Sample.holderCount_pos.ne'
      · exact absurd hburn.1 Bool.false_ne_true
      · rw [hnone] at hentries
        exact absurd hentries Sample.holderCount_pos.ne
    · rw [Work.result] at hdone
      cases hstage : w.stage with
      | complete manifest =>
        rw [Sound, hstage] at hsound
        refine ⟨w, manifest, hw, hstage, ?_⟩
        rw [hsound.manifest_eq]
        exact entryCount_metaOf_positive.trans (hentries.trans Sample.holderCount_eq)
      | _ =>
        rw [hstage] at hdone
        exact absurd rfl hdone

end ShardedTree

end Backend

end TickerGarden
