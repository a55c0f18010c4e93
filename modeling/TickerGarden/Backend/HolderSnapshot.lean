import Mathlib.Algebra.Order.BigOperators.Group.List
import Mathlib.Data.List.Sort
import TickerGarden.Backend.Decoded
import TickerGarden.Lib.MerkleTree
import TickerGarden.Platform

/-!
# Holder snapshots

`buildSnapshot` divides what a market has for its holders among the accounts that held its token
at a block: each gets its share of the eligible supply, rounded down, of both assets. The
entitlements are the leaves of a Merkle tree, whose root and sums are published, and every entry
of the dataset carries its proof.

Accounts, hashes and integers are texts in the source. Here they are the words they spell, so
that a text that spells none is not an input; what the source checks of the values is checked
here.
-/

namespace TickerGarden

open Checked

namespace Backend

namespace HolderSnapshot

/-- `MAX_SNAPSHOT_HOLDERS`. -/
def maxSnapshotHolders : ℕ := 100000

/-- A row of `balances`. -/
structure Holding where
  account : Address
  balance : ℕ
deriving DecidableEq

/-- `SnapshotContext`: an input without its balances. -/
structure SnapshotContext where
  chainId : ℤ
  deploymentDigest : Bytes32
  distributor : Address
  marketId : Bytes32
  token : Address
  quote : Address
  round : ℕ
  snapshotBlock : ℕ
  snapshotBlockHash : Bytes32
  registeredBlock : ℕ
  lastSnapshotBlock : ℕ
  totalSupply : ℕ
  quoteAvailable : ℕ
  memeAvailable : ℕ
  burnMemeFees : Bool
  exclusions : List Address
deriving DecidableEq

/-- What a snapshot is built of: its context, and the balances at its block. -/
structure SnapshotInput extends SnapshotContext where
  balances : List Holding
deriving DecidableEq

/-- What an account gets. -/
structure Share where
  account : Address
  balance : ℕ
  quoteAmount : ℕ
  memeAmount : ℕ
deriving DecidableEq

/-- The share of an account, with the path from its leaf to the root. -/
structure SnapshotEntry extends Share where
  proof : List Bytes32
deriving DecidableEq

/-- A dataset without its hash. -/
structure SnapshotPayload where
  input : SnapshotInput
  root : Bytes32
  quoteBudget : ℕ
  memeBudget : ℕ
  eligibleSupply : ℕ
  entries : List SnapshotEntry
deriving DecidableEq

/-- The dataset of a snapshot, with the hash of it. -/
structure SnapshotDataset extends SnapshotPayload where
  dataHash : Bytes32
deriving DecidableEq

/-- `uint`. -/
def uint (value bits : ℕ) : Except JsError ℕ := do
  throwIf (value ≥ 2 ^ bits) "invalid snapshot integer"
  return value

/-! ### Hashing -/

section Hashing

variable (platform : Platform)

/-- `DOMAIN`. -/
def domain : Bytes32 := platform.keccak256 (.text "TICKERGARDEN_HOLDER_WALLET_SNAPSHOT_LEAF_V1")

/-- `snapshotLeaf`. -/
def snapshotLeaf (i : SnapshotContext) (r : Share) : Bytes32 :=
  platform.keccak256 (.word (platform.keccak256 (.holderLeaf (domain platform) i.chainId.toNat
    i.distributor i.marketId i.round r.account r.quoteAmount r.memeAmount)))

/-- `pair`. -/
def pair (a b : Bytes32) : Bytes32 :=
  if a < b then platform.keccak256 (.pair a b) else platform.keccak256 (.pair b a)

/-- `proofRoot`. -/
def proofRoot (leaf : Bytes32) (proof : List Bytes32) : Bytes32 := proof.foldl (pair platform) leaf

theorem pair_comm (a b : Bytes32) : pair platform a b = pair platform b a := by
  rw [pair, pair]
  rcases lt_trichotomy a.toNat b.toNat with hlt | heq | hlt
  · rw [if_pos (BitVec.lt_def.mpr hlt), if_neg fun h => hlt.asymm (BitVec.lt_def.mp h)]
  · rw [BitVec.eq_of_toNat_eq heq]
  · rw [if_neg fun h => hlt.asymm (BitVec.lt_def.mp h), if_pos (BitVec.lt_def.mpr hlt)]

end Hashing

/-! ### Checking an input -/

/-- One turn of the loop over the balances: the sum, and the accounts seen. -/
def checkHolder (state : ℕ × List Address) (row : Holding) : Except JsError (ℕ × List Address) := do
  throwIf (row.account ∈ state.2 ∨ row.account = 0) "invalid or duplicate holder"
  let balance ← uint row.balance 256
  return (state.1 + balance, row.account :: state.2)

/-- `[...input.balances].sort`. -/
def sortBalances (balances : List Holding) : List Holding :=
  balances.insertionSort fun x y => x.account.toNat ≤ y.account.toNat

/-- The checks an input passes before anything is computed of it. -/
def checkInput (input : SnapshotInput) : Except JsError Unit := do
  throwIf (input.chainId ≤ 0 ∨ input.chainId > maxSafeInteger) "invalid snapshot chain"
  throwIf (input.deploymentDigest = 0 ∨ input.marketId = 0 ∨ input.snapshotBlockHash = 0)
    "invalid snapshot hash"
  throwIf (input.distributor = 0 ∨ input.token = 0 ∨ input.token = input.quote)
    "invalid snapshot assets"
  let height ← uint input.snapshotBlock 64
  let round ← uint input.round 64
  throwIf (round = 0) "invalid snapshot order"
  let registeredBlock ← uint input.registeredBlock 64
  throwIf (height < registeredBlock) "invalid snapshot order"
  let lastSnapshotBlock ← uint input.lastSnapshotBlock 64
  throwIf (height ≤ lastSnapshotBlock) "invalid snapshot order"
  throwIf (input.balances.length > maxSnapshotHolders ∨ input.exclusions.length > 1000 ∨
    ¬ input.exclusions.Nodup) "snapshot input bound"
  throwIf (0 ∉ input.exclusions ∨ input.distributor ∉ input.exclusions ∨
    input.token ∉ input.exclusions) "missing protocol exclusions"
  let (total, _) ← (sortBalances input.balances).foldlM checkHolder (0, [])
  let totalSupply ← uint input.totalSupply 256
  throwIf (total ≠ totalSupply) "snapshot supply mismatch"

/-! ### Dividing the budgets -/

/-- The accounts that get a share. -/
def eligible (i : SnapshotContext) (balances : List Holding) : List Holding :=
  balances.filter fun r => r.account ∉ i.exclusions ∧ r.balance > 0

/-- The eligible supply. -/
def eligibleSupply (i : SnapshotContext) (balances : List Holding) : ℕ :=
  ((eligible i balances).map Holding.balance).sum

/-- Its part of both assets, rounded down. -/
def share (i : SnapshotContext) (supply : ℕ) (r : Holding) : Share where
  account := r.account
  balance := r.balance
  quoteAmount := i.quoteAvailable * r.balance / supply
  memeAmount := i.memeAvailable * r.balance / supply

/-- The shares that are not nothing. -/
def shares (i : SnapshotContext) (supply : ℕ) (balances : List Holding) : List Share :=
  ((eligible i balances).map (share i supply)).filter fun r => r.quoteAmount + r.memeAmount > 0

variable (platform : Platform)

/-- The levels of the tree over some leaves. -/
def treeLevels (leaves : List Bytes32) : List (List Bytes32) :=
  MerkleTree.levels (pair platform) leaves.length leaves

/-- `levels.at(-1)![0]!`. -/
def treeRoot (levels : List (List Bytes32)) : Bytes32 := (levels.getLast?.bind List.head?).getD 0

/-- The shares with their proofs. -/
def proveEntries (levels : List (List Bytes32)) (entries : List Share) : List SnapshotEntry :=
  entries.mapIdx fun index r => { r with proof := MerkleTree.climb levels.dropLast index }

/-- **The dataset of a snapshot.** `payloadHash` is the hash of a payload written as canonical
JSON. -/
def buildSnapshot (payloadHash : SnapshotPayload → Bytes32) (input : SnapshotInput) :
    Except JsError SnapshotDataset := do
  checkInput input
  let i := input.toSnapshotContext
  let balances := sortBalances input.balances
  let supply := eligibleSupply i balances
  throwIf (supply = 0) "no eligible holders"
  let _quote ← uint i.quoteAvailable 256
  let meme ← uint i.memeAvailable 256
  throwIf (i.burnMemeFees ∧ meme ≠ 0) "burn-mode Meme funding"
  let entries := shares i supply balances
  throwIf (entries = []) "no distributable budget"
  let leaves := entries.map (snapshotLeaf platform i)
  let levels := treeLevels platform leaves
  let payload : SnapshotPayload := {
    input := { i with
      exclusions := i.exclusions.insertionSort fun x y => x.toNat ≤ y.toNat
      balances }
    root := treeRoot levels
    quoteBudget := (entries.map Share.quoteAmount).sum
    memeBudget := (entries.map Share.memeAmount).sum
    eligibleSupply := supply
    entries := proveEntries levels entries }
  return { payload with dataHash := payloadHash payload }

/-! ### What a dataset says -/

variable {platform : Platform} {payloadHash : SnapshotPayload → Bytes32} {input : SnapshotInput}
  {dataset : SnapshotDataset}

/-- The parts of a dataset, and what has been checked of its input. -/
structure Built (platform : Platform) (input : SnapshotInput) (dataset : SnapshotDataset) :
    Prop where
  checked : checkInput input = .ok ()
  supply : dataset.eligibleSupply
    = eligibleSupply input.toSnapshotContext (sortBalances input.balances)
  supply_ne : dataset.eligibleSupply ≠ 0
  burn : input.burnMemeFees = true → input.memeAvailable = 0
  entries : dataset.entries = proveEntries (treeLevels platform
    ((shares input.toSnapshotContext dataset.eligibleSupply (sortBalances input.balances)).map
      (snapshotLeaf platform input.toSnapshotContext)))
    (shares input.toSnapshotContext dataset.eligibleSupply (sortBalances input.balances))
  entries_ne : shares input.toSnapshotContext dataset.eligibleSupply
    (sortBalances input.balances) ≠ []
  root : dataset.root = treeRoot (treeLevels platform
    ((shares input.toSnapshotContext dataset.eligibleSupply (sortBalances input.balances)).map
      (snapshotLeaf platform input.toSnapshotContext)))
  quoteBudget : dataset.quoteBudget = ((shares input.toSnapshotContext dataset.eligibleSupply
    (sortBalances input.balances)).map Share.quoteAmount).sum
  memeBudget : dataset.memeBudget = ((shares input.toSnapshotContext dataset.eligibleSupply
    (sortBalances input.balances)).map Share.memeAmount).sum

theorem built_of_buildSnapshot (h : buildSnapshot platform payloadHash input = .ok dataset) :
    Built platform input dataset := by
  simp only [buildSnapshot, uint, bind_eq_ok, revertIf_eq_ok, pure_eq_ok, Except.ok.injEq] at h
  obtain ⟨_, hchecked, _, hsupply, _, -, meme, ⟨-, -, rfl⟩, _, hburn, _, hne, rfl⟩ := h
  exact {
    checked := hchecked
    supply := rfl
    supply_ne := hsupply
    burn := fun hmode => by
      by_contra hmeme
      exact hburn ⟨hmode, hmeme⟩
    entries := rfl
    entries_ne := hne
    root := rfl
    quoteBudget := rfl
    memeBudget := rfl }

/-- What the loop over the balances lets pass. -/
theorem of_checkHolders {rows : List Holding} {state state' : ℕ × List Address}
    (h : rows.foldlM checkHolder state = .ok state') :
    (rows.map Holding.account).Nodup ∧ ∀ r ∈ rows, r.account ≠ 0 ∧ r.account ∉ state.2 := by
  induction rows generalizing state with
  | nil => exact ⟨List.nodup_nil, fun _ hr => absurd hr List.not_mem_nil⟩
  | cons r rows ih =>
    rw [List.foldlM_cons, bind_eq_ok] at h
    obtain ⟨next, hrow, hrows⟩ := h
    simp only [checkHolder, bind_eq_ok, revertIf_eq_ok, not_or, pure_eq_ok, Except.ok.injEq] at hrow
    obtain ⟨_, ⟨hnew, hzero⟩, _, -, rfl⟩ := hrow
    obtain ⟨hnodup, hall⟩ := ih hrows
    dsimp only at hall
    refine ⟨?_, ?_⟩
    · rw [List.map_cons, List.nodup_cons]
      refine ⟨?_, hnodup⟩
      rw [List.mem_map]
      rintro ⟨x, hx, heq⟩
      exact (hall x hx).2 (List.mem_cons.mpr (Or.inl heq))
    · rintro x hx
      rcases List.mem_cons.mp hx with rfl | hx
      · exact ⟨hzero, hnew⟩
      · exact ⟨(hall x hx).1, fun hmem => (hall x hx).2 (List.mem_cons_of_mem _ hmem)⟩

/-- What an input that passes the checks is like. -/
structure CheckedInput (input : SnapshotInput) : Prop where
  chainId_pos : 0 < input.chainId
  marketId_ne : input.marketId ≠ 0
  round_ne : input.round ≠ 0
  round_lt : input.round < 2 ^ 64
  distributor_mem : input.distributor ∈ input.exclusions
  token_mem : input.token ∈ input.exclusions
  accounts_nodup : ((sortBalances input.balances).map Holding.account).Nodup
  account_ne : ∀ r ∈ sortBalances input.balances, r.account ≠ 0

theorem checkedInput_of_checkInput (h : checkInput input = .ok ()) : CheckedInput input := by
  simp only [checkInput, uint, bind_eq_ok, revertIf_eq_ok, pure_eq_ok, Except.ok.injEq, not_or,
    not_not] at h
  obtain ⟨_, hchain, _, hhash, _, -, _, -, _, ⟨_, hlt, rfl⟩, _, hround, _, -, _, -, _, -, _, -, _,
    -, _, hexclusions, state, hloop, -⟩ := h
  obtain ⟨hnodup, hall⟩ := of_checkHolders hloop
  exact {
    chainId_pos := Int.not_le.mp hchain.1
    marketId_ne := hhash.2.1
    round_ne := hround
    round_lt := Nat.not_le.mp hlt
    distributor_mem := hexclusions.2.1
    token_mem := hexclusions.2.2
    accounts_nodup := hnodup
    account_ne := fun r hr => (hall r hr).1 }

/-! ### Shares -/

section Shares

variable {i : SnapshotContext} {supply : ℕ} {balances : List Holding}

theorem mem_shares {r : Share} : r ∈ shares i supply balances ↔
    (∃ b ∈ balances, b.account ∉ i.exclusions ∧ 0 < b.balance ∧ r = share i supply b) ∧
      0 < r.quoteAmount + r.memeAmount := by
  simp only [shares, eligible, List.mem_filter, List.mem_map, decide_eq_true_eq]
  constructor
  · rintro ⟨⟨b, ⟨hb, hexcluded, hpos⟩, rfl⟩, hamount⟩
    exact ⟨⟨b, hb, hexcluded, hpos, rfl⟩, hamount⟩
  · rintro ⟨⟨b, hb, hexcluded, hpos, rfl⟩, hamount⟩
    exact ⟨⟨b, ⟨hb, hexcluded, hpos⟩, rfl⟩, hamount⟩

/-- The accounts of the shares are accounts of the balances, in their order. -/
theorem accounts_shares_sublist :
    ((shares i supply balances).map Share.account).Sublist (balances.map Holding.account) := by
  have hfilter : ((shares i supply balances).map Share.account).Sublist
      (((eligible i balances).map (share i supply)).map Share.account) :=
    List.filter_sublist.map _
  rw [List.map_map] at hfilter
  exact hfilter.trans (List.filter_sublist.map Holding.account)

/-- Parts rounded down, times the whole. -/
theorem sum_div_mul_le (available whole : ℕ) (weights : List ℕ) :
    (weights.map fun b => available * b / whole).sum * whole ≤ available * weights.sum := by
  induction weights with
  | nil => exact Nat.le_of_eq (Nat.zero_mul whole)
  | cons b weights ih =>
    rw [List.map_cons, List.sum_cons, List.sum_cons, Nat.add_mul, Nat.mul_add]
    exact Nat.add_le_add (Nat.div_mul_le_self _ _) ih

/-- **Parts rounded down do not add up to more than there is.** -/
theorem sum_div_le (available : ℕ) {weights : List ℕ} (hpos : weights.sum ≠ 0) :
    (weights.map fun b => available * b / weights.sum).sum ≤ available :=
  Nat.le_of_mul_le_mul_right (sum_div_mul_le available weights.sum weights)
    (Nat.pos_of_ne_zero hpos)

/-- Leaving out rows does not add to a sum. -/
theorem sum_filter_le {α : Type} (p : α → Bool) (f : α → ℕ) (l : List α) :
    ((l.filter p).map f).sum ≤ (l.map f).sum :=
  (List.filter_sublist.map f).sum_le_sum fun _ _ => Nat.zero_le _

/-- The shares are within the budgets. -/
theorem sum_quoteAmount_le (hsupply : eligibleSupply i balances ≠ 0) :
    ((shares i (eligibleSupply i balances) balances).map Share.quoteAmount).sum
      ≤ i.quoteAvailable := by
  refine (sum_filter_le _ _ _).trans ?_
  rw [List.map_map]
  have hle := sum_div_le i.quoteAvailable hsupply
  rw [List.map_map] at hle
  exact hle

theorem sum_memeAmount_le (hsupply : eligibleSupply i balances ≠ 0) :
    ((shares i (eligibleSupply i balances) balances).map Share.memeAmount).sum
      ≤ i.memeAvailable := by
  refine (sum_filter_le _ _ _).trans ?_
  rw [List.map_map]
  have hle := sum_div_le i.memeAvailable hsupply
  rw [List.map_map] at hle
  exact hle

end Shares

/-! ### Proofs -/

theorem length_proveEntries (levels : List (List Bytes32)) (entries : List Share) :
    (proveEntries levels entries).length = entries.length :=
  List.length_mapIdx

theorem getElem?_proveEntries (levels : List (List Bytes32)) (entries : List Share) (i : ℕ) :
    (proveEntries levels entries)[i]? = entries[i]?.map fun r =>
      { r with proof := MerkleTree.climb levels.dropLast i } :=
  List.getElem?_mapIdx

/-- The entries are the shares. -/
theorem map_toShare_proveEntries (levels : List (List Bytes32)) (entries : List Share) :
    (proveEntries levels entries).map SnapshotEntry.toShare = entries := by
  refine List.ext_getElem? fun i => ?_
  rw [List.getElem?_map, getElem?_proveEntries, Option.map_map]
  cases entries[i]? <;> rfl

/-- **The proof of an entry leads from its leaf to the root.** -/
theorem proofRoot_of_mem {i : SnapshotContext} {entries : List Share} {e : SnapshotEntry}
    (he : e ∈ proveEntries (treeLevels platform (entries.map (snapshotLeaf platform i))) entries) :
    proofRoot platform (snapshotLeaf platform i e.toShare) e.proof
      = treeRoot (treeLevels platform (entries.map (snapshotLeaf platform i))) := by
  obtain ⟨n, hn⟩ := List.mem_iff_getElem?.mp he
  rw [getElem?_proveEntries, Option.map_eq_some_iff] at hn
  obtain ⟨r, hr, rfl⟩ := hn
  have hleaf : (entries.map (snapshotLeaf platform i))[n]? = some (snapshotLeaf platform i r) := by
    rw [List.getElem?_map, hr]
    rfl
  have hroot := MerkleTree.foldl_climb (pair_comm platform) (Nat.le_succ _) hleaf
  rw [MerkleTree.root] at hroot
  rw [treeRoot, treeLevels, hroot]
  rfl

end HolderSnapshot

end Backend

end TickerGarden
