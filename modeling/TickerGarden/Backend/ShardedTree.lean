import TickerGarden.Backend.HolderSnapshot
import TickerGarden.Backend.SnapshotLedger

/-!
# The sharded holder tree

`advanceShardedTree` computes a holder snapshot from the balances of a finished ledger without
ever having all of them in memory. The rows of the database are the state: the entries with
their leaves are written first, in pages of accounts, then one level of the tree after
the other, in pages of nodes, and at last the proofs, in pages of leaves. Every call is one
transaction and does one page.

The work is at a `Stage`: its phase, with the columns of the work row this phase reads. The
nodes are a table for each level, since the level is part of their key.
-/

namespace TickerGarden

open Checked

namespace Backend

namespace ShardedTree

open HolderSnapshot SnapshotLedger

/-- The manifest while the leaves are written. -/
structure Meta where
  eligibleSupply : ℕ
  entryCount : ℕ
  quoteBudget : ℕ
  memeBudget : ℕ
  balancesDigest : Bytes32
deriving DecidableEq

/-- A manifest without its hash. -/
structure ManifestBody extends Meta where
  input : SnapshotContext
  root : Bytes32
deriving DecidableEq

/-- The header of a dataset, with the hash of it. -/
structure SnapshotManifest extends ManifestBody where
  dataHash : Bytes32
deriving DecidableEq

/-- A row of `holder_snapshot_nodes`: leaves have a payload. -/
structure Node where
  hash : Bytes32
  payload : Option Share
deriving DecidableEq

/-- The payload of a row of `holder_reward_wallet_proofs`. -/
structure WalletProof where
  quoteAmount : ℕ
  memeAmount : ℕ
  proof : List Bytes32
deriving DecidableEq

/-- Where a work is. -/
inductive Stage
  | balancesReady
  | leaves (verifyCursor : WithBot ℕ) (manifest : Meta)
  | tree (manifest : Meta) (treeLevel treeCursor : ℕ)
  | proofs (manifest : SnapshotManifest) (proofCursor : ℕ)
  | complete (manifest : SnapshotManifest)

/-- The work on a tree: its stage, and the rows that were written so far. -/
structure Work where
  stage : Stage
  /-- The nodes of each level, by their ordinals. -/
  nodes : ℕ → Table ℕ Node
  /-- The row of `holder_reward_datasets`, and whether its header is verified. -/
  dataset : Option SnapshotManifest
  verifiedHeader : Bool
  proofs : Table Address WalletProof

/-- The hashes that are taken of texts. -/
structure Digests where
  /-- `sha256` of a digest and a row. -/
  balance : Bytes32 → Holding → Bytes32
  /-- `manifestHash`. -/
  manifest : ManifestBody → Bytes32

/-- What a call is given, and what it finds. -/
structure Call where
  pageSize : ℕ
  anchored : Bool
deriving DecidableEq

/-- The rows of the ledger, in the order of their accounts. -/
def holdings (balances : Table Address BalanceRow) : List Holding :=
  (balances.rows BitVec.toNat).map fun r => ⟨r.1, r.2.balance⟩

section Machine

variable (platform : Platform) (digests : Digests) (i : SnapshotContext)
  (balances : Table Address BalanceRow)

/-! ### The entries -/

/-- The eligible supply is summed up in one query. -/
def beginLeaves (w : Work) : Except JsError Work := do
  let supply := (((holdings balances).filter fun r => r.account ∉ i.exclusions).map
    Holding.balance).sum
  throwIf (supply = 0) "no eligible holders"
  throwIf (i.burnMemeFees ∧ i.memeAvailable ≠ 0) "burn-mode Meme funding"
  return { w with stage := .leaves ⊥ ⟨supply, 0, 0, 0, 0⟩ }

/-- One turn of the loop over the rows of a page: the manifest, and the entries so far. -/
def leafRow (acc : Meta × List (ℕ × Node)) (row : Holding) : Meta × List (ℕ × Node) :=
  let manifest := { acc.1 with balancesDigest := digests.balance acc.1.balancesDigest row }
  if row.account ∈ i.exclusions then (manifest, acc.2)
  else
    let r := share i manifest.eligibleSupply row
    if r.quoteAmount + r.memeAmount = 0 then (manifest, acc.2)
    else ({ manifest with
      entryCount := manifest.entryCount + 1
      quoteBudget := manifest.quoteBudget + r.quoteAmount
      memeBudget := manifest.memeBudget + r.memeAmount },
      acc.2 ++ [(manifest.entryCount, ⟨snapshotLeaf platform i r, some r⟩)])

/-- Rows are inserted at a level. -/
def insertNodes (nodes : ℕ → Table ℕ Node) (level : ℕ) (rows : List (ℕ × Node)) :
    Except JsError (ℕ → Table ℕ Node) := do
  let table ← rows.foldlM
    (Table.insertNew ⟨"duplicate key value violates unique constraint"⟩) (nodes level)
  return Function.update nodes level table

/-- A page of accounts that hold something. -/
def leavesPage (pageSize : ℕ) (verifyCursor : WithBot ℕ) (manifest : Meta) (w : Work) :
    Except JsError Work := do
  let rows := Paging.page (fun r : Holding => accountKey r.account) pageSize verifyCursor
    ((holdings balances).filter fun r => r.balance > 0)
  let (manifest, entries) := rows.foldl (leafRow platform digests i) (manifest, [])
  let nodes ← insertNodes w.nodes 0 entries
  throwIf (rows.length < pageSize ∧ manifest.entryCount = 0) "no distributable budget"
  let cursor := Paging.next (fun r : Holding => accountKey r.account) verifyCursor rows
  return { w with
    nodes
    stage := if rows.length < pageSize then .tree manifest 1 0 else .leaves cursor manifest }

/-! ### The tree -/

/-- The nodes of a page are paired. A last one goes up as it is. -/
def pairRows : List (ℕ × Node) → List (ℕ × Node)
  | [] => []
  | [(ordinal, a)] => [(ordinal / 2, ⟨a.hash, none⟩)]
  | (ordinal, a) :: (_, b) :: rows =>
    (ordinal / 2, ⟨pair platform a.hash b.hash, none⟩) :: pairRows rows

/-- The first rows of a level from an ordinal on. -/
def nodePage (nodes : Table ℕ Node) (first limit : ℕ) : List (ℕ × Node) :=
  ((nodes.rows id).filter fun r => first ≤ r.1).take limit

/-- The root is known, and the manifest written. -/
def beginProofs (manifest : Meta) (treeLevel : ℕ) (w : Work) : Except JsError Work :=
  match (w.nodes (treeLevel - 1)).lookup 0 with
  | none => throwJs "Cannot read properties of undefined (reading 'hash')"
  | some node =>
    let body : ManifestBody := { manifest with input := i, root := node.hash }
    let full : SnapshotManifest := { body with dataHash := digests.manifest body }
    .ok { w with
      dataset := some (w.dataset.getD full)
      stage := .proofs full 0 }

/-- A page of nodes of the next level. -/
def treePage (pageSize : ℕ) (manifest : Meta) (treeLevel treeCursor : ℕ) (w : Work) :
    Except JsError Work := do
  let divisor := 2 ^ (treeLevel - 1)
  let count := (manifest.entryCount + divisor - 1) / divisor
  if count = 1 then beginProofs digests i manifest treeLevel w
  else
    let rows := nodePage (w.nodes (treeLevel - 1)) (treeCursor * 2) (pageSize * 2)
    let output := pairRows platform rows
    let nodes ← insertNodes w.nodes treeLevel output
    let done := treeCursor + output.length
    return { w with
      nodes
      stage := if done * 2 ≥ count then .tree manifest (treeLevel + 1) 0
        else .tree manifest treeLevel done }

/-! ### The proofs -/

/-- The siblings of a leaf, level by level. They are looked up among the nodes the page has asked
for, which are these. -/
def walk (nodes : ℕ → Table ℕ Node) : ℕ → (index count level : ℕ) → Except JsError (List Bytes32)
  | 0, _, _, _ => .ok []
  | fuel + 1, index, count, level =>
    if count > 1 then do
      let sibling := if index % 2 = 0 then index + 1 else index - 1
      let found ← if sibling < count then
          match (nodes level).lookup sibling with
          | some node => .ok [node.hash]
          | none => throwJs "snapshot tree incomplete"
        else .ok []
      let above ← walk nodes fuel (index / 2) ((count + 1) / 2) (level + 1)
      return found ++ above
    else .ok []

/-- The row of a leaf. -/
def proveLeaf (manifest : SnapshotManifest) (nodes : ℕ → Table ℕ Node) (leaf : ℕ × Node) :
    Except JsError (Address × WalletProof) := do
  let proof ← walk nodes manifest.entryCount leaf.1 manifest.entryCount 0
  throwIf (proofRoot platform leaf.2.hash proof ≠ manifest.root) "snapshot proof mismatch"
  match leaf.2.payload with
  | none => throwJs "Cannot read properties of null (reading 'account')"
  | some r => return (r.account, ⟨r.quoteAmount, r.memeAmount, proof⟩)

/-- A page of proofs. After the last one the snapshot is complete. -/
def proofsPage (pageSize : ℕ) (manifest : SnapshotManifest) (proofCursor : ℕ) (w : Work) :
    Except JsError Work := do
  let leaves := nodePage (w.nodes 0) proofCursor pageSize
  let entries ← leaves.mapM (proveLeaf platform manifest w.nodes)
  let proofs := entries.foldl (fun proofs r => proofs.insert r.1 r.2) w.proofs
  let cursor := proofCursor + leaves.length
  if cursor < manifest.entryCount then
    return { w with proofs, stage := .proofs manifest cursor }
  else do
    throwIf (proofs.entries.length ≠ manifest.entryCount) "snapshot proof index incomplete"
    throwIf (w.dataset ≠ some manifest) "snapshot dataset changed before publication"
    return { w with proofs, verifiedHeader := true, stage := .complete manifest }

/-! ### The machine -/

/-- The page a work is at. -/
def advanceStage (pageSize : ℕ) (w : Work) : Except JsError Work :=
  match w.stage with
  | .balancesReady => beginLeaves i balances w
  | .leaves verifyCursor manifest =>
    leavesPage platform digests i balances pageSize verifyCursor manifest w
  | .tree manifest treeLevel treeCursor =>
    treePage platform digests i pageSize manifest treeLevel treeCursor w
  | .proofs manifest proofCursor => proofsPage platform pageSize manifest proofCursor w
  | .complete _ => .ok w

/-- The result of a work, once there is one. -/
def Work.result (w : Work) : Option SnapshotManifest :=
  match w.stage with
  | .complete manifest => some manifest
  | _ => none

/-- One page of the work. -/
def advanceShardedTree (call : Call) (w : Work) :
    Except JsError (Option SnapshotManifest × Work) := do
  throwIf (call.pageSize < 1 ∨ call.pageSize > 1000) "invalid snapshot page size"
  throwIf (call.anchored = false) "snapshot generation or anchor changed"
  let w ← advanceStage platform digests i balances call.pageSize w
  return (w.result, w)

/-- The work of a ledger whose balances are ready. -/
def Work.start : Work where
  stage := .balancesReady
  nodes _ := ∅
  dataset := none
  verifiedHeader := false
  proofs := ∅

/-- The states of a work: it goes to the next page, or a call fails or is interrupted and
leaves everything as it was. -/
inductive Step : Work → Unit → Work → Prop
  | page (call : Call) {w w' : Work} {result : Option SnapshotManifest}
      (h : advanceShardedTree platform digests i balances call w = .ok (result, w')) : Step w () w'
  | interrupted (w : Work) : Step w () w

/-- The states a work can be in. -/
abbrev Reachable : Work → Prop :=
  Transition.Reachable (Step platform digests i balances) (· = Work.start)

/-- Call after call. -/
def advanceAll (calls : List Call) (w : Work) : Except JsError Work :=
  calls.foldlM (fun w call => do
    let (_, w) ← advanceShardedTree platform digests i balances call w
    return w) w

end Machine

end ShardedTree

end Backend

end TickerGarden
