import TickerGarden.Backend.Decoded
import TickerGarden.Lib.BlockTree
import TickerGarden.Lib.Table
import TickerGarden.Lib.Transition

/-!
# The common ancestor after a reorg

The worker of the chain stores blocks as it ingests the chain, range by range. A range is
**dense**, of at most ten blocks, which are all stored, or **sparse**, of at most 50000, and
then only its two ends and the blocks with logs are stored. When the last stored block is no
longer on the chain, the worker looks for the last block that is, height by height down to a
bounded depth, and rewinds what it has stored to that one.

The search goes through heights, not through what is stored, so that it finds a common
ancestor exactly when one is stored that close: `TickerGarden.Backend.ReorgRecovery.recovers_iff`.
Above a long sparse range a reorg of a single block is one that it does not recover from,
`TickerGarden.Backend.ReorgRecovery.sparse_range_not_recovered`.

Blocks are those of a tree, by their hashes. A range, or a search, reads one chain of each
provider. The logs, the sources and the coverage of a range are left out, but for the heights
that have logs.
-/

namespace TickerGarden

open Checked

namespace Backend

namespace ReorgRecovery

variable {H : Type} [DecidableEq H] (B : BlockTree H)

/-! ### The providers -/

/-- The tips of the chains that the providers are on. -/
structure Providers (H : Type) where
  primary : H
  secondary : Option H

/-- `block`. -/
def block (tip : H) (number : ℕ) : Except JsError H :=
  match B.blockAt tip number with
  | none => throwJs "RPC block was not found"
  | some h => .ok h

/-- `consensusBlock`. -/
def consensusBlock (rpc : Providers H) (number : ℕ) : Except JsError H := do
  let first ← block B rpc.primary number
  match rpc.secondary with
  | none => return first
  | some tip =>
    let second ← block B tip number
    throwIf (first ≠ second) "RPC providers disagree on block identity"
    return first

/-- A header, with its height. -/
def header (rpc : Providers H) (number : ℕ) : Except JsError (ℕ × H) := do
  let h ← consensusBlock B rpc number
  return (number, h)

/-! ### Ingestion -/

/-- What is stored: the canonical blocks of `chain_blocks`, of which there is one at a height,
and the checkpoint. -/
structure Journal (H : Type) where
  chainBlocks : Table ℕ H
  nextBlock : ℕ
  lastBlockHash : Option H

/-- Blocks are stored as the canonical ones. -/
def store (stored : Table ℕ H) (headers : List (ℕ × H)) : Table ℕ H :=
  headers.foldl (fun m e => m.insert e.1 e.2) stored

/-- The parent of the first block of a range is the last block of the one before. -/
def follows (j : Journal H) (first : H) : Bool :=
  j.lastBlockHash.all fun last => decide (B.parent first = last)

/-- **`ingestFinalizedSparseRange`**, from the checkpoint on: `logBlocks` are the heights that
have logs. -/
def ingestFinalizedSparseRange (rpc : Providers H) (isFinalized : H → Bool) (j : Journal H)
    (toBlock : ℕ) (logBlocks : List ℕ) : Except JsError (Journal H) := do
  throwIf (toBlock < j.nextBlock ∨ toBlock - j.nextBlock ≥ 50000)
    "sparse ingestion range must contain 1 to 50000 blocks"
  throwIf (rpc.secondary = none) "sparse ingestion requires two RPC providers"
  throwIf (∃ n ∈ logBlocks, n < j.nextBlock ∨ toBlock < n) "RPC returned an invalid sparse range log"
  let first ← consensusBlock B rpc j.nextBlock
  let last ← consensusBlock B rpc toBlock
  let logged ← logBlocks.mapM (header B rpc)
  let headers := (j.nextBlock, first) :: (toBlock, last) :: logged
  throwIf (∃ e ∈ headers, isFinalized e.2 = false) "sparse range includes a non-finalized block"
  throwIf (follows B j first = false) "stored checkpoint parent hash mismatch"
  throwIf (∃ e ∈ headers, (j.chainBlocks.lookup e.1).any fun h => decide (h ≠ e.2))
    "sparse range conflicts with stored canonical block"
  return { chainBlocks := store j.chainBlocks headers, nextBlock := toBlock + 1,
           lastBlockHash := some last }

/-- **`ingestCanonicalRange`**, from the checkpoint on. A canonical block at the height of
another one is no longer canonical. -/
def ingestCanonicalRange (rpc : Providers H) (isFinalized : H → Bool) (j : Journal H)
    (toBlock : ℕ) : Except JsError (Journal H) := do
  throwIf (toBlock < j.nextBlock ∨ toBlock - j.nextBlock ≥ 10)
    "ingestion range must contain 1 to 10 blocks"
  let first ← consensusBlock B rpc j.nextBlock
  let last ← consensusBlock B rpc toBlock
  let headers ← (List.range' j.nextBlock (toBlock + 1 - j.nextBlock)).mapM (header B rpc)
  throwIf (∃ e ∈ headers, isFinalized e.2 = false) "range includes a non-finalized block"
  throwIf (¬headers.IsChain fun a b => B.parent b.2 = a.2) "RPC range parent hash mismatch"
  throwIf (follows B j first = false) "stored checkpoint parent hash mismatch"
  return { chainBlocks := store j.chainBlocks headers, nextBlock := toBlock + 1,
           lastBlockHash := some last }

/-! ### Recovery -/

/-- The loop of `findCommonAncestor`, from a height down to the floor. -/
def search (rpc : Providers H) (stored : Table ℕ H) (floor : ℕ) : ℕ → Except JsError H
  | 0 => do
    let candidate ← consensusBlock B rpc 0
    if stored.lookup 0 = some candidate then return candidate
    else throwJs "common ancestor was not found within bounded depth"
  | n + 1 => do
    let candidate ← consensusBlock B rpc (n + 1)
    if stored.lookup (n + 1) = some candidate then return candidate
    else if floor ≤ n then search rpc stored floor n
    else throwJs "common ancestor was not found within bounded depth"

/-- **`findCommonAncestor`.** -/
def findCommonAncestor (rpc : Providers H) (stored : Table ℕ H) (fromBlock maxDepth : ℕ) :
    Except JsError H := do
  throwIf (maxDepth > 1000) "common ancestor search bounds are invalid"
  search B rpc stored (fromBlock - maxDepth) fromBlock

/-- The depth the worker searches: to the activation, or a thousand blocks. -/
def maximumDepth (activationBlock : ℕ) (j : Journal H) : ℕ :=
  min (j.nextBlock - 1 - activationBlock) 1000

/-- `rewindCanonicalChain`. -/
def rewindCanonicalChain (activationBlock : ℕ) (j : Journal H) (ancestor : H) :
    Except JsError (Journal H) := do
  throwIf (B.number ancestor < activationBlock) "common ancestor is before deployment activation"
  throwIf (j.chainBlocks.lookup (B.number ancestor) ≠ some ancestor)
    "common ancestor is not canonical in storage"
  return { chainBlocks := Table.restrict (· ≤ B.number ancestor) j.chainBlocks
           nextBlock := B.number ancestor + 1
           lastBlockHash := some ancestor }

/-- `recoverReorg`. -/
def recoverReorg (activationBlock : ℕ) (rpc : Providers H) (j : Journal H) :
    Except JsError (Journal H) := do
  let ancestor ← findCommonAncestor B rpc j.chainBlocks (j.nextBlock - 1)
    (maximumDepth activationBlock j)
  rewindCanonicalChain B activationBlock j ancestor

/-- **One step** of the worker. The providers are on any chains in each. -/
inductive Step (activationBlock : ℕ) : Journal H → Unit → Journal H → Prop
  | sparse {j j' : Journal H} (rpc : Providers H) (isFinalized : H → Bool) (toBlock : ℕ)
    (logBlocks : List ℕ)
    (h : ingestFinalizedSparseRange B rpc isFinalized j toBlock logBlocks = .ok j') :
    Step activationBlock j () j'
  | dense {j j' : Journal H} (rpc : Providers H) (isFinalized : H → Bool) (toBlock : ℕ)
    (h : ingestCanonicalRange B rpc isFinalized j toBlock = .ok j') : Step activationBlock j () j'
  | recovered {j j' : Journal H} (rpc : Providers H)
    (h : recoverReorg B activationBlock rpc j = .ok j') : Step activationBlock j () j'

/-- The journal before anything was ingested. -/
def Journal.initial (activationBlock : ℕ) : Journal H where
  chainBlocks := ∅
  nextBlock := activationBlock
  lastBlockHash := none

/-- The journals a run leads to. -/
def Reachable (activationBlock : ℕ) : Journal H → Prop :=
  Transition.Reachable (Step B activationBlock) fun j => j = .initial activationBlock

/-! ### What a journal knows of its chain -/

/-- **A journal is of a chain**: its blocks are on it, and it has the tip and the block of the
activation. -/
structure IngestedOn (activationBlock : ℕ) (j : Journal H) (old : H) : Prop where
  next : j.nextBlock = B.number old + 1
  last : j.lastBlockHash = some old
  tip : j.chainBlocks.lookup (B.number old) = some old
  activation : activationBlock ∈ j.chainBlocks
  stored : ∀ n h, j.chainBlocks.lookup n = some h → activationBlock ≤ n ∧ B.blockAt old n = some h

variable {B} {rpc : Providers H} {j j' : Journal H} {old new h : H} {n fork activationBlock : ℕ}

omit [DecidableEq H] in
theorem block_eq_ok {tip : H} : block B tip n = .ok h ↔ B.blockAt tip n = some h := by
  rw [block]
  cases B.blockAt tip n with
  | none => exact iff_of_false (fun hc => nomatch hc) fun hc => nomatch hc
  | some h' => rw [Except.ok.injEq, Option.some.injEq]

/-- A block that the providers agree on is on the chain of the first one. -/
theorem blockAt_of_consensusBlock (hok : consensusBlock B rpc n = .ok h) :
    B.blockAt rpc.primary n = some h := by
  rw [consensusBlock] at hok
  obtain ⟨first, hfirst, hok⟩ := bind_eq_ok.mp hok
  rw [← block_eq_ok, hfirst]
  cases hsecond : rpc.secondary with
  | none =>
    rw [hsecond] at hok
    exact hok
  | some tip =>
    rw [hsecond] at hok
    obtain ⟨second, -, hok⟩ := bind_eq_ok.mp hok
    obtain ⟨-, -, hok⟩ := bind_eq_ok.mp hok
    exact hok

theorem mapM_header {ns : List ℕ} {headers : List (ℕ × H)} (hok : ns.mapM (header B rpc) = .ok headers) :
    headers.map Prod.fst = ns ∧ ∀ e ∈ headers, B.blockAt rpc.primary e.1 = some e.2 := by
  induction ns generalizing headers with
  | nil =>
    cases hok
    exact ⟨rfl, fun e he => absurd he List.not_mem_nil⟩
  | cons n ns ih =>
    rw [List.mapM_cons] at hok
    obtain ⟨e, he, hok⟩ := bind_eq_ok.mp hok
    obtain ⟨rest, hrest, hok⟩ := bind_eq_ok.mp hok
    cases hok
    rw [header] at he
    obtain ⟨h, hh, he⟩ := bind_eq_ok.mp he
    cases he
    obtain ⟨hfst, hblocks⟩ := ih hrest
    refine ⟨congrArg (n :: ·) hfst, fun e he => ?_⟩
    rcases List.mem_cons.mp he with rfl | he
    · exact blockAt_of_consensusBlock hh
    · exact hblocks e he

omit [DecidableEq H] in
/-- What is stored afterwards was stored, or is one of the headers. -/
theorem lookup_store {stored : Table ℕ H} {headers : List (ℕ × H)}
    (hok : (store stored headers).lookup n = some h) :
    (n, h) ∈ headers ∨ stored.lookup n = some h ∧ n ∉ headers.map Prod.fst := by
  induction headers generalizing stored with
  | nil => exact Or.inr ⟨hok, List.not_mem_nil⟩
  | cons e headers ih =>
    rcases ih hok with hmem | ⟨hlookup, hnot⟩
    · exact Or.inl (List.mem_cons_of_mem e hmem)
    · rcases eq_or_ne n e.1 with rfl | hne
      · rw [AList.lookup_insert, Option.some.injEq] at hlookup
        exact Or.inl (hlookup ▸ List.mem_cons_self)
      · rw [AList.lookup_insert_ne hne] at hlookup
        exact Or.inr ⟨hlookup, fun hc => (List.mem_cons.mp hc).elim hne hnot⟩

omit [DecidableEq H] in
theorem mem_store {stored : Table ℕ H} {headers : List (ℕ × H)} :
    n ∈ store stored headers ↔ n ∈ stored ∨ n ∈ headers.map Prod.fst := by
  induction headers generalizing stored with
  | nil => exact (or_iff_left List.not_mem_nil).symm
  | cons e headers ih =>
    refine ih.trans ?_
    rw [AList.mem_insert, List.map_cons, List.mem_cons]
    tauto

omit [DecidableEq H] in
theorem IngestedOn.le (h : IngestedOn B activationBlock j old) : activationBlock ≤ B.number old := by
  obtain ⟨a, ha⟩ := Option.isSome_iff_exists.mp (AList.lookup_isSome.mpr h.activation)
  exact BlockTree.le_of_blockAt (h.stored _ _ ha).2

/-- **A range is stored**: the journal is of the chain of its last block. The first one is on
top of the chain of the journal, so that this one is below it. -/
theorem ingestedOn_store (h : j = .initial activationBlock ∨ ∃ old, IngestedOn B activationBlock j old)
    (tip : H) {first last : H} {toBlock : ℕ} {headers : List (ℕ × H)} (hle : j.nextBlock ≤ toBlock)
    (hheaders : ∀ e ∈ headers, B.blockAt tip e.1 = some e.2 ∧ j.nextBlock ≤ e.1 ∧ e.1 ≤ toBlock)
    (hfirst : (j.nextBlock, first) ∈ headers) (hlast : (toBlock, last) ∈ headers)
    (hfollows : follows B j first = true) :
    IngestedOn B activationBlock { chainBlocks := store j.chainBlocks headers
                                   nextBlock := toBlock + 1
                                   lastBlockHash := some last } last := by
  have htip := (hheaders _ hlast).1
  have hnumber : B.number last = toBlock := BlockTree.number_of_blockAt htip
  have hchain : ∀ n, n ≤ toBlock → B.blockAt last n = B.blockAt tip n := fun n hn =>
    (BlockTree.blockAt_of_le htip hn).symm
  -- what was stored before is on the chain of the range
  have hbelow : ∀ n h', j.chainBlocks.lookup n = some h' →
      activationBlock ≤ n ∧ n ≤ toBlock ∧ B.blockAt tip n = some h' := by
    intro n h' hlookup
    rcases h with rfl | ⟨old, hold⟩
    · cases hlookup
    · obtain ⟨hact, hblock⟩ := hold.stored n h' hlookup
      have hn := BlockTree.le_of_blockAt hblock
      have hparent : B.parent first = old := by
        rw [follows, hold.last, Option.all_some, decide_eq_true_eq] at hfollows
        exact hfollows
      have hold' : B.blockAt tip (B.number old) = some old := by
        rw [← hparent]
        refine BlockTree.blockAt_parent ?_
        rw [hparent, ← hold.next]
        exact (hheaders _ hfirst).1
      have hnext := hold.next
      exact ⟨hact, by omega, (BlockTree.blockAt_of_le hold' hn).trans hblock⟩
  have hact : activationBlock ≤ j.nextBlock := by
    rcases h with rfl | ⟨old, hold⟩
    · exact le_rfl
    · exact hold.next ▸ hold.le.trans (Nat.le_succ _)
  refine ⟨by rw [hnumber], rfl, ?_, ?_, ?_⟩
  · have hmem : toBlock ∈ store j.chainBlocks headers :=
      mem_store.mpr (Or.inr (List.mem_map_of_mem hlast))
    obtain ⟨h', hlookup⟩ := Option.isSome_iff_exists.mp (AList.lookup_isSome.mpr hmem)
    rw [hnumber]
    refine hlookup.trans ?_
    rcases lookup_store hlookup with hhead | ⟨-, hnot⟩
    · exact (hheaders _ hhead).1.symm.trans htip
    · exact absurd (List.mem_map_of_mem hlast) hnot
  · refine mem_store.mpr ?_
    rcases h with rfl | ⟨old, hold⟩
    · exact Or.inr (List.mem_map_of_mem hfirst)
    · exact Or.inl hold.activation
  · intro n h' hlookup
    rcases lookup_store hlookup with hhead | ⟨hstored, -⟩
    · obtain ⟨hblock, hn, hto⟩ := hheaders _ hhead
      exact ⟨hact.trans hn, (hchain n hto).trans hblock⟩
    · obtain ⟨hn, hto, hblock⟩ := hbelow n h' hstored
      exact ⟨hn, (hchain n hto).trans hblock⟩

/-- **A sparse range is ingested.** -/
theorem ingestedOn_sparse (h : j = .initial activationBlock ∨ ∃ old, IngestedOn B activationBlock j old)
    {isFinalized : H → Bool} {toBlock : ℕ} {logBlocks : List ℕ}
    (hok : ingestFinalizedSparseRange B rpc isFinalized j toBlock logBlocks = .ok j') :
    ∃ old, IngestedOn B activationBlock j' old := by
  rw [ingestFinalizedSparseRange] at hok
  obtain ⟨_, hrange, hok⟩ := bind_eq_ok.mp hok
  obtain ⟨-, -, hok⟩ := bind_eq_ok.mp hok
  obtain ⟨_, hlogs, hok⟩ := bind_eq_ok.mp hok
  obtain ⟨first, hfirst, hok⟩ := bind_eq_ok.mp hok
  obtain ⟨last, hlast, hok⟩ := bind_eq_ok.mp hok
  obtain ⟨logged, hlogged, hok⟩ := bind_eq_ok.mp hok
  obtain ⟨-, -, hok⟩ := bind_eq_ok.mp hok
  obtain ⟨_, hfollows, hok⟩ := bind_eq_ok.mp hok
  obtain ⟨-, -, hok⟩ := bind_eq_ok.mp hok
  cases hok
  have hle : j.nextBlock ≤ toBlock := by
    have := revertIf_eq_ok.mp hrange
    omega
  have hlogs := revertIf_eq_ok.mp hlogs
  obtain ⟨hheights, hblocks⟩ := mapM_header hlogged
  refine ⟨last, ingestedOn_store h rpc.primary hle ?_ List.mem_cons_self
    (List.mem_cons_of_mem _ List.mem_cons_self) (by simpa using revertIf_eq_ok.mp hfollows)⟩
  intro e he
  rcases List.mem_cons.mp he with rfl | he
  · exact ⟨blockAt_of_consensusBlock hfirst, le_rfl, hle⟩
  rcases List.mem_cons.mp he with rfl | he
  · exact ⟨blockAt_of_consensusBlock hlast, hle, le_rfl⟩
  · have hlog : e.1 ∈ logBlocks := hheights ▸ List.mem_map_of_mem he
    have hin : ¬(e.1 < j.nextBlock ∨ toBlock < e.1) := fun hc => hlogs ⟨e.1, hlog, hc⟩
    exact ⟨hblocks e he, by omega, by omega⟩

/-- **A dense range is ingested.** -/
theorem ingestedOn_dense (h : j = .initial activationBlock ∨ ∃ old, IngestedOn B activationBlock j old)
    {isFinalized : H → Bool} {toBlock : ℕ}
    (hok : ingestCanonicalRange B rpc isFinalized j toBlock = .ok j') :
    ∃ old, IngestedOn B activationBlock j' old := by
  rw [ingestCanonicalRange] at hok
  obtain ⟨_, hrange, hok⟩ := bind_eq_ok.mp hok
  obtain ⟨first, hfirst, hok⟩ := bind_eq_ok.mp hok
  obtain ⟨last, hlast, hok⟩ := bind_eq_ok.mp hok
  obtain ⟨headers, hheaders, hok⟩ := bind_eq_ok.mp hok
  obtain ⟨-, -, hok⟩ := bind_eq_ok.mp hok
  obtain ⟨-, -, hok⟩ := bind_eq_ok.mp hok
  obtain ⟨_, hfollows, hok⟩ := bind_eq_ok.mp hok
  cases hok
  have hle : j.nextBlock ≤ toBlock := by
    have := revertIf_eq_ok.mp hrange
    omega
  obtain ⟨hheights, hblocks⟩ := mapM_header hheaders
  -- every height of the range has its header
  have hmem : ∀ n h', j.nextBlock ≤ n → n ≤ toBlock → B.blockAt rpc.primary n = some h' →
      (n, h') ∈ headers := by
    intro n h' hn hto hblock
    have hheight : n ∈ headers.map Prod.fst := by
      rw [hheights, List.mem_range'_1]
      omega
    obtain ⟨e, he, rfl⟩ := List.mem_map.mp hheight
    have heq : e.2 = h' := Option.some.inj ((hblocks e he).symm.trans hblock)
    exact heq ▸ he
  refine ⟨last, ingestedOn_store h rpc.primary hle (fun e he => ⟨hblocks e he, ?_⟩)
    (hmem _ _ le_rfl hle (blockAt_of_consensusBlock hfirst))
    (hmem _ _ hle le_rfl (blockAt_of_consensusBlock hlast)) (by simpa using revertIf_eq_ok.mp hfollows)⟩
  have hheight : e.1 ∈ List.range' j.nextBlock (toBlock + 1 - j.nextBlock) :=
    hheights ▸ List.mem_map_of_mem he
  rw [List.mem_range'_1] at hheight
  omega

/-- **The journal is rewound** to one of its blocks. -/
theorem ingestedOn_rewind (h : j = .initial activationBlock ∨ ∃ old, IngestedOn B activationBlock j old)
    {ancestor : H} (hok : rewindCanonicalChain B activationBlock j ancestor = .ok j') :
    IngestedOn B activationBlock j' ancestor := by
  rw [rewindCanonicalChain] at hok
  obtain ⟨_, hact, hok⟩ := bind_eq_ok.mp hok
  obtain ⟨_, hstored, hok⟩ := bind_eq_ok.mp hok
  cases hok
  have hact := Nat.le_of_not_lt (revertIf_eq_ok.mp hact)
  have hstored := not_not.mp (revertIf_eq_ok.mp hstored)
  rcases h with rfl | ⟨old, hold⟩
  · cases hstored
  have hblock := (hold.stored _ _ hstored).2
  have hlookup : ∀ n, (Table.restrict (· ≤ B.number ancestor) j.chainBlocks).lookup n
      = if n ≤ B.number ancestor then j.chainBlocks.lookup n else none :=
    Table.lookup_restrict _ _
  refine ⟨rfl, rfl, ?_, ?_, fun n h' hn => ?_⟩
  · rw [hlookup, if_pos le_rfl]
    exact hstored
  · rw [← AList.lookup_isSome, hlookup, if_pos hact, AList.lookup_isSome]
    exact hold.activation
  · rw [hlookup] at hn
    split at hn
    · rename_i hle
      obtain ⟨hact', hblock'⟩ := hold.stored n h' hn
      exact ⟨hact', (BlockTree.blockAt_of_le hblock hle).symm.trans hblock'⟩
    · cases hn

/-- **Every journal that was ingested into is of a chain.** -/
theorem ingestedOn_of_reachable (h : Reachable B activationBlock j) :
    j = .initial activationBlock ∨ ∃ old, IngestedOn B activationBlock j old := by
  refine Transition.Reachable.invariant
    (I := fun j => j = .initial activationBlock ∨ ∃ old, IngestedOn B activationBlock j old) ?_ ?_ h
  · exact fun j hj => Or.inl hj
  · rintro j ⟨⟩ j' hj hstep
    cases hstep with
    | sparse rpc isFinalized toBlock logBlocks hok => exact Or.inr (ingestedOn_sparse hj hok)
    | dense rpc isFinalized toBlock hok => exact Or.inr (ingestedOn_dense hj hok)
    | recovered rpc hok =>
      rw [recoverReorg] at hok
      obtain ⟨ancestor, -, hok⟩ := bind_eq_ok.mp hok
      exact Or.inr ⟨ancestor, ingestedOn_rewind hj hok⟩

/-! ### The search -/

/-- The providers are on a chain. -/
def OnChain (rpc : Providers H) (tip : H) : Prop :=
  rpc.primary = tip ∧ ∀ second, rpc.secondary = some second → second = tip

theorem consensusBlock_of_onChain (hrpc : OnChain rpc new) :
    consensusBlock B rpc n = block B new n := by
  rw [consensusBlock, hrpc.1]
  cases hblock : block B new n with
  | error e => rfl
  | ok first =>
    rw [ok_bind]
    cases hsecond : rpc.secondary with
    | none => rfl
    | some tip =>
      dsimp only
      rw [hrpc.2 tip hsecond, hblock, ok_bind, throwIf, revertIf_neg (not_not.mpr rfl), ok_bind]
      rfl

/-- A block of the chain that is stored, at a height. -/
def Common (B : BlockTree H) (stored : Table ℕ H) (new : H) (n : ℕ) (h : H) : Prop :=
  stored.lookup n = some h ∧ B.blockAt new n = some h

section Search

variable {stored : Table ℕ H} {floor k : ℕ}

omit [DecidableEq H] in
/-- A height that the chain has, and what is stored at it. -/
theorem common_iff {candidate : H} (hblock : B.blockAt new n = some candidate) :
    Common B stored new n h ↔ stored.lookup n = some candidate ∧ h = candidate := by
  rw [Common, hblock, Option.some.injEq]
  constructor
  · rintro ⟨hlookup, rfl⟩
    exact ⟨hlookup, rfl⟩
  · rintro ⟨hlookup, rfl⟩
    exact ⟨hlookup, rfl⟩

/-- **What the search finds** is the last common block. -/
theorem search_sound (hrpc : OnChain rpc new) (hfloor : floor ≤ k)
    (hok : search B rpc stored floor k = .ok h) :
    ∃ n, floor ≤ n ∧ n ≤ k ∧ Common B stored new n h ∧
      ∀ m h', n < m → m ≤ k → ¬Common B stored new m h' := by
  induction k with
  | zero =>
    rw [search, consensusBlock_of_onChain hrpc] at hok
    obtain ⟨candidate, hblock, hok⟩ := bind_eq_ok.mp hok
    rw [block_eq_ok] at hblock
    split at hok
    · rename_i hstored
      cases hok
      exact ⟨0, hfloor, le_rfl, (common_iff hblock).mpr ⟨hstored, rfl⟩,
        fun m _ hlt hle => absurd hlt (Nat.not_lt.mpr hle)⟩
    · cases hok
  | succ k ih =>
    rw [search, consensusBlock_of_onChain hrpc] at hok
    obtain ⟨candidate, hblock, hok⟩ := bind_eq_ok.mp hok
    rw [block_eq_ok] at hblock
    split at hok
    · rename_i hstored
      cases hok
      exact ⟨k + 1, hfloor, le_rfl, (common_iff hblock).mpr ⟨hstored, rfl⟩,
        fun m _ hlt hle => absurd hlt (Nat.not_lt.mpr hle)⟩
    · rename_i hnot
      split at hok
      · rename_i hle
        obtain ⟨n, hn, hnk, hcommon, hnone⟩ := ih hle hok
        refine ⟨n, hn, hnk.trans (Nat.le_succ k), hcommon, fun m h' hlt hmk => ?_⟩
        rcases Nat.le_succ_iff.mp hmk with hmk | rfl
        · exact hnone m h' hlt hmk
        · exact fun hc => hnot ((common_iff hblock).mp hc).1
      · cases hok

/-- **The search finds a common block** where there is one at a height it goes through. -/
theorem search_complete (hrpc : OnChain rpc new) (hk : k ≤ B.number new) (hn : floor ≤ n)
    (hnk : n ≤ k) (hcommon : Common B stored new n h) :
    ∃ found, search B rpc stored floor k = .ok found := by
  induction k with
  | zero =>
    obtain rfl := Nat.le_zero.mp hnk
    rw [search, consensusBlock_of_onChain hrpc, block_eq_ok.mpr hcommon.2, ok_bind, if_pos hcommon.1]
    exact ⟨h, rfl⟩
  | succ k ih =>
    obtain ⟨candidate, hblock⟩ := BlockTree.exists_blockAt hk
    rw [search, consensusBlock_of_onChain hrpc, block_eq_ok.mpr hblock, ok_bind]
    split
    · exact ⟨candidate, rfl⟩
    · rename_i hnot
      rcases Nat.le_succ_iff.mp hnk with hle | rfl
      · rw [if_pos (hn.trans hle)]
        exact ih (Nat.le_of_succ_le hk) hle
      · exact absurd ((common_iff hblock).mp hcommon).1 hnot

/-- The search fails on a chain that ends below the height it starts at. -/
theorem le_of_search (hrpc : OnChain rpc new) (hok : search B rpc stored floor k = .ok h) :
    k ≤ B.number new := by
  cases k with
  | zero => exact Nat.zero_le _
  | succ k =>
    rw [search, consensusBlock_of_onChain hrpc] at hok
    obtain ⟨candidate, hblock, -⟩ := bind_eq_ok.mp hok
    exact BlockTree.le_of_blockAt (block_eq_ok.mp hblock)

end Search

/-! ### When a reorg is recovered from -/

/-- **A reorg is recovered from**: the search finds a block that is stored and on the new chain,
and no stored block above it is. -/
def Recovers (B : BlockTree H) (activationBlock : ℕ) (j : Journal H) (rpc : Providers H) (new : H) :
    Prop :=
  ∃ h, findCommonAncestor B rpc j.chainBlocks (j.nextBlock - 1) (maximumDepth activationBlock j)
      = .ok h ∧ j.chainBlocks.lookup (B.number h) = some h ∧ B.blockAt new (B.number h) = some h ∧
    ∀ n h', j.chainBlocks.lookup n = some h' → B.number h < n → B.blockAt new n ≠ some h'

/-- The last height the search goes to. -/
def searchFloor (activationBlock : ℕ) (j : Journal H) : ℕ :=
  j.nextBlock - 1 - maximumDepth activationBlock j

theorem findCommonAncestor_eq {stored : Table ℕ H} :
    findCommonAncestor B rpc stored n (maximumDepth activationBlock j)
      = search B rpc stored (n - maximumDepth activationBlock j) n := by
  have hdepth : ¬maximumDepth activationBlock j > 1000 := Nat.not_lt.mpr (min_le_right _ _)
  rw [findCommonAncestor, throwIf, revertIf_neg hdepth, ok_bind]

/-- **A reorg is recovered from exactly when** the new chain is at least as long as what was
ingested, and a block at or below the fork is stored at a height that is searched. -/
theorem recovers_iff (hj : Reachable B activationBlock j) (hold : j.lastBlockHash = some old)
    (hrpc : OnChain rpc new) (hfork : B.Forks old new fork) :
    Recovers B activationBlock j rpc new ↔ B.number old ≤ B.number new ∧
      ∃ n ∈ j.chainBlocks, searchFloor activationBlock j ≤ n ∧ n ≤ fork := by
  have hon : IngestedOn B activationBlock j old := by
    rcases ingestedOn_of_reachable hj with rfl | ⟨o, ho⟩
    · cases hold
    · cases hold.symm.trans ho.last
      exact ho
  have hnext : j.nextBlock - 1 = B.number old := by
    rw [hon.next]
    rfl
  have hcommon : ∀ n h, Common B j.chainBlocks new n h ↔
      j.chainBlocks.lookup n = some h ∧ n ≤ fork := fun n h =>
    and_congr_right fun hlookup => hfork.blockAt_iff (hon.stored n h hlookup).2
  rw [Recovers, findCommonAncestor_eq, searchFloor, hnext]
  constructor
  · rintro ⟨h, hok, hlookup, hblock, -⟩
    refine ⟨le_of_search hrpc hok, B.number h, AList.lookup_isSome.mp (hlookup ▸ rfl), ?_,
      ((hcommon _ _).mp ⟨hlookup, hblock⟩).2⟩
    obtain ⟨n, hn, -, hfound, -⟩ := search_sound hrpc (Nat.sub_le _ _) hok
    rw [BlockTree.number_of_blockAt hfound.2]
    exact hn
  · rintro ⟨hlong, n, hmem, hn, hle⟩
    obtain ⟨h, hlookup⟩ := Option.isSome_iff_exists.mp (AList.lookup_isSome.mpr hmem)
    obtain ⟨found, hok⟩ := search_complete hrpc hlong hn
      (BlockTree.le_of_blockAt (hon.stored n h hlookup).2) ((hcommon n h).mpr ⟨hlookup, hle⟩)
    obtain ⟨m, -, -, hfound, hnone⟩ := search_sound hrpc (Nat.sub_le _ _) hok
    have hnumber := BlockTree.number_of_blockAt hfound.2
    refine ⟨found, hok, hnumber ▸ hfound.1, hnumber ▸ hfound.2, fun i h' hi hlt hblock => ?_⟩
    exact hnone i h' (hnumber ▸ hlt) (BlockTree.le_of_blockAt (hon.stored i h' hi).2) ⟨hi, hblock⟩

/-! ### Two chains -/

/-- A tree of two chains that fork at a height: a block is its height and its branch. -/
def forkTree (fork : ℕ) : BlockTree (ℕ × Bool) where
  parent h := (h.1 - 1, h.2 && decide (fork + 1 < h.1))
  number h := h.1
  number_parent _ hne := Nat.sub_add_cancel (Nat.pos_of_ne_zero hne)

theorem forkTree_left {a n : ℕ} (hle : n ≤ a) :
    (forkTree fork).blockAt (a, false) n = some (n, false) := by
  have hiterate : ∀ k, (forkTree fork).parent^[k] (a, false) = (a - k, false) := by
    intro k
    induction k with
    | zero => rfl
    | succ k ih =>
      rw [Function.iterate_succ_apply', ih]
      rfl
  refine BlockTree.blockAt_eq_some_iff.mpr ⟨hle, (hiterate _).trans ?_⟩
  change (a - (a - n), false) = _
  rw [Nat.sub_sub_self hle]

theorem forkTree_right {b n : ℕ} (hb : fork < b) (hle : n ≤ b) :
    (forkTree fork).blockAt (b, true) n = some (n, decide (fork < n)) := by
  have hiterate : ∀ k, (forkTree fork).parent^[k] (b, true) = (b - k, decide (fork < b - k)) := by
    intro k
    induction k with
    | zero =>
      rw [Nat.sub_zero, decide_eq_true hb]
      rfl
    | succ k ih =>
      rw [Function.iterate_succ_apply', ih]
      refine Prod.ext rfl ?_
      change (decide (fork < b - k) && decide (fork + 1 < b - k)) = _
      rw [← Bool.decide_and]
      exact decide_eq_decide.mpr (by omega)
  refine BlockTree.blockAt_eq_some_iff.mpr ⟨hle, (hiterate _).trans ?_⟩
  change (b - (b - n), decide (fork < b - (b - n))) = _
  rw [Nat.sub_sub_self hle]

theorem forkTree_forks {a b : ℕ} (ha : fork < a) (hb : fork < b) :
    (forkTree fork).Forks (a, false) (b, true) fork where
  le_left := ha.le
  le_right := hb.le
  agree := by
    rw [forkTree_left ha.le, forkTree_right hb hb.le, decide_eq_false (lt_irrefl fork)]
  differ n h hlt hleft hright := by
    have hn : n ≤ a := BlockTree.le_of_blockAt hleft
    have hn' : n ≤ b := BlockTree.le_of_blockAt hright
    rw [forkTree_left hn] at hleft
    rw [forkTree_right hb hn', ← hleft, decide_eq_true hlt] at hright
    cases hright

/-- A range of five blocks. -/
def denseRange : Except JsError (Journal (ℕ × Bool)) :=
  ingestCanonicalRange (forkTree 2) ⟨(4, false), some (4, false)⟩ (fun _ => true) (.initial 0) 4

theorem denseRange_isOk : denseRange.isOk = true := by decide +kernel

theorem reachable_denseRange : Reachable (forkTree 2) 0 (value denseRange denseRange_isOk) :=
  (Transition.Reachable.of_init rfl : Reachable (forkTree 2) 0 (Journal.initial 0)).next
    (Step.dense ⟨(4, false), some (4, false)⟩ (fun _ => true) 4 (eq_ok_value denseRange_isOk))

theorem lastBlockHash_denseRange :
    (value denseRange denseRange_isOk).lastBlockHash = some (4, false) := by decide +kernel

theorem recovers_dense : Recovers (forkTree 2) 0 (value denseRange denseRange_isOk)
    ⟨(5, true), some (5, true)⟩ (5, true) :=
  (recovers_iff reachable_denseRange lastBlockHash_denseRange
    ⟨rfl, fun _ h => (Option.some.inj h).symm⟩ (forkTree_forks (by decide) (by decide))).mpr
    ⟨by decide, 2, by decide +kernel, by decide +kernel, le_rfl⟩

/-- A range of 1002 blocks that have no logs. -/
def sparseRange : Except JsError (Journal (ℕ × Bool)) :=
  ingestFinalizedSparseRange (forkTree 1000) ⟨(1001, false), some (1001, false)⟩ (fun _ => true)
    (.initial 0) 1001 []

theorem sparseRange_isOk : sparseRange.isOk = true := by decide +kernel

/-- What is stored of the range: its two ends. -/
def sparseJournal : Journal (ℕ × Bool) := value sparseRange sparseRange_isOk

theorem reachable_sparseJournal : Reachable (forkTree 1000) 0 sparseJournal :=
  (Transition.Reachable.of_init rfl : Reachable (forkTree 1000) 0 (Journal.initial 0)).next
    (Step.sparse ⟨(1001, false), some (1001, false)⟩ (fun _ => true) 1001 []
      (eq_ok_value sparseRange_isOk))

theorem keys_sparseJournal : sparseJournal.chainBlocks.keys = [1001, 0] := by decide +kernel

/-- **A reorg of one block above a sparse range** is not recovered from: the worker searches a
thousand blocks, and none of them is stored but the one that is gone. -/
theorem sparse_range_not_recovered :
    Reachable (forkTree 1000) 0 sparseJournal ∧
      sparseJournal.lastBlockHash = some (1001, false) ∧
      (forkTree 1000).Forks (1001, false) (1002, true) 1000 ∧
      1001 - 1000 ≤ maximumDepth 0 sparseJournal ∧
      ¬Recovers (forkTree 1000) 0 sparseJournal ⟨(1002, true), some (1002, true)⟩ (1002, true) := by
  have hfork : (forkTree 1000).Forks (1001, false) (1002, true) 1000 :=
    forkTree_forks (by decide) (by decide)
  refine ⟨reachable_sparseJournal, by decide +kernel, hfork, by decide +kernel, ?_⟩
  rintro ⟨h, hok, -⟩
  rw [findCommonAncestor_eq] at hok
  obtain ⟨n, hn, -, ⟨hlookup, hblock⟩, -⟩ := search_sound
    ⟨rfl, fun _ h => (Option.some.inj h).symm⟩ (Nat.sub_le _ _) hok
  have hfloor : sparseJournal.nextBlock - 1 - maximumDepth 0 sparseJournal = 1 := by decide +kernel
  have hkey : n ∈ sparseJournal.chainBlocks.keys :=
    AList.mem_keys.mp (AList.lookup_isSome.mp (hlookup ▸ rfl))
  rw [keys_sparseJournal] at hkey
  obtain rfl : n = 1001 := by
    simp only [List.mem_cons, List.not_mem_nil, or_false] at hkey
    omega
  have htip : sparseJournal.chainBlocks.lookup 1001 = some (1001, false) := by decide +kernel
  rw [htip, Option.some.injEq] at hlookup
  rw [forkTree_right (by decide) (by decide), ← hlookup] at hblock
  cases hblock

end ReorgRecovery

end Backend

end TickerGarden
