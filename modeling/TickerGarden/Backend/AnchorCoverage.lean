import TickerGarden.Backend.Decoded
import TickerGarden.Lib.Sweep

/-!
# The coverage of a publication

What is published at an anchor block is computed from the events of all blocks from the
activation of the deployment on, so nothing may be published before they have been ingested.
`assertPublishableAnchor` looks for them in the ranges that were stored as complete: it goes
through them in the order of their first blocks, with a cursor. The preparation of a holder
snapshot does the same, with another query and without the early return.

Both decide exactly whether a block is missing, `coverageLoop_iff` and
`snapshotHistory_iff`. They part where the anchor lies before the activation, and there is
nothing to cover: a snapshot may be prepared there, a publication needs a range that reaches
over both blocks.
-/

namespace TickerGarden

open Checked

namespace Backend

namespace Projection

/-! ### The tables -/

/-- What names a deployment in every table. -/
structure DeploymentKey where
  environment : String
  chainId : ℕ
  deploymentDigest : Bytes32
deriving DecidableEq

/-- A deployment, with the block it is active from. -/
structure DeploymentIdentity extends DeploymentKey where
  activationBlock : ℕ

/-- A row of `chain_blocks`. -/
structure ChainBlock where
  deployment : DeploymentKey
  number : ℕ
  hash : Bytes32
  canonical : Bool
  finalized : Bool

/-- A row of `ingestion_checkpoints`. -/
structure IngestionCheckpoint where
  deployment : DeploymentKey
  stream : String
  nextBlock : ℕ
  generation : ℕ

/-- A row of `covered_ranges`. -/
structure CoveredRange where
  deployment : DeploymentKey
  fromBlock : ℕ
  toBlock : ℕ
  generation : ℕ
  complete : Bool

/-- The tables of the ingestion that a publication is checked against. -/
structure Tables where
  chainBlocks : List ChainBlock
  ingestionCheckpoints : List IngestionCheckpoint
  coveredRanges : List CoveredRange

/-- What a publication says of itself: its deployment, its block, and the generation of the
ingestion it was made of. -/
structure PublishProjectionInput where
  deployment : DeploymentIdentity
  blockNumber : ℕ
  blockHash : Bytes32
  generation : ℕ
  stream : Option String

/-! ### The checks -/

/-- `ORDER BY from_block,to_block`. -/
def rangeOrder (x y : CoveredRange) : Bool :=
  decide (x.fromBlock < y.fromBlock ∨ x.fromBlock = y.fromBlock ∧ x.toBlock ≤ y.toBlock)

/-- The rows of a block in `chain_blocks`, canonical and finalized. -/
def anchored (t : Tables) (key : DeploymentKey) (number : ℕ) (hash : Bytes32) : Bool :=
  (t.chainBlocks.find? fun b => decide (b.deployment = key ∧ b.number = number ∧ b.hash = hash)).any
    fun b => b.canonical && b.finalized

/-- The row of a stream in `ingestion_checkpoints`. -/
def checkpointOf (t : Tables) (key : DeploymentKey) (stream : String) : Option IngestionCheckpoint :=
  t.ingestionCheckpoints.find? fun c => decide (c.deployment = key ∧ c.stream = stream)

/-- A range that counts: it is complete, and of this deployment and generation. -/
def CompleteRange (key : DeploymentKey) (generation : ℕ) (r : CoveredRange) : Prop :=
  r.deployment = key ∧ r.generation = generation ∧ r.complete = true

instance (key : DeploymentKey) (generation : ℕ) (r : CoveredRange) :
    Decidable (CompleteRange key generation r) :=
  inferInstanceAs (Decidable (_ ∧ _ ∧ _))

/-- The ranges a publication looks through. -/
def publicationRanges (t : Tables) (input : PublishProjectionInput) : List CoveredRange :=
  (t.coveredRanges.filter fun r =>
    decide (CompleteRange input.deployment.toDeploymentKey input.generation r ∧
      input.deployment.activationBlock ≤ r.toBlock ∧ r.fromBlock ≤ input.blockNumber)).mergeSort
    rangeOrder

/-- The loop over these ranges: whether the cursor passes the anchor. -/
def coverageLoop (t : Tables) (input : PublishProjectionInput) : Bool :=
  Sweep.reaches CoveredRange.fromBlock CoveredRange.toBlock input.blockNumber
    input.deployment.activationBlock (publicationRanges t input)

/-- The block of a publication is canonical and final, the ingestion has gone beyond it, and no
block between the activation and it was left out. -/
def assertPublishableAnchor (t : Tables) (input : PublishProjectionInput) : Except JsError Unit := do
  throwIf (anchored t input.deployment.toDeploymentKey input.blockNumber input.blockHash = false)
    "publication anchor is not canonical and finalized"
  let checkpoint := checkpointOf t input.deployment.toDeploymentKey
    (input.stream.getD "frontend-events")
  throwIf (checkpoint.all fun c =>
      decide (c.nextBlock ≤ input.blockNumber ∨ c.generation ≠ input.generation))
    "ingestion checkpoint does not cover publication anchor and generation"
  throwIf (coverageLoop t input = false) "publication scope has an incomplete covered range"

/-- The ranges the preparation of a snapshot looks through. -/
def snapshotRanges (t : Tables) (key : DeploymentKey) (generation blockNumber : ℕ) :
    List CoveredRange :=
  (t.coveredRanges.filter fun r =>
    decide (CompleteRange key generation r ∧ r.fromBlock ≤ blockNumber)).mergeSort rangeOrder

/-- The history a snapshot is prepared from, as `snapshotPreparationContext` checks it: the
generation of it. -/
def snapshotHistory (t : Tables) (deployment : DeploymentIdentity) (blockNumber : ℕ)
    (hash : Bytes32) : Except JsError ℕ := do
  throwIf (anchored t deployment.toDeploymentKey blockNumber hash = false)
    "snapshot block not finalized by indexer"
  match checkpointOf t deployment.toDeploymentKey "frontend-events" with
  | none => .error ⟨"snapshot history incomplete"⟩
  | some checkpoint => do
    throwIf (checkpoint.nextBlock ≤ blockNumber) "snapshot history incomplete"
    let next := Sweep.sweep CoveredRange.fromBlock CoveredRange.toBlock deployment.activationBlock
      (snapshotRanges t deployment.toDeploymentKey checkpoint.generation blockNumber)
    throwIf (next ≤ blockNumber) "snapshot history gap"
    return checkpoint.generation

/-! ### What they decide -/

section Coverage

variable (t : Tables) (key : DeploymentKey) (generation : ℕ) (input : PublishProjectionInput)
  (deployment : DeploymentIdentity) (blockNumber : ℕ) (hash : Bytes32)

/-- A block lies in a range that is complete. -/
def Covered (n : ℕ) : Prop :=
  ∃ r ∈ t.coveredRanges, CompleteRange key generation r ∧ r.fromBlock ≤ n ∧ n ≤ r.toBlock

variable {t key generation}

theorem rangeOrder_trans (x y z : CoveredRange) (hxy : rangeOrder x y = true)
    (hyz : rangeOrder y z = true) : rangeOrder x z = true := by
  simp only [rangeOrder, decide_eq_true_eq] at hxy hyz ⊢
  omega

theorem rangeOrder_total (x y : CoveredRange) : rangeOrder x y || rangeOrder y x := by
  simp only [rangeOrder, Bool.or_eq_true, decide_eq_true_eq]
  omega

/-- The rows of a query are in the order of their first blocks. -/
theorem pairwise_mergeSort (rows : List CoveredRange) :
    (rows.mergeSort rangeOrder).Pairwise fun x y => x.fromBlock ≤ y.fromBlock := by
  refine (List.pairwise_mergeSort rangeOrder_trans rangeOrder_total rows).imp fun {x y} h => ?_
  rw [rangeOrder, decide_eq_true_eq] at h
  omega

variable (t)

/-- **The loop decides whether a block is missing**, if the activation is not after the
anchor. Otherwise it asks for a range that reaches over both. -/
theorem coverageLoop_iff :
    (input.deployment.activationBlock ≤ input.blockNumber → (coverageLoop t input = true ↔
      ∀ n, input.deployment.activationBlock ≤ n → n ≤ input.blockNumber →
        Covered t input.deployment.toDeploymentKey input.generation n)) ∧
    (input.blockNumber < input.deployment.activationBlock → (coverageLoop t input = true ↔
      ∃ r ∈ t.coveredRanges,
        CompleteRange input.deployment.toDeploymentKey input.generation r ∧
          r.fromBlock ≤ input.blockNumber ∧ input.deployment.activationBlock ≤ r.toBlock)) := by
  have hmem : ∀ r, r ∈ publicationRanges t input ↔ r ∈ t.coveredRanges ∧
      CompleteRange input.deployment.toDeploymentKey input.generation r ∧
        input.deployment.activationBlock ≤ r.toBlock ∧ r.fromBlock ≤ input.blockNumber := by
    intro r
    rw [publicationRanges, List.mem_mergeSort, List.mem_filter, decide_eq_true_eq]
  have hsorted : (publicationRanges t input).Pairwise fun x y => x.fromBlock ≤ y.fromBlock :=
    pairwise_mergeSort _
  constructor
  · intro hle
    rw [coverageLoop, Sweep.reaches_iff hsorted hle]
    refine forall_congr' fun n => forall_congr' fun hfirst => forall_congr' fun hlast => ?_
    constructor
    · rintro ⟨r, hr, hholds⟩
      obtain ⟨hr, hcomplete, -, -⟩ := (hmem r).mp hr
      exact ⟨r, hr, hcomplete, hholds⟩
    · -- a range that holds a block in between is not left out by the query
      rintro ⟨r, hr, hcomplete, hfrom, hto⟩
      exact ⟨r, (hmem r).mpr ⟨hr, hcomplete, hfirst.trans hto, hfrom.trans hlast⟩, hfrom, hto⟩
  · intro hlt
    rw [coverageLoop, Sweep.reaches_of_lt hlt]
    constructor
    · rintro ⟨r, hr, -⟩
      obtain ⟨hr, hcomplete, hto, hfrom⟩ := (hmem r).mp (List.mem_of_mem_head? hr)
      exact ⟨r, hr, hcomplete, hfrom, hto⟩
    · rintro ⟨r, hr, hcomplete, hfrom, hto⟩
      have hr' := (hmem r).mpr ⟨hr, hcomplete, hto, hfrom⟩
      -- whatever range comes first, it begins before the anchor
      obtain ⟨x, hx⟩ := Option.isSome_iff_exists.mp (List.isSome_head?.mpr (List.ne_nil_of_mem hr'))
      have hx' := (hmem x).mp (List.mem_of_mem_head? hx)
      exact ⟨x, hx, hx'.2.2.2.trans hlt.le⟩

/-- An anchor before the activation has nothing to cover, and is not accepted for it. -/
theorem coverageLoop_before_activation :
    ¬ ∀ (t : Tables) (input : PublishProjectionInput), coverageLoop t input = true ↔
      ∀ n, input.deployment.activationBlock ≤ n → n ≤ input.blockNumber →
        Covered t input.deployment.toDeploymentKey input.generation n := by
  intro hall
  let early : PublishProjectionInput := ⟨⟨⟨"local", 4663, 1⟩, 10⟩, 5, 7, 0, none⟩
  have hloop : coverageLoop ⟨[], [], []⟩ early = false := by decide +kernel
  have haccept := (hall ⟨[], [], []⟩ early).mpr fun n hfirst hlast =>
    absurd (hfirst.trans hlast) (by decide)
  rw [hloop] at haccept
  exact Bool.false_ne_true haccept

/-- **What is published is covered**: an anchor is accepted when its block is final, the
ingestion is past it, and no block is missing. -/
theorem assertPublishableAnchor_iff (hle : input.deployment.activationBlock ≤ input.blockNumber) :
    assertPublishableAnchor t input = .ok () ↔
      anchored t input.deployment.toDeploymentKey input.blockNumber input.blockHash = true ∧
      (∃ c ∈ checkpointOf t input.deployment.toDeploymentKey (input.stream.getD "frontend-events"),
        input.blockNumber < c.nextBlock ∧ c.generation = input.generation) ∧
      ∀ n, input.deployment.activationBlock ≤ n → n ≤ input.blockNumber →
        Covered t input.deployment.toDeploymentKey input.generation n := by
  rw [← (coverageLoop_iff t input).1 hle]
  simp only [assertPublishableAnchor, bind_eq_ok, throwIf, revertIf_eq_ok, Bool.not_eq_false,
    exists_const]
  refine and_congr_right fun _ => and_congr_left fun _ => ?_
  cases checkpointOf t input.deployment.toDeploymentKey (input.stream.getD "frontend-events") with
  | none => simp
  | some c => simp

/-- **A snapshot is prepared from a history without a gap.** -/
theorem snapshotHistory_iff :
    snapshotHistory t deployment blockNumber hash = .ok generation ↔
      anchored t deployment.toDeploymentKey blockNumber hash = true ∧
      (∃ c ∈ checkpointOf t deployment.toDeploymentKey "frontend-events",
        blockNumber < c.nextBlock ∧ c.generation = generation) ∧
      ∀ n, deployment.activationBlock ≤ n → n ≤ blockNumber →
        Covered t deployment.toDeploymentKey generation n := by
  have hranges : ∀ g, blockNumber < Sweep.sweep CoveredRange.fromBlock CoveredRange.toBlock
      deployment.activationBlock (snapshotRanges t deployment.toDeploymentKey g blockNumber) ↔
      ∀ n, deployment.activationBlock ≤ n → n ≤ blockNumber →
        Covered t deployment.toDeploymentKey g n := by
    intro g
    have hsorted : (snapshotRanges t deployment.toDeploymentKey g blockNumber).Pairwise
        fun x y => x.fromBlock ≤ y.fromBlock := pairwise_mergeSort _
    rw [Sweep.lt_sweep_iff hsorted]
    refine forall_congr' fun n => forall_congr' fun _ => forall_congr' fun hlast => ?_
    simp only [snapshotRanges, List.mem_mergeSort, List.mem_filter, decide_eq_true_eq]
    constructor
    · rintro ⟨r, ⟨hr, hcomplete, -⟩, hholds⟩
      exact ⟨r, hr, hcomplete, hholds⟩
    · rintro ⟨r, hr, hcomplete, hfrom, hto⟩
      exact ⟨r, ⟨hr, hcomplete, hfrom.trans hlast⟩, hfrom, hto⟩
  simp only [snapshotHistory, bind_eq_ok, throwIf, revertIf_eq_ok, Bool.not_eq_false, exists_const]
  refine and_congr_right fun _ => ?_
  cases checkpointOf t deployment.toDeploymentKey "frontend-events" with
  | none => simp
  | some c =>
    simp only [bind_eq_ok, revertIf_eq_ok, pure_eq_ok, Except.ok.injEq, exists_const, not_le,
      Option.mem_some_iff, exists_eq_left']
    constructor
    · rintro ⟨hnext, hgap, rfl⟩
      exact ⟨⟨hnext, rfl⟩, (hranges _).mp hgap⟩
    · rintro ⟨⟨hnext, rfl⟩, hcovered⟩
      exact ⟨hnext, (hranges _).mpr hcovered, rfl⟩

/-- **The two gates.** An anchor that is not before the activation passes the one if and only
if it passes the other, of the same generation and the stream of the frontend; and they let
through exactly the anchors whose block is final, that the ingestion has passed and before
which no block is missing. -/
theorem gates_agree (hle : deployment.activationBlock ≤ blockNumber) :
    (snapshotHistory t deployment blockNumber hash = .ok generation ↔
      assertPublishableAnchor t ⟨deployment, blockNumber, hash, generation, none⟩ = .ok ()) ∧
    (snapshotHistory t deployment blockNumber hash = .ok generation ↔
      anchored t deployment.toDeploymentKey blockNumber hash = true ∧
      (∃ c ∈ checkpointOf t deployment.toDeploymentKey "frontend-events",
        blockNumber < c.nextBlock ∧ c.generation = generation) ∧
      ∀ n, deployment.activationBlock ≤ n → n ≤ blockNumber →
        Covered t deployment.toDeploymentKey generation n) := by
  have hpublish := assertPublishableAnchor_iff t
    ⟨deployment, blockNumber, hash, generation, none⟩ hle
  exact ⟨(snapshotHistory_iff ..).trans hpublish.symm, snapshotHistory_iff ..⟩

end Coverage

/-! ### An ingestion with a gap

Blocks 10 to 12 and 14 to 15 were ingested; block 13 was not. -/

namespace Sample

/-- The deployment. -/
def deployment : DeploymentIdentity := ⟨⟨"local", 4663, 1⟩, 10⟩

/-- The tables: block 12 and block 15 are final. -/
def gap : Tables where
  chainBlocks := [⟨deployment.toDeploymentKey, 12, 7, true, true⟩,
    ⟨deployment.toDeploymentKey, 15, 8, true, true⟩]
  ingestionCheckpoints := [⟨deployment.toDeploymentKey, "frontend-events", 16, 3⟩]
  coveredRanges := [⟨deployment.toDeploymentKey, 14, 15, 3, true⟩,
    ⟨deployment.toDeploymentKey, 10, 12, 3, true⟩]

end Sample

/-- Before the gap both gates are open, behind it both are closed. -/
theorem gates_agree_sample :
    (snapshotHistory Sample.gap Sample.deployment 12 7 = .ok 3 ∧
      assertPublishableAnchor Sample.gap ⟨Sample.deployment, 12, 7, 3, none⟩ = .ok ()) ∧
    ¬ snapshotHistory Sample.gap Sample.deployment 15 8 = .ok 3 ∧
      ¬ assertPublishableAnchor Sample.gap ⟨Sample.deployment, 15, 8, 3, none⟩ = .ok () := by
  have hopen : snapshotHistory Sample.gap Sample.deployment 12 7 = .ok 3 := by decide +kernel
  -- block 13 is in neither range
  have hclosed : ¬ snapshotHistory Sample.gap Sample.deployment 15 8 = .ok 3 := by
    intro h
    obtain ⟨r, hr, -, hfrom, hto⟩ :=
      ((gates_agree Sample.gap Sample.deployment 15 8 (by decide)).2.mp h).2.2 13 (by decide)
        (by decide)
    simp only [Sample.gap, List.mem_cons, List.not_mem_nil, or_false] at hr
    rcases hr with rfl | rfl
    · exact absurd hfrom (by decide)
    · exact absurd hto (by decide)
  exact ⟨⟨hopen, (gates_agree Sample.gap Sample.deployment 12 7 (by decide)).1.mp hopen⟩, hclosed,
    fun h => hclosed ((gates_agree Sample.gap Sample.deployment 15 8 (by decide)).1.mpr h)⟩

end Projection

end Backend

end TickerGarden
