import Mathlib.Data.List.Sort
import TickerGarden.Backend.Decoded
import TickerGarden.Lib.Reducer
import TickerGarden.Lib.Table
import TickerGarden.Lib.Temporal

/-!
# The versioned store of markets

The markets are published as a set of records at a block. Publications share what they have in
common: the table `market_record_versions` has one row for each value a market had, with the
blocks from which and to which it was valid, and a publication is read at its own block.

A publication is either full (`publishProjection`, with `incrementalMarketVersions`), and names
every record, or a delta to the publication before it (`publishMarketDelta`), and names what has
changed and what has been removed. Each is one transaction. What is modelled is one deployment,
the scope `markets`, and the versions of one generation, by which all statements select; the
publications of that scope are those of all generations.

A payload is a JSON value. How texts are compared and what is hashed is a parameter
(`Encoding`); nothing is assumed of it.
-/

namespace TickerGarden

open Checked

namespace Backend

namespace MarketVersions

/-! ### Records and tables -/

/-- `ProjectionRecord`. -/
structure ProjectionRecord (P : Type) where
  identity : String
  sortKey : String
  payload : P
deriving DecidableEq

/-- The columns of a version that a publication writes. -/
structure Content (P : Type) where
  sortKey : String
  payloadDigest : Bytes32
  payload : P
deriving DecidableEq

/-- A row of `market_record_versions`. -/
abbrev MarketVersion (P : Type) := Temporal.Version String (Content P)

/-- What a publication is known by: the number and the hash of its block. -/
structure Revision where
  blockNumber : ℕ
  blockHash : Bytes32
deriving DecidableEq

/-- What a delta says of a market. -/
inductive DeltaEntry
  | changed (identity sortKey : String) (payloadDigest : Bytes32)
  | removed (identity : String)
deriving DecidableEq

/-- The part of the payload of a publication by which it commits to its base. -/
structure DeltaCommitment where
  deltaDepth : ℕ
  baseRevision : Revision
  baseDigest : Bytes32
  entries : List DeltaEntry
deriving DecidableEq

/-- The payload of a publication. -/
structure PublicationPayload where
  algorithmVersion : String
  fromBlock : ℕ
  toBlock : ℕ
  recordCount : ℕ
  storage : Option String
  delta : Option DeltaCommitment
deriving DecidableEq

/-- A row of `publications`. -/
structure Publication where
  generation : ℕ
  payloadDigest : Bytes32
  payload : PublicationPayload
deriving DecidableEq

/-- The tables. -/
structure Store (P : Type) where
  versions : List (MarketVersion P)
  publications : Table Revision Publication
  pointer : Option Revision

/-- A row of `chain_blocks`. -/
structure ChainBlock where
  number : ℕ
  hash : Bytes32
  canonical : Bool
  finalized : Bool

/-- A row of `covered_ranges`. -/
structure CoveredRange where
  generation : ℕ
  fromBlock : ℕ
  toBlock : ℕ
  complete : Bool

/-- What has been ingested of the chain, with the checkpoint (`next_block`, `generation`). -/
structure Ingested where
  blocks : List ChainBlock
  checkpoint : Option (ℕ × ℕ)
  ranges : List CoveredRange

/-- How texts are compared, and what is computed of JSON values. -/
structure Encoding (P : Type) where
  localeCompare : String → String → Ordering
  /-- The order `sort()` uses. -/
  codeUnitLe : String → String → Bool
  /-- `Buffer.byteLength(stableStringify(payload))`. -/
  byteLength : P → ℕ
  digest : P → Bytes32
  digestRecords : List (ProjectionRecord P) → Bytes32
  digestPayload : PublicationPayload → Bytes32

/-- `PublishProjectionInput`, and what is ingested when it is published. -/
structure PublishProjectionInput (P : Type) where
  activationBlock : ℕ
  algorithmVersion : String
  blockNumber : ℕ
  blockHash : Bytes32
  generation : ℕ
  records : List (ProjectionRecord P)
  ingested : Ingested

/-- The block that a publication is made at. -/
def PublishProjectionInput.revision {P : Type} (input : PublishProjectionInput P) : Revision :=
  ⟨input.blockNumber, input.blockHash⟩

/-! ### Checks -/

variable {P : Type}

/-- One turn of the loop over the records. -/
def checkRecord (e : Encoding P) (identities : List String) (record : ProjectionRecord P) :
    Except JsError (List String) := do
  throwIf (record.identity = "" ∨ jsLength record.identity > 512 ∨ record.sortKey = "" ∨
      jsLength record.sortKey > 512 ∨ record.identity ∈ identities)
    "projection record identity is invalid or duplicated"
  throwIf (e.byteLength record.payload > 262144) "projection record payload is too large"
  return record.identity :: identities

/-- The input of a publication is of the right form, and so are its records, each of which comes
once. -/
def validateInput (e : Encoding P) (input : PublishProjectionInput P) : Except JsError Unit := do
  throwIf (isToken input.algorithmVersion = false)
    "projection scope or algorithm version is invalid"
  throwIf (input.blockNumber < input.activationBlock) "projection bounds are invalid"
  let _ ← input.records.foldlM (checkRecord e) []

/-- The walk over the ranges, in order: the first block they do not cover. -/
def coveredTo (cursor : ℕ) : List CoveredRange → ℕ
  | [] => cursor
  | r :: ranges =>
    if r.fromBlock > cursor then cursor
    else coveredTo (if r.toBlock ≥ cursor then r.toBlock + 1 else cursor) ranges

/-- The block of a publication is canonical and final, and everything up to it was ingested under
the generation of the caller. -/
def assertPublishableAnchor (input : PublishProjectionInput P) : Except JsError Unit := do
  throwIf (¬ ∃ b ∈ input.ingested.blocks, b.number = input.blockNumber ∧
      b.hash = input.blockHash ∧ b.canonical = true ∧ b.finalized = true)
    "publication anchor is not canonical and finalized"
  throwIf (¬ ∃ c ∈ input.ingested.checkpoint, input.blockNumber < c.1 ∧ c.2 = input.generation)
    "ingestion checkpoint does not cover publication anchor and generation"
  let ranges := (input.ingested.ranges.filter fun r => r.generation = input.generation ∧
      r.complete = true ∧ r.toBlock ≥ input.activationBlock ∧
      r.fromBlock ≤ input.blockNumber).insertionSort fun r r' =>
    r.fromBlock < r'.fromBlock ∨ r.fromBlock = r'.fromBlock ∧ r.toBlock ≤ r'.toBlock
  throwIf (coveredTo input.activationBlock ranges ≤ input.blockNumber)
    "publication scope has an incomplete covered range"

/-! ### Statements -/

/-- The content of a record. -/
def row (e : Encoding P) (r : ProjectionRecord P) : String × Content P :=
  (r.identity, ⟨r.sortKey, e.digest r.payload, r.payload⟩)

/-- `new Map(rows.map(row => [row.identity, row]))`. -/
def mapOf (rows : List (String × Content P)) : Table String (Content P) :=
  rows.foldl (fun m x => m.insert x.1 x.2) ∅

/-- Insert new versions. The primary key is the identity and `valid_from`, and there is an index
of the open versions that is unique too. -/
def insertVersions (h : ℕ) (rows : List (String × Content P)) (versions : List (MarketVersion P)) :
    Except JsError (List (MarketVersion P)) :=
  rows.foldlM (fun versions x => do
    throwIf (∃ v ∈ versions, v.key = x.1 ∧ v.validFrom = h)
      "duplicate key value violates unique constraint \"market_record_versions_pkey\""
    throwIf (∃ v ∈ versions, v.key = x.1 ∧ v.validTo = none)
      "duplicate key value violates unique constraint \"market_version_current\""
    return versions ++ [⟨x.1, h, none, x.2⟩]) versions

variable [DecidableEq P]

/-- The saved version has another content than the expected one. -/
def Differs (v : MarketVersion P) (x : String × Content P) : Prop :=
  v.key = x.1 ∧ (v.value.sortKey ≠ x.2.sortKey ∨ v.value.payloadDigest ≠ x.2.payloadDigest ∨
    v.value.payload ≠ x.2.payload)

instance (v : MarketVersion P) (x : String × Content P) : Decidable (Differs v x) :=
  inferInstanceAs (Decidable (_ ∧ _))

/-- The two statements for a batch of changed records. -/
def writeBatch (h : ℕ) (versions : List (MarketVersion P)) (batch : List (String × Content P)) :
    Except JsError (List (MarketVersion P)) :=
  let versions := Temporal.close
    (fun v => v.validTo = none ∧ v.validFrom < h ∧ ∃ x ∈ batch, Differs v x) h versions
  insertVersions h
    (batch.filter fun x => ¬ ∃ v ∈ versions, v.key = x.1 ∧ Temporal.Version.ValidAt v h) versions

/-- The comparison of a batch with what is saved. -/
def verifyBatch (h : ℕ) (versions : List (MarketVersion P)) (batch : List (String × Content P)) :
    Except JsError Unit := do
  let verified := (Temporal.read versions h).filter fun x => x.1 ∈ batch.map Prod.fst
  let saved := mapOf verified
  throwIf (verified.length ≠ batch.length ∨ saved.entries.length ≠ batch.length)
    "projection record population conflict"
  batch.forM fun x => throwIf (saved.lookup x.1 ≠ some x.2) "projection record identity conflict"

/-! ### Full publications -/

/-- The insertion of a publication, which may be there already, with the same evidence. -/
def insertPublication (publications : Table Revision Publication) (revision : Revision)
    (p : Publication) : Except JsError (Bool × Table Revision Publication) :=
  match publications.lookup revision with
  | none => return (false, publications.insert revision p)
  | some existing => do
    throwIf (existing ≠ p) "publication revision already exists with different evidence"
    return (true, publications)

/-- The pointer moves forward. -/
def checkPointer (pointer : Option Revision) (revision : Revision) : Except JsError Unit :=
  throwIf (∃ current ∈ pointer, current.blockNumber > revision.blockNumber ∨
      current.blockNumber = revision.blockNumber ∧ current ≠ revision)
    "publication pointer cannot move backwards or across a same-height fork"

/-- The records in the order they are hashed in. -/
def normalize (e : Encoding P) (records : List (ProjectionRecord P)) : List (ProjectionRecord P) :=
  records.insertionSort fun left right =>
    ((e.localeCompare left.sortKey right.sortKey).then
      (e.localeCompare left.identity right.identity)).isLE = true

/-- The records whose current version has another sort key or another digest, or is missing. -/
def changedRows (current : Table String (Content P)) (expected : List (String × Content P)) :
    List (String × Content P) :=
  expected.filter fun x => match current.lookup x.1 with
    | none => true
    | some prior => prior.sortKey ≠ x.2.sortKey ∨ prior.payloadDigest ≠ x.2.payloadDigest

/-- The publication a full publication writes. -/
def fullPublication (e : Encoding P) (input : PublishProjectionInput P) : Publication where
  generation := input.generation
  payloadDigest := e.digestRecords (normalize e input.records)
  payload := {
    algorithmVersion := input.algorithmVersion
    fromBlock := input.activationBlock
    toBlock := input.blockNumber
    recordCount := (normalize e input.records).length
    storage := some "market-versions-v1"
    delta := none }

/-- Close what is not published any more. -/
def closeMissing (h : ℕ) (identities : List String) (versions : List (MarketVersion P)) :
    List (MarketVersion P) :=
  Temporal.close (fun v => v.validTo = none ∧ v.validFrom < h ∧ v.key ∉ identities) h versions

/-- All records of a scope are published at a block, in place of those of the publication before.
The answer is no if that very publication was made already. -/
def publishProjection (e : Encoding P) (input : PublishProjectionInput P) (s : Store P) :
    Except JsError (Bool × Store P) := do
  validateInput e input
  let h := input.blockNumber
  let normalized := normalize e input.records
  assertPublishableAnchor input
  let (duplicate, publications) ←
    insertPublication s.publications input.revision (fullPublication e input)
  let expected := normalized.map (row e)
  let writes := changedRows (mapOf (Temporal.read s.versions h)) expected
  let versions ← (Reducer.batches 250 writes).foldlM (writeBatch h) s.versions
  let versions := closeMissing h (normalized.map ProjectionRecord.identity) versions
  throwIf ((Temporal.read versions h).length ≠ expected.length)
    "projection record population conflict"
  (Reducer.batches 250 expected).forM (verifyBatch h versions)
  checkPointer s.pointer input.revision
  return (duplicate, ⟨versions, publications, some input.revision⟩)

/-! ### Deltas -/

/-- The input of a delta. -/
structure MarketDeltaInput (P : Type) extends PublishProjectionInput P where
  baseRevision : Revision
  removed : List String
  expectedPopulation : ℕ

/-- The record that an entry of a delta is about. -/
def DeltaEntry.identity : DeltaEntry → String
  | .changed identity _ _ => identity
  | .removed identity => identity

/-- What the walk over a batch has found: the records to write, the identities whose version is
to be closed, and the size of the population. -/
structure DeltaWork (P : Type) where
  changed : List (ProjectionRecord P)
  closing : List String
  population : ℤ

/-- One entry of a delta, against the base. -/
def deltaEntry (prior : Table String (Content P)) (recordById : String → Option (ProjectionRecord P))
    (w : DeltaWork P) : DeltaEntry → Except JsError (DeltaWork P)
  | .removed identity => do
    throwIf (prior.lookup identity = none) "removed market is absent from base"
    return { w with closing := w.closing ++ [identity], population := w.population - 1 }
  | .changed identity sortKey payloadDigest =>
    match recordById identity with
    | none => return w -- every entry comes from a record
    | some value => match prior.lookup identity with
      | none => return {
          w with changed := w.changed ++ [value], population := w.population + 1 }
      | some previous =>
        if previous.payloadDigest ≠ payloadDigest ∨ previous.sortKey ≠ sortKey ∨
            previous.payload ≠ value.payload then
          return { w with changed := w.changed ++ [value], closing := w.closing ++ [identity] }
        else return w

/-- Close the versions of the base that a batch replaces or removes. -/
def closeDelta (h base : ℕ) (closing : List String) (versions : List (MarketVersion P)) :
    Except JsError (List (MarketVersion P)) := do
  throwIf ((versions.filter fun v => v.key ∈ closing ∧ v.validFrom ≤ base ∧
      v.validTo = none).length ≠ closing.length) "market delta closing conflict"
  return Temporal.close (fun v => v.key ∈ closing ∧ v.validFrom ≤ base ∧ v.validTo = none) h
    versions

/-- One batch of entries. An insertion returns what it has inserted, so that the comparison of the
two never fails and is left out. -/
def deltaBatch (e : Encoding P) (h base : ℕ) (recordById : String → Option (ProjectionRecord P))
    (s : List (MarketVersion P) × ℤ) (batch : List DeltaEntry) :
    Except JsError (List (MarketVersion P) × ℤ) := do
  let old := (Temporal.read s.1 base).filter fun x => x.1 ∈ batch.map DeltaEntry.identity
  let work ← batch.foldlM (deltaEntry (mapOf old) recordById) ⟨[], [], s.2⟩
  let versions ← closeDelta h base work.closing s.1
  let versions ← insertVersions h (work.changed.map (row e)) versions
  return (versions, work.population)

/-- The entries of a delta, in the order of the identities. -/
def deltaEntries (e : Encoding P) (records : List (ProjectionRecord P)) (removed : List String) :
    List DeltaEntry :=
  let records := records.insertionSort fun a b => (e.localeCompare a.identity b.identity).isLE = true
  let removed := removed.insertionSort fun a b => e.codeUnitLe a b = true
  (records.map (fun r => DeltaEntry.changed r.identity r.sortKey (e.digest r.payload)) ++
    removed.map DeltaEntry.removed).insertionSort fun a b =>
      (e.localeCompare a.identity b.identity).isLE = true

/-- The base of a delta, if it can be one. -/
def deltaBase (input : MarketDeltaInput P) (s : Store P) : Option Publication :=
  (s.publications.lookup input.baseRevision).filter fun base =>
    (∃ b ∈ input.ingested.blocks, b.hash = input.baseRevision.blockHash ∧ b.canonical = true ∧
      b.finalized = true) ∧
    base.payload.storage = some "market-versions-v1" ∧ base.generation = input.generation ∧
    input.baseRevision.blockNumber < input.blockNumber ∧
    base.payload.recordCount ≤ maxSafeInteger

/-- How many deltas lie between a publication and the full one below it. -/
def Publication.depth (p : Publication) : ℕ := p.payload.delta.elim 0 DeltaCommitment.deltaDepth

/-- The publication a delta writes. -/
def deltaPublication (e : Encoding P) (input : MarketDeltaInput P) (base : Publication) :
    Publication :=
  let payload : PublicationPayload := {
    algorithmVersion := input.algorithmVersion
    fromBlock := input.activationBlock
    toBlock := input.blockNumber
    recordCount := input.expectedPopulation
    storage := some "market-versions-v1"
    delta := some {
      deltaDepth := base.depth + 1
      baseRevision := input.baseRevision
      baseDigest := base.payloadDigest
      entries := deltaEntries e input.records input.removed } }
  ⟨input.generation, e.digestPayload payload, payload⟩

/-- The work of a delta that is not there yet. -/
def applyDelta (e : Encoding P) (input : MarketDeltaInput P) (base : Publication) (s : Store P) :
    Except JsError (Store P) := do
  let h := input.blockNumber
  throwIf (s.pointer ≠ some input.baseRevision) "market delta base was superseded"
  let recordById := fun identity => input.records.find? fun r => r.identity = identity
  let entries := deltaEntries e input.records input.removed
  let (versions, population) ← (Reducer.batches 250 entries).foldlM
    (deltaBatch e h input.baseRevision.blockNumber recordById)
    (s.versions, (base.payload.recordCount : ℤ))
  throwIf (population ≠ input.expectedPopulation) "market delta population mismatch"
  throwIf (((Temporal.read versions h).length : ℤ) ≠ population)
    "market delta stored population conflict"
  return ⟨versions, s.publications.insert input.revision (deltaPublication e input base),
    some input.revision⟩

/-- What has changed of a scope is published at a block, over the publication it names as the one
before. -/
def publishMarketDelta (e : Encoding P) (input : MarketDeltaInput P) (s : Store P) :
    Except JsError (Bool × Store P) := do
  validateInput e input.toPublishProjectionInput
  throwIf (input.expectedPopulation > maxSafeInteger) "invalid market delta"
  throwIf (¬ input.removed.Nodup ∨ ∃ identity ∈ input.removed, ∃ r ∈ input.records,
      r.identity = identity) "overlapping market delta"
  assertPublishableAnchor input.toPublishProjectionInput
  match deltaBase input s with
  | none => throwJs "market delta base is unavailable"
  | some base => do
    throwIf (base.depth ≥ 256) "market delta requires a full checkpoint"
    match s.publications.lookup input.revision with
    | some existing => do
      throwIf (existing.payloadDigest ≠ (deltaPublication e input base).payloadDigest ∨
          existing.payload ≠ (deltaPublication e input base).payload)
        "publication revision already exists with different evidence"
      return (true, s)
    | none => do
      let s ← applyDelta e input base s
      return (false, s)

end MarketVersions

end Backend

end TickerGarden
