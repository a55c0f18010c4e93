import TickerGarden.Backend.HolderSnapshot
import TickerGarden.Lib.Interaction

/-!
# Publishing a snapshot

`publishSnapshotOnce` signs the transaction that publishes the datasets of a round, keeps it in
a journal and sends it; `reconcilePublication` finds out what became of it. Both are programs
here (`Interaction.Program`): a request is a call of a provider, the signer, a file, or an
access to the journal that the process has in its memory, and every request may fail. Requests
that the source makes together are made one after the other here.

What the two programs take from elsewhere are pure functions on transactions and logs
(`Services`) and the preview of a publication, which reads and simulates only and whose answer
may be any (`Request.preview`).

| source file                      | functions                                              |
|----------------------------------|--------------------------------------------------------|
| `holder-publication.ts`          | all                                                    |
| `holder-publication-journal.ts`  | `save`                                                 |
| `holder-publication-cli.ts`      | `runHolderPublicationCommand`                          |
| `chain/src/index.ts`             | `consensusBlock`, `block`                              |
-/

namespace TickerGarden

open Checked

namespace Backend

namespace HolderPublication

open HolderSnapshot Interaction

/-- Bytes that the code keeps as a text in hexadecimal. -/
abbrev Hex := List UInt8

/-! ### Data -/

/-- `SnapshotArtifact`, as far as it is read. -/
structure SnapshotArtifact where
  input : SnapshotContext
  root : Bytes32
  dataHash : Bytes32
  quoteBudget : ℕ
  memeBudget : ℕ
deriving DecidableEq

/-- What the publisher is configured with: its account, the most it pays for gas, how deep a block
must be before it is believed, and for how long an intent may be pending. -/
structure PublicationPolicy where
  publisher : Address
  maxGasWei : ℤ
  confirmations : ℤ
  finalitySeconds : ℤ
  finalityMode : Option String
  intentMaxAgeSeconds : ℤ
deriving DecidableEq

/-- A transaction to be signed; its type is `legacy`. -/
structure PublicationTransaction where
  chainId : ℤ
  toAddress : Address
  data : Hex
  value : ℕ
  gas : ℕ
  gasPrice : ℕ
  nonce : ℕ
deriving DecidableEq

/-- What a signed transaction is read back as. -/
structure ParsedTransaction where
  chainId : Option ℤ
  toAddress : Option Address
  data : Option Hex
  value : Option ℕ
  nonce : Option ℕ
  type : String
  gas : Option ℕ
  gasPrice : Option ℕ
deriving DecidableEq

/-- A transaction that was signed and may have been sent: what it publishes, its bytes and hash, the
nonce it uses, and until when it is waited for. -/
structure PublicationIntent where
  dataHash : Bytes32
  root : Bytes32
  marketId : Bytes32
  round : ℕ
  distributor : Address
  publisher : Address
  chainId : ℤ
  releaseId : Bytes32
  batchDataHashes : Option (List Bytes32)
  hash : Bytes32
  raw : Hex
  nonce : ℕ
  createdAt : ℕ
  expiresAt : ℤ
deriving DecidableEq

/-- What a run of the publisher reports. -/
inductive PublicationStatus
  | alreadyPublished
  | noPendingIntent
  | pending
  | confirming
  | confirmed
  | reverted
  | pendingNonceReconciliation
deriving DecidableEq

/-- How the last intent ended. -/
structure Last where
  status : PublicationStatus
  dataHash : Bytes32
  hash : Bytes32
  blockNumber : ℕ
  blockHash : Bytes32
  gasWei : ℕ
deriving DecidableEq

/-- The row that the publisher keeps over its runs: the intent that is pending, how the last one
ended, and the last error. -/
structure PublicationJournal where
  chainId : ℤ
  releaseId : Bytes32
  publisher : Address
  pending : Option PublicationIntent
  last : Option Last
  lastError : Option JsError
deriving DecidableEq

/-- A block, as far as it is read from a provider. -/
structure RpcBlock where
  number : ℕ
  hash : Bytes32
  parentHash : Bytes32
  timestamp : ℕ
deriving DecidableEq

/-- A log of a receipt. -/
structure ReceiptLog where
  address : Address
  data : Hex
  topics : List Bytes32
deriving DecidableEq

/-- A receipt, as a provider returns it: where the transaction was included, whether it succeeded,
and what its gas came to. -/
structure Receipt where
  transactionHash : Bytes32
  blockHash : Bytes32
  blockNumber : ℕ
  status : String
  gasUsed : ℕ
  effectiveGasPrice : ℕ
  logs : List ReceiptLog
deriving DecidableEq

/-- What is published of a dataset, in a call and in `HolderSnapshotPublished`. -/
structure Publication where
  marketId : Bytes32
  round : ℕ
  snapshotBlock : ℕ
  snapshotBlockHash : Bytes32
  root : Bytes32
  dataHash : Bytes32
  quoteBudget : ℕ
  memeBudget : ℕ
deriving DecidableEq

/-- What `previewSnapshotPublication` returns. -/
inductive Preview
  | alreadyPublished (headBlock : ℕ)
  | publisherUnconfigured (headBlock : ℕ)
  | simulatedNotBroadcast (sender toAddress : Address) (data : Hex) (headBlock : ℕ) (dataHash : Bytes32)
deriving DecidableEq

/-- Whether the chain already has what is to be published. -/
def Preview.published : Preview → Bool
  | .alreadyPublished _ => true
  | _ => false

/-- The block that a preview was made at. -/
def Preview.headBlock : Preview → ℕ
  | .alreadyPublished n | .publisherUnconfigured n | .simulatedNotBroadcast _ _ _ n _ => n

/-- A call that is simulated. -/
structure CallRequest where
  sender : Address
  toAddress : Address
  data : Hex
  gas : Option ℕ
deriving DecidableEq

/-- The functions of the libraries, and the check of a dataset. -/
structure Services where
  keccak256 : Hex → Bytes32
  parseTransaction : Hex → Except JsError ParsedTransaction
  recoverTransactionAddress : Hex → Except JsError Address
  encodePublishSnapshots : List Publication → Hex
  /-- The event `HolderSnapshotPublished` a log decodes to, if it does. -/
  decodePublished : ReceiptLog → Option Publication
  verifySnapshotArtifact : SnapshotArtifact → Except JsError Unit

/-- What the publisher runs on: the libraries, the deployment, the policy, and whether its two
providers are two. -/
structure PublicationDependencies where
  services : Services
  chainId : ℤ
  deploymentDigest : Bytes32
  /-- Whether the two providers are one. -/
  sameSource : Bool
  policy : PublicationPolicy

/-! ### Requests -/

/-- The two nodes that the publisher reads from. What it believes of the chain, both have to say. -/
inductive Provider
  | primary
  | secondary
deriving DecidableEq

/-- What the publisher asks of the outside: of the nodes, of the signer, of its journal, and of the
lock of its account. A process may stop at any of these. -/
inductive Request
  | chainId (provider : Provider)
  | latest (provider : Provider)
  | block (provider : Provider) (number : ℕ)
  | finalizedBlock (provider : Provider)
  | receipt (provider : Provider) (hash : Bytes32)
  | transactionCount (provider : Provider) (account : Address) (tag : String)
  | estimateGas (provider : Provider) (tx : CallRequest)
  | gasPrice
  | balance (account : Address)
  | call (provider : Provider) (tx : CallRequest) (block : Option ℕ)
  | preview (dataset : SnapshotArtifact)
  | sign (tx : PublicationTransaction)
  | sendRawTransaction (raw : Hex)
  | journal
  | setJournal (journal : PublicationJournal)
  | save (journal : PublicationJournal)
  | enterLane
  | leaveLane
deriving DecidableEq

/-- What a request is answered with. -/
abbrev Request.Result : Request → Type
  | .chainId _ => ℤ
  | .latest _ | .transactionCount .. | .estimateGas .. | .gasPrice | .balance _ => ℕ
  | .block .. | .finalizedBlock _ => RpcBlock
  | .receipt .. => Option Receipt
  | .preview _ => Preview
  | .sign _ => Hex
  | .sendRawTransaction _ => Bytes32
  | .journal => PublicationJournal
  | .call .. | .setJournal _ | .save _ | .enterLane | .leaveLane => Unit

/-- An answer: the result that the request is for, or the error that the call throws. -/
abbrev Answer (r : Request) : Type := Except JsError r.Result

/-- A program of the publisher. -/
abbrev Publisher (α : Type) : Type := Program Request Answer JsError α

/-- A request whose failure is the failure of the program. -/
def ask (r : Request) : Publisher r.Result := .ask r Program.lift

/-- `throw`. -/
def throwUnless (c : Prop) [Decidable c] (message : String) : Publisher Unit :=
  Program.lift (throwIf (¬c) message)

/-! ### Checks -/

/-- `artifacts`: at most 32 markets of one deployment. -/
def artifacts (rows : List SnapshotArtifact) : Except JsError (List SnapshotArtifact) :=
  match rows with
  | [] => throwJs "Publication batch requires 1 to 32 distinct markets"
  | first :: rest => do
    throwIf (rows.length > 32 ∨ ¬(rows.map fun r => r.input.marketId).Nodup)
      "Publication batch requires 1 to 32 distinct markets"
    throwIf (∃ r ∈ rest, r.input.chainId ≠ first.input.chainId ∨
        r.input.deploymentDigest ≠ first.input.deploymentDigest ∨
        r.input.distributor ≠ first.input.distributor)
      "Publication batch deployment mismatch"
    return rows

/-- What is published of a dataset. -/
def SnapshotArtifact.publication (dataset : SnapshotArtifact) : Publication where
  marketId := dataset.input.marketId
  round := dataset.input.round
  snapshotBlock := dataset.input.snapshotBlock
  snapshotBlockHash := dataset.input.snapshotBlockHash
  root := dataset.root
  dataHash := dataset.dataHash
  quoteBudget := dataset.quoteBudget
  memeBudget := dataset.memeBudget

variable (d : PublicationDependencies)

/-- `calldata`, of rows that are a batch. -/
def calldata (rows : List SnapshotArtifact) : Hex :=
  d.services.encodePublishSnapshots (rows.map SnapshotArtifact.publication)

/-- `validate`. -/
def validate (journal : PublicationJournal) (dataset : SnapshotArtifact) : Except JsError Unit := do
  d.services.verifySnapshotArtifact dataset
  let p := d.policy
  throwIf (p.finalityMode ≠ none ∧ p.finalityMode ≠ some "finalized" ∧
      p.finalityMode ≠ some "delay")
    "Invalid publication policy"
  throwIf (p.publisher = 0 ∨ p.maxGasWei ≤ 0 ∨ p.confirmations < 2 ∨ p.finalitySeconds < 0 ∨
      p.intentMaxAgeSeconds < 30 ∨ p.intentMaxAgeSeconds > 300)
    "Invalid publication policy"
  throwIf (journal.chainId ≠ d.chainId ∨ journal.releaseId ≠ d.deploymentDigest ∨
      journal.publisher ≠ p.publisher ∨ dataset.input.chainId ≠ journal.chainId ∨
      dataset.input.deploymentDigest ≠ journal.releaseId)
    "Publication journal/deployment mismatch"

/-- `validateIntent`. -/
def validateIntent (journal : PublicationJournal) (rows : List SnapshotArtifact)
    (ds : SnapshotArtifact) (row : PublicationIntent) : Except JsError Unit := do
  throwIf (row.batchDataHashes.getD [row.dataHash] ≠ rows.map SnapshotArtifact.dataHash)
    "Pending batch differs from signed datasets"
  throwIf (row.chainId ≠ journal.chainId ∨ row.releaseId ≠ journal.releaseId ∨
      row.publisher ≠ d.policy.publisher ∨ row.dataHash ≠ ds.dataHash ∨ row.root ≠ ds.root ∨
      row.marketId ≠ ds.input.marketId ∨ row.round ≠ ds.input.round ∨
      row.distributor ≠ ds.input.distributor ∨ d.services.keccak256 row.raw ≠ row.hash)
    "Pending intent belongs to another dataset or is corrupt"
  let tx ← d.services.parseTransaction row.raw
  let recovered ← d.services.recoverTransactionAddress row.raw
  throwIf (tx.chainId ≠ some row.chainId ∨ tx.toAddress ≠ some row.distributor ∨
      tx.data ≠ some (calldata d rows) ∨ tx.value.getD 0 ≠ 0 ∨ tx.nonce ≠ some row.nonce ∨
      tx.type ≠ "legacy" ∨ tx.gas = none ∨ tx.gasPrice = none ∨
      (tx.gas.getD 0 * tx.gasPrice.getD 0 : ℤ) > d.policy.maxGasWei ∨ recovered ≠ row.publisher)
    "Signed publication intent mismatch"

/-- `publicationReceiptMatches`: whether the transaction of a receipt succeeded, when its
events are those of the datasets. -/
def publicationReceiptMatches (receipt : Receipt) (row : PublicationIntent)
    (rows : List SnapshotArtifact) : Except JsError Bool := do
  throwIf (receipt.transactionHash ≠ row.hash) "Receipt transaction mismatch"
  throwIf (receipt.status ≠ "0x1" ∧ receipt.status ≠ "0x0") "Invalid publication receipt status"
  if receipt.status ≠ "0x1" then return false
  else
    let events := (receipt.logs.filter fun l => l.address = row.distributor).filterMap
      d.services.decodePublished
    throwIf (events.length ≠ rows.length) "Unexpected snapshot publication event count"
    rows.forM fun ds =>
      throwIf ((events.filter fun e => e.marketId = ds.input.marketId) ≠ [ds.publication])
        "Published event differs from signed dataset"
    return true

/-! ### Reading the chain -/

/-- `chains`: both providers are of the chain of the journal. -/
def chains : Publisher Unit := do
  let journal ← ask .journal
  let primary ← ask (.chainId .primary)
  throwUnless (primary = journal.chainId) "Publication RPC chain mismatch"
  let secondary ← ask (.chainId .secondary)
  throwUnless (secondary = journal.chainId) "Publication RPC chain mismatch"

/-- `block`, of a provider. -/
def blockOf (provider : Provider) (number : ℕ) : Publisher RpcBlock := do
  let block ← ask (.block provider number)
  throwUnless (block.number = number) "RPC block identity is invalid"
  return block

/-- `consensusBlock`: the block the providers agree on. -/
def consensusBlock (number : ℕ) : Publisher RpcBlock := do
  let first ← blockOf .primary number
  if d.sameSource then return first
  else
    let second ← blockOf .secondary number
    throwUnless (first.hash = second.hash ∧ first.parentHash = second.parentHash ∧
      first.timestamp = second.timestamp) "RPC providers disagree on block identity"
    return first

/-- `head`: the block at the lower of the two heights. -/
def head : Publisher RpcBlock := do
  let primary ← ask (.latest .primary)
  let secondary ← ask (.latest .secondary)
  consensusBlock d (min primary secondary)

/-- `preflight`. -/
def preflight (dataset : SnapshotArtifact) : Publisher Preview := do
  let p ← ask (.preview dataset)
  match p with
  | .publisherUnconfigured _ => Program.fail ⟨"Snapshot publisher is not configured"⟩
  | .simulatedNotBroadcast sender toAddress data _ dataHash =>
    throwUnless (sender = d.policy.publisher ∧ toAddress = dataset.input.distributor ∧
        data = calldata d [dataset] ∧ dataHash = dataset.dataHash)
      "Preview identity/calldata mismatch"
    return p
  | .alreadyPublished _ => return p

/-- The previews of the datasets, one after the other. -/
def preflights : List SnapshotArtifact → Publisher (List Preview)
  | [] => return []
  | row :: rows => do
    let p ← preflight d row
    let ps ← preflights rows
    return p :: ps

/-- `preflightBatch`: whether all is published already, and the height this was seen at. A
batch is simulated once more as a whole. -/
def preflightBatch (rows : List SnapshotArtifact) (ds : SnapshotArtifact) :
    Publisher (Bool × ℕ) := do
  let results ← preflights d rows
  let published := (results.filter Preview.published).length
  throwUnless (published = 0 ∨ published = rows.length)
    "Publication batch partially published; reconcile datasets before signing"
  match results with
  | [result] => return (result.published, result.headBlock)
  | _ =>
    let current ← head d
    if published = 0 then
      let tx : CallRequest := ⟨d.policy.publisher, ds.input.distributor, calldata d rows, none⟩
      ask (.call .primary tx (some current.number))
      ask (.call .secondary tx (some current.number))
    let again ← consensusBlock d current.number
    throwUnless (again.hash = current.hash) "Publication batch simulation anchor changed"
    return ((results.head?.map Preview.published).getD false, current.number)

/-! ### What became of an intent -/

/-- What a command reports: where the publication is, or how its intent ended. -/
inductive Outcome
  | report (status : PublicationStatus) (hash : Option Bytes32) (dataHash : Bytes32)
  | ended (last : Last)
deriving DecidableEq

/-- The status of an outcome, whether the report was made or the intent has ended. -/
def Outcome.status : Outcome → PublicationStatus
  | report status _ _ => status
  | ended last => last.status

/-- The checks both commands begin with. -/
def begin (input : List SnapshotArtifact) : Publisher (List SnapshotArtifact × SnapshotArtifact) := do
  let rows ← Program.lift (artifacts input)
  match rows with
  | [] => Program.fail ⟨"Publication batch requires 1 to 32 distinct markets"⟩
  | ds :: _ =>
    let journal ← ask .journal
    Program.lift (rows.forM (validate d journal))
    chains
    return (rows, ds)

/-- Whether the finality of the policy has been reached at a height. -/
def settledAt (height : ℕ) (block current : RpcBlock) : Publisher Bool :=
  if d.policy.finalityMode = some "finalized" then do
    let primary ← ask (.finalizedBlock .primary)
    let secondary ← ask (.finalizedBlock .secondary)
    let primaryAgain ← consensusBlock d primary.number
    throwUnless (primaryAgain.hash = primary.hash) "Publication finalized anchor changed"
    let secondaryAgain ← consensusBlock d secondary.number
    throwUnless (secondaryAgain.hash = secondary.hash) "Publication finalized anchor changed"
    return decide (height ≤ min primary.number secondary.number)
  else
    return decide ((current.timestamp : ℤ) ≥ block.timestamp + d.policy.finalitySeconds)

/-- The receipt of an intent, from both providers, with the block it is in. -/
def settle (rows : List SnapshotArtifact) (ds : SnapshotArtifact) (row : PublicationIntent)
    (a b : Receipt) : Publisher Outcome := do
  throwUnless (a.transactionHash = b.transactionHash ∧ a.blockHash = b.blockHash ∧
      a.blockNumber = b.blockNumber ∧ a.status = b.status ∧ a.logs = b.logs)
    "Publication receipt RPC disagreement"
  let height := a.blockNumber
  let current ← head d
  if current.number < height then return .report .confirming (some row.hash) ds.dataHash
  else
    let block ← consensusBlock d height
    throwUnless (block.hash = a.blockHash) "Publication receipt is orphaned"
    let settled ← settledAt d height block current
    if ((current.number : ℤ) - height + 1 < d.policy.confirmations) ∨ settled = false then
      return .report .confirming (some row.hash) ds.dataHash
    else
      let success ← Program.lift (publicationReceiptMatches d a row rows)
      if success then
        let (published, _) ← preflightBatch d rows ds
        throwUnless (published = true) "Confirmed receipt has no matching current round"
      let again ← consensusBlock d height
      throwUnless (again.hash = a.blockHash) "Publication confirmation anchor changed"
      let status : PublicationStatus := if success then .confirmed else .reverted
      let journal ← ask .journal
      let last : Last :=
        ⟨status, ds.dataHash, row.hash, height, a.blockHash, a.gasUsed * a.effectiveGasPrice⟩
      let journal' : PublicationJournal := { journal with last := some last, pending := none }
      ask (.setJournal journal')
      ask (.save journal')
      return .ended last

/-- **`reconcilePublication`.** -/
def reconcilePublication (input : List SnapshotArtifact) : Publisher Outcome := do
  let (rows, ds) ← begin d input
  let journal ← ask .journal
  match journal.pending with
  | none =>
    let (published, _) ← preflightBatch d rows ds
    return .report (if published then .alreadyPublished else .noPendingIntent) none ds.dataHash
  | some row =>
    Program.lift (validateIntent d journal rows ds row)
    let primary ← ask (.receipt .primary row.hash)
    let secondary ← ask (.receipt .secondary row.hash)
    match primary, secondary with
    | some a, some b => settle d rows ds row a b
    | _, _ => return .report .pending (some row.hash) ds.dataHash

/-! ### Sending an intent, and making one -/

/-- `eth_sendRawTransaction`, and the check of its answer. -/
def submit (row : PublicationIntent) : Publisher Unit :=
  Program.tryCatch
    (do
      let sent ← ask (.sendRawTransaction row.raw)
      throwUnless (sent = row.hash) "Wrong transaction hash")
    fun _ => Program.fail ⟨"Publication submission uncertain; original signed intent retained"⟩

/-- The intent has not expired at the head. -/
def notExpired (row : PublicationIntent) : Publisher Unit := do
  let current ← head d
  throwUnless ((current.timestamp : ℤ) < row.expiresAt)
    "Unresolved publication intent expired; do not replace before nonce reconciliation"

/-- `sendPending`, with the intent that is pending. -/
def sendPending (input rows : List SnapshotArtifact) (ds : SnapshotArtifact)
    (row : PublicationIntent) : Publisher Outcome := do
  let result ← reconcilePublication d input
  if result.status ≠ .pending then return result
  else
    let primary ← ask (.transactionCount .primary row.publisher "latest")
    let secondary ← ask (.transactionCount .secondary row.publisher "latest")
    throwUnless (primary ≤ row.nonce ∧ secondary ≤ row.nonce)
      "Publication nonce consumed without matching receipts; reconcile manually"
    notExpired d row
    let (published, _) ← preflightBatch d rows ds
    if published then return .report .pendingNonceReconciliation (some row.hash) ds.dataHash
    else
      notExpired d row
      submit row
      reconcilePublication d input

/-- The nonce of an account, the same at both providers with and without what is pending. -/
def nonces (account : Address) : Publisher (ℕ × ℕ × ℕ × ℕ) := do
  let primaryLatest ← ask (.transactionCount .primary account "latest")
  let primaryPending ← ask (.transactionCount .primary account "pending")
  let secondaryLatest ← ask (.transactionCount .secondary account "latest")
  let secondaryPending ← ask (.transactionCount .secondary account "pending")
  return (primaryLatest, primaryPending, secondaryLatest, secondaryPending)

/-- What is to be signed, with the block it is signed at. -/
def prepare (rows : List SnapshotArtifact) (ds : SnapshotArtifact) (signer : Address) :
    Publisher (Option (PublicationTransaction × RpcBlock)) := do
  let (published, _) ← preflightBatch d rows ds
  if published then return none
  else
    let tx : CallRequest := ⟨signer, ds.input.distributor, calldata d rows, none⟩
    let (nonce, primaryPending, secondaryLatest, secondaryPending) ← nonces signer
    throwUnless ((primaryPending = nonce ∧ secondaryLatest = nonce ∧ secondaryPending = nonce) ∧
        nonce ≤ maxSafeInteger)
      "Publisher nonce disagreement or outstanding transaction"
    let primaryGas ← ask (.estimateGas .primary tx)
    let secondaryGas ← ask (.estimateGas .secondary tx)
    let gas := (max primaryGas secondaryGas * 120 + 99) / 100
    let price ← ask .gasPrice
    let gasPrice := (price * 120 + 99) / 100
    throwUnless (0 < gas ∧ 0 < gasPrice ∧ (gas * gasPrice : ℤ) ≤ d.policy.maxGasWei)
      "Publication exceeds configured gas cost cap"
    let balance ← ask (.balance signer)
    throwUnless (gas * gasPrice ≤ balance) "Publisher gas balance insufficient"
    let (published, headBlock) ← preflightBatch d rows ds
    if published then return none
    else
      let current ← head d
      throwUnless (headBlock ≤ current.number ∧ current.number - headBlock ≤ 2)
        "Publication preflight became stale"
      ask (.call .primary { tx with gas := some gas } none)
      ask (.call .secondary { tx with gas := some gas } none)
      let (again, primaryPending, secondaryLatest, secondaryPending) ← nonces signer
      throwUnless (again = nonce ∧ primaryPending = nonce ∧ secondaryLatest = nonce ∧
          secondaryPending = nonce)
        "Publisher nonce changed before signing"
      let journal ← ask .journal
      return some ({ chainId := journal.chainId, toAddress := ds.input.distributor,
                     data := calldata d rows, value := 0, gas, gasPrice, nonce }, current)

/-- The intent of a transaction that has been signed. -/
def intentOf (journal : PublicationJournal) (rows : List SnapshotArtifact) (ds : SnapshotArtifact)
    (signer : Address) (tx : PublicationTransaction) (current : RpcBlock) (raw : Hex) :
    PublicationIntent where
  batchDataHashes := if rows.length > 1 then some (rows.map SnapshotArtifact.dataHash) else none
  dataHash := ds.dataHash
  root := ds.root
  marketId := ds.input.marketId
  round := ds.input.round
  distributor := ds.input.distributor
  publisher := signer
  chainId := journal.chainId
  releaseId := journal.releaseId
  hash := d.services.keccak256 raw
  raw
  nonce := tx.nonce
  createdAt := current.timestamp
  expiresAt := current.timestamp + d.policy.intentMaxAgeSeconds

/-- **`publishSnapshotOnce`.** -/
def publishSnapshotOnce (input : List SnapshotArtifact) (signer : Address) : Publisher Outcome := do
  let (rows, ds) ← begin d input
  throwUnless (signer = d.policy.publisher) "Signer differs from configured publisher"
  let journal ← ask .journal
  match journal.pending with
  | some row => sendPending d input rows ds row
  | none =>
    match ← prepare d rows ds signer with
    | none => return .report .alreadyPublished none ds.dataHash
    | some (tx, current) =>
      let raw ← ask (.sign tx)
      let journal ← ask .journal
      let row := intentOf d journal rows ds signer tx current raw
      Program.lift (validateIntent d journal rows ds row)
      let journal' := { journal with pending := some row }
      ask (.setJournal journal')
      ask (.save journal')
      sendPending d input rows ds row

/-! ### The command -/

/-- What the operator runs. -/
inductive Command
  | publish (signer : Address)
  | reconcile
deriving DecidableEq

/-- The program of a command, on some datasets: to publish them with a signer, or only to look after
the pending intent. -/
def commandOf (input : List SnapshotArtifact) : Command → Publisher Outcome
  | .publish signer => publishSnapshotOnce d input signer
  | .reconcile => reconcilePublication d input

/-- `runHolderPublicationCommand`, once its journal is loaded: the command in the lane of the
signer; what it fails with is written to the journal, if the file takes it. -/
def runCommand (input : List SnapshotArtifact) (command : Command) : Publisher Unit :=
  Program.tryCatch
    (do
      ask .enterLane
      let _ ← commandOf d input command
      ask .leaveLane)
    fun error => do
      let journal ← ask .journal
      let journal' := { journal with lastError := some error }
      ask (.setJournal journal')
      Program.tryCatch (ask (.save journal')) fun _ => return ()

end HolderPublication

end Backend

end TickerGarden
