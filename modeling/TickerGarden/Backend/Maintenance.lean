import TickerGarden.Types
import TickerGarden.Lib.Checked
import TickerGarden.Lib.Table
import TickerGarden.Lib.Transition

/-!
# The maintenance transactions of the backend

A maintenance transaction goes through five stages, each a transaction of the database of its
own: a worker takes a *lease* on the job, *reserves* a nonce of the sending account, fixes the
*intent* (the call, its nonce and its fees), has the intent *signed*, and *submits* the signed
bytes, at the cost of the account's gas budget. What leaves the database, the request to the
signer and the bytes sent to the network, leaves it after the transaction that recorded it, and a
process may stop at any point in between.

A transaction locks the row of its job (`lockLeaseJob`), of its account or of its budget before it
reads what depends on it, so that it is one function of the tables here. What it hears from the
node and from the database's clock on its way is in its `Answers`, and is not constrained.

The JSON of the tables is what it encodes: a text of 32 bytes is a `Bytes32`, a decimal text the
number that it writes, if it writes one (`Decimal`), and a document that was stored is the value
it was made of. `deployment.Hash` of a document is a parameter, `hash`.
-/

namespace TickerGarden

open Checked

namespace Backend

namespace Maintenance

/-- Bytes that the code keeps as a text in hexadecimal: the data of a call, or a transaction that is
signed. -/
abbrev Hex := List UInt8

/-- A text, as the number that it writes in decimal digits, if it writes one. -/
abbrev Decimal := Option ℕ

/-- A time of the database's clock, in microseconds since 1970. -/
abbrev Time := ℕ

/-- `now.Unix()`. -/
def unix (now : Time) : ℕ := now / 1000000

/-- `time.Duration(n) * time.Second`. -/
def seconds (n : ℕ) : ℕ := n * 1000000

/-! ### Errors -/

/-- The errors of the package: the ones that its callers tell apart have a case of their own, with
the text they carry, and the others are known by their texts. -/
inductive MaintenanceError
  /-- `maintenance record unavailable or inconsistent` -/
  | unavailable
  /-- `maintenance task is leased` -/
  | leaseBusy
  /-- `maintenance lease expired, released or superseded` -/
  | leaseLost
  /-- `maintenance task has a nonce reservation; inspect existing intent before recovery` -/
  | nonceReserved
  /-- `transaction account role unavailable or conflicting` -/
  | role
  /-- `maintenance gas budget must be configured` -/
  | budgetRequired
  /-- `maintenance gas budget exceeded` -/
  | budgetExceeded
  /-- `transaction submission outcome unknown` -/
  | submissionUnknown
  /-- Any other error. -/
  | message (text : String)
deriving DecidableEq

/-! ### Previews -/

/-- What a maintenance transaction is for. Each of the operations is one call of one contract of the
market. -/
inductive Operation
  | sweep
  | checkpoint
  | flushForfeiture
  | settleRageQuit
  | treasuryActivate
deriving DecidableEq

/-- What is asked for: an operation on a market, and the trigger that tells this request from others
of its kind. Only the settlement of a rage quit has a user. -/
structure MaintenanceRequest where
  operation : Operation
  marketId : Bytes32
  triggerId : Bytes32
  user : Option Address
deriving DecidableEq

/-- The static types that a return value of a maintenance call may have. -/
inductive FieldType
  | uint256
  | bool
deriving DecidableEq

/-- A return value that a maintenance call declares, by its name and its type. -/
structure Field where
  name : String
  type : FieldType
deriving DecidableEq

/-- A return value, decoded. -/
inductive ReturnValue
  | uint256 (n : ℕ)
  | bool (b : Bool)
deriving DecidableEq

/-- A simulation of a request: the call as it would be made, the block it was made in, and what it
returned there. Nothing has been sent. -/
structure MaintenancePreview where
  genesisHash : Bytes32
  blockTimestamp : ℕ
  request : MaintenanceRequest
  key : Bytes32
  chainId : ℕ
  blockNumber : ℕ
  blockHash : Bytes32
  fromAddress : Address
  toAddress : Address
  data : Hex
  value : String
  moduleName : String
  signature : String
  /-- The map, listed in the order of the operation's fields. -/
  returnValues : Option (List (String × ReturnValue))
  status : String
  transactionSubmission : Bool
  executionComplete : Bool
deriving DecidableEq

/-- What a job is about; without its target it is the intent of the job. -/
structure Identity where
  chainId : ℕ
  genesisHash : Bytes32
  fromAddress : Address
  request : MaintenanceRequest
  target : Option Address
  moduleName : Option String
  data : Option Hex
deriving DecidableEq

/-! ### Stored rows -/

/-- A row of the jobs: what identifies the job, and the two digests that the code compares it by. -/
structure JobRow where
  jobKey : Bytes32
  intentDigest : Bytes32
  chainId : ℕ
  identityPayload : Identity
  identityDigest : Bytes32
deriving DecidableEq

/-- A row of the simulations: one preview of a job, under its digest, in the order they came in. -/
structure SimulationRow where
  sequence : ℕ
  jobKey : Bytes32
  payload : MaintenancePreview
  digest : Bytes32
deriving DecidableEq

/-- What recording a preview returns: the place it was stored at, and the digest it is stored under.
-/
structure Record where
  sequence : ℕ
  digest : Bytes32
  preview : MaintenancePreview
deriving DecidableEq

/-- The right of one worker to advance one job until it expires. A later lease of the job has a
greater generation, and a token of its own. -/
structure Lease where
  jobKey : Bytes32
  generation : ℕ
  owner : String
  token : Bytes32
  ttlSeconds : ℕ
  expiresAt : Time
  released : Bool
deriving DecidableEq

/-- A sender on a chain. -/
structure Account where
  chainId : ℕ
  genesisHash : Bytes32
  sender : Address
deriving DecidableEq

/-- What an account of the service may be used for. An account that was claimed for one of the two
is refused to the other. -/
inductive Role
  | maintenance
  | settlement
deriving DecidableEq

/-- The nonce of the sending account that is set aside for a job, and the generation of the lease
under which it was. -/
structure Reservation where
  jobKey : Bytes32
  generation : ℕ
  chainId : ℕ
  genesisHash : Bytes32
  sender : Address
  nonce : ℕ
  simulationDigest : Bytes32
  status : String
deriving DecidableEq

/-- The account whose nonces a reservation counts. -/
def Reservation.account (r : Reservation) : Account := ⟨r.chainId, r.genesisHash, r.sender⟩

/-- The gas limit and the two fees that the caller of a preparation offers, as texts. -/
structure Fees where
  gasLimit : Decimal
  maxFeePerGas : Decimal
  maxPriorityFeePerGas : Decimal
deriving DecidableEq

/-- The transaction of an intent, field by field as it is to be signed. -/
structure IntentCall where
  fromAddress : Address
  toAddress : Address
  data : Hex
  value : String
  gas : ℕ
  nonce : ℕ
  maxFeePerGas : ℕ
  maxPriorityFeePerGas : ℕ
deriving DecidableEq

/-- All that is fixed of a transaction before it is signed: its reservation, its call, and the
simulation and the block it rests on. -/
structure Intent where
  reservation : Reservation
  call : IntentCall
  simulationDigest : Bytes32
  blockHash : Bytes32
  blockNumber : ℕ
  blockTimestamp : ℕ
  maximumGasCost : ℕ
  type : String
  status : String
deriving DecidableEq

/-- An intent, with the digest that later stages name it by. -/
structure IntentRecord where
  digest : Bytes32
  intent : Intent
deriving DecidableEq

/-- The row that a request to the signer leaves: for which intent it was, under which generation,
and what the signer has answered, if it has. -/
structure SignRequest where
  intentDigest : Bytes32
  generation : ℕ
  rawTransaction : Option Hex
deriving DecidableEq

/-- The row that the import of a signature leaves beside the answer of the signer: the intent, and
the hash that was expected. -/
structure SignatureImport where
  intentDigest : Bytes32
  transactionHash : Bytes32
deriving DecidableEq

/-- A row of the signed transactions: the bytes, and the intent they were checked against. -/
structure SignedRow where
  intentDigest : Bytes32
  transactionHash : Bytes32
  rawTransaction : Hex
deriving DecidableEq

/-- A signed transaction, as it is returned to the caller. -/
structure SignedTransaction where
  jobKey : Bytes32
  intentDigest : Bytes32
  transactionHash : Bytes32
  sender : Address
  rawTransaction : Hex
  status : String
deriving DecidableEq

/-- Whether the network is known to have taken a transaction. -/
inductive SubmissionStatus
  | submissionUnknown
  | acknowledged
deriving DecidableEq

/-- The row of the first sending of a job. It is there before anything is sent, with the status that
nothing is known. -/
structure Submission where
  jobKey : Bytes32
  intentDigest : Bytes32
  transactionHash : Bytes32
  simulationDigest : Bytes32
  status : SubmissionStatus
deriving DecidableEq

/-- The row of one further attempt to send the bytes of a job, which the caller names. -/
structure Rebroadcast where
  jobKey : Bytes32
  attemptId : Bytes32
  transactionHash : Bytes32
  simulationDigest : Bytes32
  status : SubmissionStatus
deriving DecidableEq

/-- The limits of an account, or a change of them. -/
structure GasBudget where
  revision : ℕ
  maxTransaction : ℕ
  maximumTotal : ℕ
  allocated : ℕ
deriving DecidableEq

/-- What a job has cost its account in advance: the greatest amount its gas can come to. -/
structure Charge where
  account : Account
  revision : ℕ
  maximumGasCost : ℕ
deriving DecidableEq

/-- The row that a recovery leaves: the lease of a job whose intent is fixed had expired, and lasts
again until the time that is given, on the strength of a new simulation. -/
structure AuthorizationRecovery where
  jobKey : Bytes32
  recoveryId : Bytes32
  generation : ℕ
  intentDigest : Bytes32
  simulationDigest : Bytes32
  expiresAt : Time
deriving DecidableEq

/-- The tables, each by its primary key. The constraints of uniqueness are not checked again by an
insertion: none that the code makes violates them. -/
structure Store where
  jobs : List JobRow
  /-- The simulations, the latest first. -/
  simulations : List SimulationRow
  /-- The leases of each job, the latest first. -/
  leases : Table Bytes32 (List Lease)
  roles : Table Account Role
  /-- The next nonce of each account. -/
  nonceAccounts : Table Account ℕ
  reservations : Table Bytes32 Reservation
  intents : Table Bytes32 IntentRecord
  signRequests : Table Bytes32 SignRequest
  signatureImports : Table Bytes32 SignatureImport
  signed : Table Bytes32 SignedRow
  submissions : Table Bytes32 Submission
  rebroadcasts : Table (Bytes32 × Bytes32) Rebroadcast
  budgets : Table Account GasBudget
  budgetChanges : Table (Account × Bytes32) GasBudget
  charges : Table Bytes32 Charge
  recoveries : Table (Bytes32 × Bytes32) AuthorizationRecovery

/-! ### What a transaction hears -/

/-- A block, as far as it is read from the node. -/
structure Header where
  timestamp : ℕ
  number : ℕ
  hash : Bytes32
  parentHash : Bytes32
deriving DecidableEq

/-- What the clock and the node answered in one transaction, each answer at its first, second or
third call; a missing answer is a call that failed. -/
structure Answers where
  now : Option Time
  recheck : Option Time
  last : Option Time
  chainId : Option ℕ
  genesis : Option Header
  block : Option Header
  pendingNonce : Option ℕ
  nonceAtHash : Option ℕ
  /-- Whether there is a receipt. -/
  receipt : Option Bool
  simulation : Option Hex

/-! ### Code outside the repository -/

/-- What `deployment.Hash` is taken of. -/
inductive Document
  /-- The signature of a function. -/
  | text (value : String)
  | requestKey (domain : String) (chainId : ℕ) (genesisHash : Bytes32) (fromAddress : Address)
      (moduleName : String) (toAddress : Address) (request : MaintenanceRequest)
  | identity (value : Identity)
  | preview (value : MaintenancePreview)
  | intent (value : Intent)

/-- A decoded transaction. -/
structure Transaction where
  type : ℕ
  toAddress : Option Address
  accessListLength : ℕ
  chainId : ℕ
  nonce : ℕ
  gas : ℕ
  gasFeeCap : ℕ
  gasTipCap : ℕ
  value : ℕ
  data : Hex
deriving DecidableEq

/-- The hash function and the transactions of the chain. -/
structure Platform where
  /-- `deployment.Hash` of the bytes of a document. -/
  hash : Document → Bytes32
  /-- `tx.UnmarshalBinary`. -/
  unmarshalBinary : Hex → Option Transaction
  /-- `tx.MarshalBinary`, of what was decoded from some bytes. -/
  marshalBinary : Hex → Option Hex
  /-- `tx.Hash`. -/
  transactionHash : Hex → Bytes32
  /-- `types.Sender` of a transaction of a chain. -/
  sender : ℕ → Hex → Option Address

variable (platform : Platform) (chainId : ℕ)

/-! ### Checking a preview -/

/-- The 32 bytes of a word. -/
def wordBytes (w : Bytes32) : Hex :=
  (List.range 32).map fun i => UInt8.ofNat (w.toNat >>> (8 * (31 - i)))

/-- `addressArgument`. -/
def addressArgument (a : Address) : Hex := wordBytes (a.setWidth 256)

/-- What `maintenanceAction` returns. -/
structure Action where
  moduleName : String
  signature : String
  args : Hex
  fields : List Field
deriving DecidableEq

/-- The call of a request: its contract, its signature, its arguments, and the values that it
returns. A request without a market or a trigger, or with a user it has no use for, has none. -/
def maintenanceAction (r : MaintenanceRequest) : Option Action :=
  if r.marketId = 0 ∨ r.triggerId = 0 ∨ (r.operation ≠ .settleRageQuit ∧ r.user ≠ none) then none
  else
    match r.operation with
    | .sweep => some ⟨"TickerGardenCurve", "sweepCurveFees()", [], [⟨"sweptAmount", .uint256⟩]⟩
    | .checkpoint => some ⟨"MemeStockGauge", "checkpointActivations()", [],
        [⟨"activatedAmount", .uint256⟩, ⟨"processedBuckets", .uint256⟩]⟩
    | .flushForfeiture => some ⟨"MemeStockGauge", "flushDeferredForfeiture()", [], []⟩
    | .settleRageQuit =>
      match r.user with
      | none => none
      | some user =>
        if user = 0 then none
        else some ⟨"AllocationManager", "settleRageQuitRewards(bytes32,address)",
          wordBytes r.marketId ++ addressArgument user,
          [⟨"quoteForfeited", .uint256⟩, ⟨"memeForfeited", .uint256⟩, ⟨"redistributed", .bool⟩]⟩
    | .treasuryActivate => some ⟨"TreasuryDistributorV1", "activateMarket(bytes32)",
        wordBytes r.marketId, []⟩

/-- The key of a job. -/
def requestKey (p : MaintenancePreview) : Bytes32 :=
  platform.hash (.requestKey "V1-EXEC-11:maintenance-v1" p.chainId p.genesisHash p.fromAddress
    p.moduleName p.toAddress p.request)

/-- A value is one of its field. -/
def ReturnValue.fits : ReturnValue → FieldType → Bool
  | uint256 n, .uint256 => n < 2 ^ 256
  | bool _, .bool => true
  | _, _ => false

/-- The values are those of the fields. -/
def returnsFit (values : List (String × ReturnValue)) (fields : List Field) : Bool :=
  values.map Prod.fst = fields.map Field.name ∧
    (values.zip fields).all fun x => x.1.2.fits x.2.type

/-- `ValidateMaintenancePreview`; a text of a number or of an address is one by its type. -/
def validateMaintenancePreview (p : MaintenancePreview) : Bool :=
  match maintenanceAction p.request with
  | none => false
  | some action =>
    action.moduleName = p.moduleName ∧ action.signature = p.signature ∧
    p.data = (wordBytes (platform.hash (.text action.signature))).take 4 ++ action.args ∧
    p.value = "0x0" ∧ p.status = "simulated" ∧ p.transactionSubmission = false ∧
    p.executionComplete = false ∧
    (p.chainId = 4663 ∨ p.chainId = 46630 ∨ p.chainId = 421614) ∧
    p.fromAddress ≠ 0 ∧ p.toAddress ≠ 0 ∧
    p.blockNumber < 2 ^ 63 ∧ p.blockTimestamp < 2 ^ 63 ∧
    p.key = requestKey platform p ∧
    ∃ values ∈ p.returnValues, returnsFit values action.fields

/-- A word of a simulation's answer, as a value of its field. -/
def decodeWord (bytes : Hex) : FieldType → Option ReturnValue
  | .uint256 => some (.uint256 (bytes.foldl (fun n b => n * 256 + b.toNat) 0))
  | .bool =>
    let n := bytes.foldl (fun n b => n * 256 + b.toNat) 0
    if n ≤ 1 then some (.bool (n = 1)) else none

/-- `DecodeStatic`, for fields of different names. -/
def decodeStatic : List Field → Hex → Option (List (String × ReturnValue))
  | [], [] => some []
  | [], _ :: _ => none
  | field :: fields, raw =>
    if raw.length < 32 then none
    else do
      let value ← decodeWord (raw.take 32) field.type
      let values ← decodeStatic fields (raw.drop 32)
      return (field.name, value) :: values

/-- The values that a call has returned, as the operation declares them. -/
def decodeMaintenanceReturn (r : MaintenanceRequest) (raw : Hex) :
    Option (List (String × ReturnValue)) := do
  let action ← maintenanceAction r
  decodeStatic action.fields raw

/-! ### Records -/

/-- `envelopes`: the digest of the intent, and the identity with its digest. -/
def envelopes (p : MaintenancePreview) : Bytes32 × Identity × Bytes32 :=
  let v : Identity := ⟨p.chainId, p.genesisHash, p.fromAddress, p.request, none, none, none⟩
  let body : Identity :=
    ⟨p.chainId, p.genesisHash, p.fromAddress, p.request, p.toAddress, p.moduleName, p.data⟩
  (platform.hash (.identity v), body, platform.hash (.identity body))

/-- The job of a key. -/
def Store.job (s : Store) (key : Bytes32) : Option JobRow := s.jobs.find? fun j => j.jobKey = key

/-- `INSERT INTO maintenance_jobs … ON CONFLICT DO NOTHING`. -/
def Store.addJob (s : Store) (row : JobRow) : Store :=
  if s.jobs.any fun j => j.jobKey = row.jobKey ∨ j.intentDigest = row.intentDigest then s
  else { s with jobs := row :: s.jobs }

/-- The simulation of a job with a digest. -/
def Store.simulation (s : Store) (key digest : Bytes32) : Option SimulationRow :=
  s.simulations.find? fun r => r.jobKey = key ∧ r.digest = digest

/-- `INSERT INTO maintenance_simulations … ON CONFLICT(job_key,digest) DO NOTHING`. -/
def Store.addSimulation (s : Store) (key : Bytes32) (p : MaintenancePreview) (digest : Bytes32) :
    Store :=
  if (s.simulation key digest).isSome then s
  else { s with simulations := ⟨s.simulations.length + 1, key, p, digest⟩ :: s.simulations }

/-- A preview is recorded: the row of its job is made if there is none, and compared with it if
there is one, and the preview is appended to the simulations. -/
def recordIn (p : MaintenancePreview) (s : Store) : Except MaintenanceError (Record × Store) := do
  revertIf (p.chainId ≠ chainId ∨ validateMaintenancePreview platform p = false) .unavailable
  let (intent, body, digest) := envelopes platform p
  let s := s.addJob ⟨p.key, intent, p.chainId, body, digest⟩
  let row ← orRevert (s.jobs.find? fun j => j.intentDigest = intent) .unavailable
  revertIf (row.jobKey ≠ p.key ∨ row.chainId ≠ chainId ∨ row.identityDigest ≠ digest ∨
    row.identityPayload ≠ body) .unavailable
  let simulationDigest := platform.hash (.preview p)
  let s := s.addSimulation p.key p simulationDigest
  let saved ← orRevert (s.simulation p.key simulationDigest) .unavailable
  revertIf (saved.payload ≠ p) .unavailable
  return (⟨saved.sequence, simulationDigest, p⟩, s)

/-! ### Leases -/

/-- The letters and digits that `ownerPattern` begins with. -/
def ownerPattern (owner : String) : Bool :=
  match owner.toList with
  | [] => false
  | c :: cs => c.isAlphanum && decide (cs.length ≤ 127) &&
      cs.all fun c => c.isAlphanum || c = '_' || c = '.' || c = ':' || c = '-'

/-- The owner, the token and the length of a lease are ones the tables accept. -/
def validLeaseInput (owner : String) (token : Bytes32) (ttl : ℕ) : Bool :=
  ownerPattern owner ∧ token ≠ 0 ∧ ttl ≥ 10 ∧ ttl ≤ 300

/-- The leases of a job, the latest first. -/
def Store.leasesOf (s : Store) (key : Bytes32) : List Lease := (s.leases.lookup key).getD []

/-- The lease of a job that was issued last, whether or not it still runs. -/
def latestLease (s : Store) (key : Bytes32) : Option Lease := (s.leasesOf key).head?

/-- `lockLeaseJob`: the job is stored, and its latest simulation is one of it. -/
def lockLeaseJob (key : Bytes32) (s : Store) : Except MaintenanceError Unit := do
  let job ← orRevert (s.job key) .unavailable
  revertIf (job.chainId ≠ chainId ∨
    platform.hash (.identity job.identityPayload) ≠ job.identityDigest) .unavailable
  let row ← orRevert (s.simulations.find? fun r => r.jobKey = key) .unavailable
  let p := row.payload
  revertIf (platform.hash (.preview p) ≠ row.digest ∨
    validateMaintenancePreview platform p = false ∨ p.key ≠ key ∨ p.chainId ≠ job.chainId)
    .unavailable
  revertIf (envelopes platform p ≠ (job.intentDigest, job.identityPayload, job.identityDigest))
    .unavailable

/-- The lease is that of the caller, and lasts at the time. -/
def Lease.Live (l : Lease) (owner : String) (token : Bytes32) (generation : ℕ) (now : Time) :
    Prop :=
  l.owner = owner ∧ l.token = token ∧ l.generation = generation ∧ l.released = false ∧
    now < l.expiresAt

instance (l : Lease) (owner : String) (token : Bytes32) (generation : ℕ) (now : Time) :
    Decidable (l.Live owner token generation now) := by
  unfold Lease.Live; infer_instance

/-- `acquireLeaseIn` with a token that is not the latest: a new generation. -/
def issueLease (previous : Option Lease) (key : Bytes32) (owner : String) (token : Bytes32)
    (ttl : ℕ) (now : Time) (s : Store) : Except MaintenanceError (Lease × Store) := do
  revertIf ((s.reservations.lookup key).isSome = true) .nonceReserved
  revertIf (∃ x ∈ s.leasesOf key, x.token = token) .leaseLost
  revertIf (∃ l ∈ previous, l.released = false ∧ now < l.expiresAt) .leaseBusy
  let generation := previous.elim 0 Lease.generation
  revertIf (generation = 2 ^ 63 - 1) .unavailable
  let l : Lease := ⟨key, generation + 1, owner, token, ttl, now + seconds ttl, false⟩
  return (l, { s with leases := s.leases.insert key (l :: s.leasesOf key) })

/-- A worker takes the lease of a job, at the time of the database: a first one, its own again, or
the next generation after one that has ended. -/
def acquireLeaseIn (key : Bytes32) (owner : String) (token : Bytes32) (ttl : ℕ)
    (clock : Option Time) (s : Store) : Except MaintenanceError (Lease × Store) := do
  revertIf (validLeaseInput owner token ttl = false) .unavailable
  lockLeaseJob platform chainId key s
  let now ← orRevert clock .unavailable
  match latestLease s key with
  | none => issueLease none key owner token ttl now s
  | some l =>
    if l.token = token then do
      revertIf (l.owner ≠ owner ∨ l.ttlSeconds ≠ ttl ∨ l.released = true ∨ l.expiresAt ≤ now)
        .leaseLost
      return (l, s)
    else issueLease (some l) key owner token ttl now s

/-- The latest lease of a job, changed. -/
def Store.setLease (s : Store) (key : Bytes32) (l : Lease) : Store :=
  { s with leases := s.leases.insert key (l :: (s.leasesOf key).tail) }

/-- A worker prolongs its lease, or releases it. It must be the last one of the job, and still run;
releasing it once more changes nothing. -/
def changeLease (key : Bytes32) (owner : String) (token : Bytes32) (generation : ℕ)
    (release : Bool) (clock : Option Time) (s : Store) :
    Except MaintenanceError (Lease × Store) := do
  revertIf (validLeaseInput owner token 10 = false ∨ generation < 1) .unavailable
  lockLeaseJob platform chainId key s
  let l ← orRevert (latestLease s key) .leaseLost
  revertIf (l.generation ≠ generation ∨ l.token ≠ token ∨ l.owner ≠ owner) .leaseLost
  if release = true ∧ l.released = true then return (l, s)
  else do
    let now ← orRevert clock .unavailable
    revertIf (l.released = true ∨ l.expiresAt ≤ now) .leaseLost
    let changed := if release then { l with released := true }
      else { l with expiresAt := now + seconds l.ttlSeconds }
    return (changed, s.setLease key changed)

/-! ### Nonces -/

/-- `txaccount.Claim`. -/
def claim (account : Account) (role : Role) (s : Store) : Except MaintenanceError Store := do
  let saved := (s.roles.lookup account).getD role
  revertIf (saved ≠ role) .role
  return { s with roles := s.roles.insert account saved }

/-- The simulation that a reservation rests on is stored, and is a valid preview of the same job,
chain and sender. -/
def validateReservation (r : Reservation) (s : Store) : Except MaintenanceError Unit := do
  let row ← orRevert (s.simulation r.jobKey r.simulationDigest) .unavailable
  let p := row.payload
  revertIf (platform.hash (.preview p) ≠ r.simulationDigest ∨
    validateMaintenancePreview platform p = false ∨ p.key ≠ r.jobKey ∨ p.chainId ≠ r.chainId ∨
    p.fromAddress ≠ r.sender ∨ p.genesisHash ≠ r.genesisHash) .unavailable

/-- The preview is stored as a simulation of its job. -/
def requireSimulation (p : MaintenancePreview) (s : Store) : Except MaintenanceError Unit := do
  let row ← orRevert (s.simulation p.key (platform.hash (.preview p))) .unavailable
  revertIf (row.payload ≠ p) .unavailable

/-- The block of a preview is neither in the future of the clock nor older than two minutes. -/
def Recent (p : MaintenancePreview) (now : Time) : Prop :=
  p.blockTimestamp ≤ unix now + 5 ∧ unix now - p.blockTimestamp ≤ 120

instance (p : MaintenancePreview) (now : Time) : Decidable (Recent p now) :=
  inferInstanceAs (Decidable (_ ∧ _))

/-- The node is of the chain. -/
def requireChain (rpc : Answers) (chain : ℕ) (genesisHash : Bytes32) :
    Except MaintenanceError Unit := do
  let id ← orRevert rpc.chainId .unavailable
  revertIf (id ≠ chain) .unavailable
  let genesis ← orRevert rpc.genesis .unavailable
  revertIf (genesis.hash ≠ genesisHash) .unavailable

/-- The block of the preview is still canonical. -/
def requireBlock (rpc : Answers) (p : MaintenancePreview) : Except MaintenanceError Unit := do
  let block ← orRevert rpc.block .unavailable
  revertIf (block.hash ≠ p.blockHash ∨ block.timestamp ≠ p.blockTimestamp) .unavailable

/-- The nonce of a job is set aside: the one it has already, or the next one of its account, which
the node must agree to be free. -/
def reserveNonceIn (rpc : Answers) (p : MaintenancePreview) (owner : String) (token : Bytes32)
    (generation : ℕ) (s : Store) : Except MaintenanceError (Reservation × Store) := do
  revertIf (validLeaseInput owner token 10 = false ∨ generation < 1 ∨ p.chainId ≠ chainId ∨
    validateMaintenancePreview platform p = false) .unavailable
  lockLeaseJob platform chainId p.key s
  let l ← orRevert (latestLease s p.key) .leaseLost
  let now ← orRevert rpc.now .unavailable
  revertIf (¬ l.Live owner token generation now) .leaseLost
  match s.reservations.lookup p.key with
  | some existing => do
    revertIf (existing.generation ≠ generation ∨ existing.chainId ≠ p.chainId ∨
      existing.sender ≠ p.fromAddress ∨ existing.genesisHash ≠ p.genesisHash) .unavailable
    validateReservation platform existing s
    return (existing, s)
  | none => do
    requireSimulation platform p s
    revertIf (¬ Recent p now) .unavailable
    let account : Account := ⟨p.chainId, p.genesisHash, p.fromAddress⟩
    let s ← claim account .maintenance s
    let stored := (s.nonceAccounts.lookup account).getD 0
    requireChain rpc p.chainId p.genesisHash
    let pending ← orRevert rpc.pendingNonce .unavailable
    requireBlock rpc p
    -- The lease again, after waiting for the account's lock and for the network.
    let now ← orRevert rpc.recheck .leaseLost
    revertIf (l.expiresAt ≤ now ∨ unix now - p.blockTimestamp > 120) .leaseLost
    let next := max stored pending
    revertIf (next ≥ 2 ^ 63 - 1) .unavailable
    let r : Reservation := ⟨p.key, generation, p.chainId, p.genesisHash, p.fromAddress, next,
      platform.hash (.preview p), "nonce_reserved"⟩
    return (r, { s with
      reservations := s.reservations.insert p.key r
      nonceAccounts := s.nonceAccounts.insert account (next + 1) })

/-! ### Intents -/

/-- `intentCall`, which also returns the greatest cost. -/
def intentCall (p : MaintenancePreview) (nonce : ℕ) (f : Fees) :
    Except MaintenanceError (IntentCall × ℕ) := do
  let bad : MaintenanceError := .message "invalid maintenance gas or fee bounds"
  let gas ← orRevert f.gasLimit bad
  let fee ← orRevert f.maxFeePerGas bad
  let tip ← orRevert f.maxPriorityFeePerGas bad
  revertIf (gas ≥ 2 ^ 256 ∨ fee ≥ 2 ^ 256 ∨ tip ≥ 2 ^ 256) bad
  revertIf (gas ≥ 2 ^ 63 ∨ gas < 21000 ∨ fee = 0 ∨ tip > fee) bad
  revertIf (nonce ≥ 2 ^ 63) bad
  revertIf (gas * fee ≥ 2 ^ 256) bad
  return (⟨p.fromAddress, p.toAddress, p.data, "0x0", gas, nonce, fee, tip⟩, gas * fee)

/-- The intent of a job, unless there is none. -/
def intentIn (key : Bytes32) (s : Store) : Except MaintenanceError (Option IntentRecord) :=
  match s.intents.lookup key with
  | none => return none
  | some record => do
    revertIf (platform.hash (.intent record.intent) ≠ record.digest) .unavailable
    return some record

/-- A stored intent is the one of its reservation, and its call is that of the simulation it names.
-/
def validateIntent (r : Reservation) (record : IntentRecord) (s : Store) :
    Except MaintenanceError Unit := do
  let i := record.intent
  revertIf (i.reservation ≠ r ∨ i.type ≠ "0x2" ∨ i.status ≠ "intent_prepared") .unavailable
  let row ← orRevert (s.simulation r.jobKey i.simulationDigest) .unavailable
  let p := row.payload
  revertIf (platform.hash (.preview p) ≠ i.simulationDigest ∨
    validateMaintenancePreview platform p = false ∨ p.key ≠ r.jobKey ∨
    i.blockHash ≠ p.blockHash ∨ i.blockNumber ≠ p.blockNumber ∨
    i.blockTimestamp ≠ p.blockTimestamp) .unavailable
  match intentCall p r.nonce
      ⟨some i.call.gas, some i.call.maxFeePerGas, some i.call.maxPriorityFeePerGas⟩ with
  | .error _ => throw .unavailable
  | .ok (call, cost) => revertIf (call ≠ i.call ∨ cost ≠ i.maximumGasCost) .unavailable

/-- The intent, simulated exactly, returns what the preview returned. -/
def requireSameReturn (rpc : Answers) (p : MaintenancePreview) (failed differs : MaintenanceError) :
    Except MaintenanceError Unit := do
  let raw ← orRevert rpc.simulation failed
  let values ← orRevert (decodeMaintenanceReturn p.request raw) differs
  revertIf (some values ≠ p.returnValues) differs

/-- The intent of a job is fixed: the one it has already, if the caller asks for the same call, or
one that is made of a recent simulation, which the node has to repeat with the same result. -/
def prepareIntentIn (rpc : Answers) (p : MaintenancePreview) (fees : Fees) (owner : String)
    (token : Bytes32) (generation : ℕ) (s : Store) :
    Except MaintenanceError (IntentRecord × Store) := do
  revertIf (validateMaintenancePreview platform p = false ∨ p.chainId ≠ chainId ∨
    validLeaseInput owner token 10 = false ∨ generation < 1) .unavailable
  lockLeaseJob platform chainId p.key s
  let r ← orRevert (s.reservations.lookup p.key) .unavailable
  revertIf (r.generation ≠ generation) .unavailable
  validateReservation platform r s
  let l ← orRevert (latestLease s p.key) .leaseLost
  let now ← orRevert rpc.now .leaseLost
  revertIf (¬ l.Live owner token generation now) .leaseLost
  let (call, cost) ← intentCall p r.nonce fees
  match ← intentIn platform p.key s with
  | some old =>
    match validateIntent platform r old s with
    | .error _ =>
      throw (.message "maintenance intent already fixed with different or invalid parameters")
    | .ok _ => do
      revertIf (old.intent.call ≠ call)
        (.message "maintenance intent already fixed with different or invalid parameters")
      return (old, s)
  | none => do
    requireSimulation platform p s
    revertIf (¬ Recent p now) .unavailable
    requireChain rpc r.chainId r.genesisHash
    let gone : MaintenanceError := .message "reserved nonce is no longer available"
    let pending ← orRevert rpc.pendingNonce gone
    revertIf (pending > r.nonce) gone
    requireSameReturn rpc p (.message "exact maintenance intent simulation failed")
      (.message "exact maintenance simulation differs from preview")
    requireBlock rpc p
    let now ← orRevert rpc.recheck .leaseLost
    revertIf (l.expiresAt ≤ now ∨ unix now - p.blockTimestamp > 120) .leaseLost
    let i : Intent := ⟨r, call, platform.hash (.preview p), p.blockHash, p.blockNumber,
      p.blockTimestamp, cost, "0x2", "intent_prepared"⟩
    let record : IntentRecord := ⟨platform.hash (.intent i), i⟩
    return (record, { s with intents := s.intents.insert p.key record })

/-- `Prepare`: the record, the lease, the nonce and the intent in one transaction. -/
def prepare (clock : Option Time) (reserving preparing : Answers) (p : MaintenancePreview)
    (fees : Fees) (owner : String) (token : Bytes32) (ttl : ℕ) (s : Store) :
    Except MaintenanceError ((Lease × IntentRecord) × Store) := do
  revertIf (validateMaintenancePreview platform p = false ∨ p.chainId ≠ chainId ∨
    validLeaseInput owner token ttl = false) .unavailable
  -- The bounds of the fees, before any lock is taken.
  let _ ← intentCall p 0 fees
  let (_, s) ← recordIn platform chainId p s
  let (l, s) ← acquireLeaseIn platform chainId p.key owner token ttl clock s
  let (_, s) ← reserveNonceIn platform chainId reserving p owner token l.generation s
  let (record, s) ← prepareIntentIn platform chainId preparing p fees owner token l.generation s
  return ((l, record), s)

/-! ### Signatures -/

/-- `ValidateSigned`: the bytes are those of the intent's transaction, signed by its sender. -/
def validateSigned (record : IntentRecord) (raw : Hex) :
    Except MaintenanceError SignedTransaction := do
  let bad : MaintenanceError := .message "signed transaction does not match maintenance intent"
  let i := record.intent
  revertIf (platform.hash (.intent i) ≠ record.digest ∨ raw = [] ∨ raw.length > 16384) bad
  revertIf (i.type ≠ "0x2" ∨ i.status ≠ "intent_prepared" ∨
    i.reservation.status ≠ "nonce_reserved") bad
  let tx ← orRevert (platform.unmarshalBinary raw) bad
  revertIf (tx.type ≠ 2 ∨ tx.toAddress = none ∨ tx.accessListLength ≠ 0) bad
  revertIf (platform.marshalBinary raw ≠ some raw) bad
  revertIf (i.call.gas ≥ 2 ^ 63 ∨ i.call.nonce ≥ 2 ^ 63) bad
  revertIf (i.reservation.nonce ≠ i.call.nonce) bad
  revertIf (tx.chainId ≠ i.reservation.chainId ∨ tx.nonce ≠ i.call.nonce ∨
    tx.gas ≠ i.call.gas ∨ tx.gasFeeCap ≠ i.call.maxFeePerGas ∨
    tx.gasTipCap ≠ i.call.maxPriorityFeePerGas ∨ tx.value ≠ 0 ∨ i.call.value ≠ "0x0" ∨
    tx.toAddress ≠ some i.call.toAddress ∨ tx.data ≠ i.call.data) bad
  let sender ← orRevert (platform.sender i.reservation.chainId raw) bad
  revertIf (sender ≠ i.call.fromAddress ∨ i.call.fromAddress ≠ i.reservation.sender) bad
  return ⟨i.reservation.jobKey, record.digest, platform.transactionHash raw, i.call.fromAddress,
    raw, "signed_stored"⟩

/-- The signed transaction of a job, unless there is none. -/
def signedIn (key : Bytes32) (record : IntentRecord) (s : Store) :
    Except MaintenanceError (Option SignedTransaction) :=
  match s.signed.lookup key with
  | none => return none
  | some row =>
    match validateSigned platform record row.rawTransaction with
    | .error _ => throw .unavailable
    | .ok signed => do
      revertIf (row.intentDigest ≠ record.digest ∨ signed.transactionHash ≠ row.transactionHash)
        .unavailable
      return some signed

/-- The reservation and the intent of a job, checked. -/
def intentMaterial (key : Bytes32) (s : Store) :
    Except MaintenanceError (Reservation × IntentRecord) := do
  lockLeaseJob platform chainId key s
  let r ← orRevert (s.reservations.lookup key) .unavailable
  validateReservation platform r s
  let record ← orRevert (← intentIn platform key s) .unavailable
  validateIntent platform r record s
  return (r, record)

/-- A signature that the caller brings is stored, if it is one of the intent, and the lease of the
caller has not expired when the clock is read once more. -/
def attachSigned (rpc : Answers) (key digest : Bytes32) (owner : String) (token : Bytes32)
    (generation : ℕ) (raw : Hex) (s : Store) :
    Except MaintenanceError (SignedTransaction × Store) := do
  revertIf (validLeaseInput owner token 10 = false ∨ generation < 1 ∨ raw.length > 16384)
    .unavailable
  lockLeaseJob platform chainId key s
  let r ← orRevert (s.reservations.lookup key) .unavailable
  revertIf (r.generation ≠ generation) .unavailable
  validateReservation platform r s
  let l ← orRevert (latestLease s key) .leaseLost
  let now ← orRevert rpc.now .leaseLost
  revertIf (¬ l.Live owner token generation now) .leaseLost
  let record ← orRevert (← intentIn platform key s) .unavailable
  revertIf (record.digest ≠ digest) .unavailable
  validateIntent platform r record s
  let signed ← validateSigned platform record raw
  match ← signedIn platform key record s with
  | some existing => do
    revertIf (existing ≠ signed) (.message "maintenance signed bytes already fixed")
    return (existing, s)
  | none => do
    let now ← orRevert rpc.recheck .leaseLost
    revertIf (l.expiresAt ≤ now) .leaseLost
    return (signed, { s with signed := s.signed.insert key ⟨digest, signed.transactionHash, raw⟩ })

/-- What the transaction of `Sign` leaves to do. -/
inductive SignOutcome
  /-- Nothing: the signed transaction is stored. -/
  | stored (tx : SignedTransaction)
  /-- Nothing: the signer was asked, and its answer is not known. -/
  | unknown
  /-- To attach the answer of the signer, which is known. -/
  | attach (raw : Hex)
  /-- To ask the signer. -/
  | invoke (record : IntentRecord)
deriving DecidableEq

/-- `Sign`, up to the call of the signer. -/
def sign (clock : Option Time) (key digest : Bytes32) (owner : String) (token : Bytes32)
    (generation : ℕ) (s : Store) : Except MaintenanceError (SignOutcome × Store) := do
  revertIf (validLeaseInput owner token 10 = false ∨ generation < 1) .unavailable
  lockLeaseJob platform chainId key s
  let r ← orRevert (s.reservations.lookup key) .unavailable
  validateReservation platform r s
  revertIf (r.generation ≠ generation) .unavailable
  let record ← orRevert (← intentIn platform key s) .unavailable
  revertIf (record.digest ≠ digest) .unavailable
  validateIntent platform r record s
  let l ← orRevert (latestLease s key) .leaseLost
  revertIf (l.generation ≠ generation ∨ l.owner ≠ owner ∨ l.token ≠ token) .leaseLost
  match ← signedIn platform key record s with
  | some signed => return (.stored signed, s)
  | none =>
    match s.signRequests.lookup key with
    | some request => do
      revertIf (request.intentDigest ≠ digest ∨ request.generation ≠ generation) .unavailable
      match request.rawTransaction with
      | none => return (.unknown, s)
      | some raw => do
        let _ ← orRevert clock .unavailable
        return (.attach raw, s)
    | none => do
      let now ← orRevert clock .unavailable
      revertIf (l.released = true ∨ l.expiresAt ≤ now) .leaseLost
      return (.invoke record,
        { s with signRequests := s.signRequests.insert key ⟨digest, generation, none⟩ })

/-- What `Sign` does with what the signer returned: it keeps valid bytes, if none are kept yet. -/
def saveSignature (record : IntentRecord) (key : Bytes32) (raw : Hex) (s : Store) :
    Except MaintenanceError Store := do
  let _ ← validateSigned platform record raw
  let request ← orRevert (s.signRequests.lookup key) .unavailable
  revertIf (request.intentDigest ≠ record.digest ∨ request.rawTransaction ≠ none) .unavailable
  return { s with signRequests := s.signRequests.insert key { request with rawTransaction := raw } }

/-- The status of an imported signature, which may already be attached. -/
def importStatus (attached : Option SignedTransaction) (signed : SignedTransaction)
    (expectedHash : Bytes32) : Except MaintenanceError String :=
  match attached with
  | some attached => do
    revertIf (attached.transactionHash ≠ expectedHash ∨
      attached.rawTransaction ≠ signed.rawTransaction) .unavailable
    return "signed_stored"
  | none => return "signed_available"

/-- A signature is stored as the answer of the signer, if the signer was asked for the intent under
this lease, and if the signature has the hash that the caller expects. -/
def importSignature (key digest expectedHash : Bytes32) (owner : String) (token : Bytes32)
    (generation : ℕ) (raw : Hex) (s : Store) :
    Except MaintenanceError (SignedTransaction × Store) := do
  revertIf (validLeaseInput owner token 10 = false ∨ generation < 1 ∨ raw = [] ∨
    raw.length > 16384) .unavailable
  lockLeaseJob platform chainId key s
  let r ← orRevert (s.reservations.lookup key) .unavailable
  revertIf (r.generation ≠ generation) .unavailable
  validateReservation platform r s
  let record ← orRevert (← intentIn platform key s) .unavailable
  revertIf (record.digest ≠ digest) .unavailable
  validateIntent platform r record s
  let l ← orRevert (latestLease s key) .leaseLost
  revertIf (l.generation ≠ generation ∨ l.owner ≠ owner ∨ l.token ≠ token) .leaseLost
  let request ← orRevert (s.signRequests.lookup key) .unavailable
  revertIf (request.intentDigest ≠ digest ∨ request.generation ≠ generation) .unavailable
  match validateSigned platform record raw with
  | .error _ => throw .unavailable
  | .ok signed => do
    revertIf (signed.transactionHash ≠ expectedHash) .unavailable
    revertIf (∃ previous ∈ request.rawTransaction, previous ≠ raw)
      (.message "signer result bytes already fixed")
    let status ← importStatus (← signedIn platform key record s) signed expectedHash
    let stored := (s.signatureImports.lookup key).getD ⟨digest, expectedHash⟩
    revertIf (stored.intentDigest ≠ digest ∨ stored.transactionHash ≠ expectedHash) .unavailable
    return ({ signed with status := status }, { s with
      signRequests := s.signRequests.insert key { request with rawTransaction := raw }
      signatureImports := s.signatureImports.insert key stored })

/-! ### Gas budgets -/

/-- `SetGasBudget`: a request that was made before returns what it set then. -/
def setGasBudget (genesisHash : Bytes32) (sender : Address)
    (maxTransaction maximumTotal : Decimal) (requestId : Bytes32) (s : Store) :
    Except MaintenanceError (GasBudget × Store) := do
  let limit ← orRevert maxTransaction .unavailable
  let total ← orRevert maximumTotal .unavailable
  revertIf (limit ≥ 2 ^ 256 ∨ total ≥ 2 ^ 256 ∨ sender = 0 ∨ requestId = 0 ∨ limit = 0 ∨
    total = 0 ∨ limit > total) .unavailable
  let account : Account := ⟨chainId, genesisHash, sender⟩
  let b := (s.budgets.lookup account).getD ⟨0, limit, total, 0⟩
  match s.budgetChanges.lookup (account, requestId) with
  | some old => do
    revertIf (old.maxTransaction ≠ limit ∨ old.maximumTotal ≠ total) .unavailable
    return (old, { s with budgets := s.budgets.insert account b })
  | none => do
    revertIf (b.allocated > total) .budgetExceeded
    revertIf (b.revision = 2 ^ 63 - 1) .unavailable
    let changed : GasBudget := ⟨b.revision + 1, limit, total, b.allocated⟩
    return (changed, { s with
      budgets := s.budgets.insert account changed
      budgetChanges := s.budgetChanges.insert (account, requestId) changed })

/-- `chargeGasBudgetIn`, in the transaction of a submission. -/
def chargeGasBudgetIn (record : IntentRecord) (s : Store) : Except MaintenanceError Store := do
  let r := record.intent.reservation
  let account : Account := ⟨chainId, r.genesisHash, r.sender⟩
  let b ← orRevert (s.budgets.lookup account) .budgetRequired
  revertIf (b.revision < 1) .unavailable
  let cost := record.intent.maximumGasCost
  revertIf (cost = 0 ∨ cost ≥ 2 ^ 256) .unavailable
  let next := b.allocated + cost
  revertIf (cost > b.maxTransaction ∨ next > b.maximumTotal) .budgetExceeded
  return { s with
    budgets := s.budgets.insert account { b with allocated := next }
    charges := s.charges.insert r.jobKey ⟨account, b.revision, cost⟩ }

/-! ### Submissions -/

/-- What a submission starts from: the intent of the job, and the transaction that was signed of it.
-/
def submissionMaterial (key : Bytes32) (s : Store) :
    Except MaintenanceError (IntentRecord × SignedTransaction) := do
  let (_, record) ← intentMaterial platform chainId key s
  let signed ← orRevert (← signedIn platform key record s) .unavailable
  return (record, signed)

/-- The simulation of a submission is stored, and is one of its job. -/
def validateSimulation (key digest : Bytes32) (s : Store) : Except MaintenanceError Unit := do
  let row ← orRevert (s.simulation key digest) .unavailable
  revertIf (platform.hash (.preview row.payload) ≠ digest ∨
    validateMaintenancePreview platform row.payload = false ∨ row.payload.key ≠ key) .unavailable

/-- The submission of a job, unless there is none. -/
def submissionIn (signed : SignedTransaction) (s : Store) :
    Except MaintenanceError (Option Submission) :=
  match s.submissions.lookup signed.jobKey with
  | none => return none
  | some out => do
    revertIf (out.intentDigest ≠ signed.intentDigest ∨
      out.transactionHash ≠ signed.transactionHash) .unavailable
    validateSimulation platform out.jobKey out.simulationDigest s
    return some out

/-- The preview still describes the call of the intent. -/
def requireCall (call : IntentCall) (p : MaintenancePreview) : Except MaintenanceError Unit :=
  revertIf (call.fromAddress ≠ p.fromAddress ∨ call.toAddress ≠ p.toAddress ∨
    call.data ≠ p.data ∨ call.value ≠ p.value) .unavailable

/-- What is to be sent to the network: the bytes, and the row that was stored for them. -/
inductive Sending
  | submission (row : Submission) (raw : Hex)
  | rebroadcast (row : Rebroadcast) (raw : Hex)
deriving DecidableEq

/-- `Submit`, up to the broadcast; nothing is left to send if the submission is an earlier one. -/
def submit (rpc : Answers) (p : MaintenancePreview) (expectedHash : Bytes32) (owner : String)
    (token : Bytes32) (generation : ℕ) (s : Store) :
    Except MaintenanceError ((Submission × Option Sending) × Store) := do
  revertIf (validateMaintenancePreview platform p = false ∨ p.chainId ≠ chainId ∨
    validLeaseInput owner token 10 = false ∨ generation < 1) .unavailable
  let (record, signed) ← submissionMaterial platform chainId p.key s
  revertIf (signed.transactionHash ≠ expectedHash ∨
    record.intent.reservation.generation ≠ generation) .unavailable
  let l ← orRevert (latestLease s p.key) .leaseLost
  revertIf (l.owner ≠ owner ∨ l.token ≠ token ∨ l.generation ≠ generation) .leaseLost
  match ← submissionIn platform signed s with
  | some old => return ((old, none), s)
  | none => do
    let now ← orRevert rpc.now .leaseLost
    revertIf (l.released = true ∨ l.expiresAt ≤ now ∨ ¬ Recent p now) .leaseLost
    requireCall record.intent.call p
    requireSimulation platform p s
    requireChain rpc chainId record.intent.reservation.genesisHash
    let gone : MaintenanceError := .message "reserved nonce is no longer available"
    let pending ← orRevert rpc.pendingNonce gone
    revertIf (pending > record.intent.reservation.nonce) gone
    requireSameReturn rpc p (.message "submission simulation failed")
      (.message "submission simulation differs from preview")
    requireBlock rpc p
    let now ← orRevert rpc.recheck .leaseLost
    revertIf (l.expiresAt ≤ now ∨ unix now - p.blockTimestamp > 120) .leaseLost
    let out : Submission := ⟨p.key, record.digest, signed.transactionHash,
      platform.hash (.preview p), .submissionUnknown⟩
    let s := { s with submissions := s.submissions.insert p.key out }
    let s ← chargeGasBudgetIn chainId record s
    let now ← orRevert rpc.last .leaseLost
    revertIf (l.expiresAt ≤ now ∨ unix now - p.blockTimestamp > 120) .leaseLost
    return ((out, some (.submission out signed.rawTransaction)), s)

/-- The attempt to send a submission again, unless there is none. -/
def rebroadcastIn (signed : SignedTransaction) (attempt : Bytes32) (s : Store) :
    Except MaintenanceError (Option Rebroadcast) :=
  match s.rebroadcasts.lookup (signed.jobKey, attempt) with
  | none => return none
  | some out => do
    revertIf (out.transactionHash ≠ signed.transactionHash) .unavailable
    validateSimulation platform signed.jobKey out.simulationDigest s
    return some out

/-- `Rebroadcast`, up to the broadcast. The lease of the job is not asked for. -/
def rebroadcast (rpc : Answers) (p : MaintenancePreview) (expectedHash attempt : Bytes32)
    (s : Store) : Except MaintenanceError ((Rebroadcast × Option Sending) × Store) := do
  revertIf (validateMaintenancePreview platform p = false ∨ p.chainId ≠ chainId ∨ attempt = 0)
    .unavailable
  let (record, signed) ← submissionMaterial platform chainId p.key s
  revertIf (signed.transactionHash ≠ expectedHash) .unavailable
  let _ ← orRevert (← submissionIn platform signed s) .unavailable
  match ← rebroadcastIn platform signed attempt s with
  | some old => return ((old, none), s)
  | none => do
    requireCall record.intent.call p
    requireSimulation platform p s
    let now ← orRevert rpc.now .unavailable
    revertIf (¬ Recent p now) .unavailable
    requireChain rpc chainId record.intent.reservation.genesisHash
    revertIf (rpc.receipt ≠ some false)
      (.message "receipt already observed or unavailable; reconcile before rebroadcast")
    let consumed : MaintenanceError :=
      .message "reserved nonce has been consumed or is unavailable"
    let confirmed ← orRevert rpc.nonceAtHash consumed
    revertIf (confirmed > record.intent.reservation.nonce) consumed
    requireSameReturn rpc p (.message "rebroadcast simulation failed") .unavailable
    requireBlock rpc p
    let now ← orRevert rpc.recheck .unavailable
    revertIf (unix now - p.blockTimestamp > 120) .unavailable
    let out : Rebroadcast := ⟨p.key, attempt, signed.transactionHash,
      platform.hash (.preview p), .submissionUnknown⟩
    return ((out, some (.rebroadcast out signed.rawTransaction)),
      { s with rebroadcasts := s.rebroadcasts.insert (p.key, attempt) out })

/-- The `UPDATE` of `Submit` or of `Rebroadcast` after the network has answered with the hash. -/
def acknowledge (sending : Sending) (s : Store) : Except MaintenanceError Store :=
  match sending with
  | .submission row _ => do
    revertIf (s.submissions.lookup row.jobKey ≠ some row) .submissionUnknown
    return { s with
      submissions := s.submissions.insert row.jobKey { row with status := .acknowledged } }
  | .rebroadcast row _ => do
    revertIf (s.rebroadcasts.lookup (row.jobKey, row.attemptId) ≠ some row) .submissionUnknown
    return { s with
      rebroadcasts := s.rebroadcasts.insert (row.jobKey, row.attemptId)
        { row with status := .acknowledged } }

/-! ### Recovery of an authorization -/

/-- What is known of the signer's answer, if it was asked. -/
def knownSignature (key : Bytes32) (request : SignRequest) (record : IntentRecord) (s : Store) :
    Except MaintenanceError Hex :=
  match request.rawTransaction with
  | some raw => return raw
  | none => do
    let saved ← orRevert (← signedIn platform key record s) .unavailable
    return saved.rawTransaction

/-- The signer was not asked, or its answer is known and valid. -/
def requireKnownSignature (key digest : Bytes32) (generation : ℕ) (record : IntentRecord)
    (s : Store) : Except MaintenanceError Unit :=
  match s.signRequests.lookup key with
  | none => return ()
  | some request => do
    revertIf (request.intentDigest ≠ digest ∨ request.generation ≠ generation) .unavailable
    let raw ← knownSignature platform key request record s
    match validateSigned platform record raw with
    | .error _ => throw .unavailable
    | .ok _ => return ()

/-- `RecoverAuthorization`: the lease of a fixed intent lasts again. -/
def recoverAuthorization (rpc : Answers) (p : MaintenancePreview) (digest : Bytes32)
    (owner : String) (token : Bytes32) (generation : ℕ) (recoveryId : Bytes32) (s : Store) :
    Except MaintenanceError (AuthorizationRecovery × Store) := do
  revertIf (validLeaseInput owner token 10 = false ∨ generation < 1 ∨
    validLeaseInput owner recoveryId 10 = false ∨
    validateMaintenancePreview platform p = false ∨ p.chainId ≠ chainId) .unavailable
  lockLeaseJob platform chainId p.key s
  let r ← orRevert (s.reservations.lookup p.key) .unavailable
  revertIf (r.generation ≠ generation) .unavailable
  validateReservation platform r s
  let record ← orRevert (← intentIn platform p.key s) .unavailable
  revertIf (record.digest ≠ digest) .unavailable
  validateIntent platform r record s
  let l ← orRevert (latestLease s p.key) .leaseLost
  revertIf (l.owner ≠ owner ∨ l.token ≠ token ∨ l.generation ≠ generation) .leaseLost
  match s.recoveries.lookup (p.key, recoveryId) with
  | some old => do
    revertIf (old.generation ≠ generation ∨ old.intentDigest ≠ digest) .unavailable
    return (old, s)
  | none => do
    revertIf (l.released = true) .leaseLost
    revertIf ((s.submissions.lookup p.key).isSome = true) .unavailable
    requireKnownSignature platform p.key digest generation record s
    let now ← orRevert rpc.now .unavailable
    revertIf (now < l.expiresAt) (.message "authorization is still active")
    revertIf (p.fromAddress ≠ r.sender ∨ p.genesisHash ≠ r.genesisHash ∨
      p.toAddress ≠ record.intent.call.toAddress ∨ p.data ≠ record.intent.call.data) .unavailable
    revertIf (¬ Recent p now) .unavailable
    requireChain rpc r.chainId r.genesisHash
    let pending ← orRevert rpc.pendingNonce .unavailable
    revertIf (pending > r.nonce) .unavailable
    requireSameReturn rpc p .unavailable .unavailable
    requireBlock rpc p
    let now ← orRevert rpc.recheck .unavailable
    revertIf (unix now - p.blockTimestamp > 120) .unavailable
    let (saved, s) ← recordIn platform chainId p s
    let expires := now + seconds l.ttlSeconds
    let out : AuthorizationRecovery :=
      ⟨p.key, recoveryId, generation, digest, saved.digest, expires⟩
    return (out, { s.setLease p.key { l with expiresAt := expires } with
      recoveries := s.recoveries.insert (p.key, recoveryId) out })

/-! ### The workers and the network -/

/-- A transaction of the database, with what it hears on its way. -/
inductive Call
  | record (p : MaintenancePreview)
  | acquireLease (key : Bytes32) (owner : String) (token : Bytes32) (ttl : ℕ)
      (clock : Option Time)
  | changeLease (key : Bytes32) (owner : String) (token : Bytes32) (generation : ℕ)
      (release : Bool) (clock : Option Time)
  | reserveNonce (rpc : Answers) (p : MaintenancePreview) (owner : String) (token : Bytes32)
      (generation : ℕ)
  | prepareIntent (rpc : Answers) (p : MaintenancePreview) (fees : Fees) (owner : String)
      (token : Bytes32) (generation : ℕ)
  | prepare (clock : Option Time) (reserving preparing : Answers) (p : MaintenancePreview)
      (fees : Fees) (owner : String) (token : Bytes32) (ttl : ℕ)
  | attachSigned (rpc : Answers) (key digest : Bytes32) (owner : String) (token : Bytes32)
      (generation : ℕ) (raw : Hex)
  | sign (clock : Option Time) (key digest : Bytes32) (owner : String) (token : Bytes32)
      (generation : ℕ)
  | importSignature (key digest expectedHash : Bytes32) (owner : String) (token : Bytes32)
      (generation : ℕ) (raw : Hex)
  | setGasBudget (genesisHash : Bytes32) (sender : Address)
      (maxTransaction maximumTotal : Decimal) (requestId : Bytes32)
  | submit (rpc : Answers) (p : MaintenancePreview) (expectedHash : Bytes32) (owner : String)
      (token : Bytes32) (generation : ℕ)
  | rebroadcast (rpc : Answers) (p : MaintenancePreview) (expectedHash attempt : Bytes32)
  | recoverAuthorization (rpc : Answers) (p : MaintenancePreview) (digest : Bytes32)
      (owner : String) (token : Bytes32) (generation : ℕ) (recoveryId : Bytes32)
  /-- The `Claim` of an account by the service of the settlements. -/
  | claimSettlement (account : Account)

/-- What a transaction leaves to do outside the database once it is committed. -/
inductive Errand
  /-- To ask the signer. -/
  | sign (key : Bytes32) (record : IntentRecord)
  /-- To send bytes to the network. -/
  | send (sending : Sending)
deriving DecidableEq

/-- What is left to do after a transaction of the signing stage: to ask the signer, if it is the
first that asks. -/
def SignOutcome.errand (key : Bytes32) : SignOutcome → Option Errand
  | invoke record => some (.sign key record)
  | _ => none

/-- The transaction of a call. -/
def Store.exec (s : Store) : Call → Except MaintenanceError (Store × Option Errand)
  | .record p => do
    let (_, s) ← recordIn platform chainId p s
    return (s, none)
  | .acquireLease key owner token ttl clock => do
    let (_, s) ← acquireLeaseIn platform chainId key owner token ttl clock s
    return (s, none)
  | .changeLease key owner token generation release clock => do
    let (_, s) ← changeLease platform chainId key owner token generation release clock s
    return (s, none)
  | .reserveNonce rpc p owner token generation => do
    let (_, s) ← reserveNonceIn platform chainId rpc p owner token generation s
    return (s, none)
  | .prepareIntent rpc p fees owner token generation => do
    let (_, s) ← prepareIntentIn platform chainId rpc p fees owner token generation s
    return (s, none)
  | .prepare clock reserving preparing p fees owner token ttl => do
    let (_, s) ← prepare platform chainId clock reserving preparing p fees owner token ttl s
    return (s, none)
  | .attachSigned rpc key digest owner token generation raw => do
    let (_, s) ← attachSigned platform chainId rpc key digest owner token generation raw s
    return (s, none)
  | .sign clock key digest owner token generation => do
    let (outcome, s) ← sign platform chainId clock key digest owner token generation s
    return (s, outcome.errand key)
  | .importSignature key digest expectedHash owner token generation raw => do
    let (_, s) ← importSignature platform chainId key digest expectedHash owner token generation
      raw s
    return (s, none)
  | .setGasBudget genesisHash sender maxTransaction maximumTotal requestId => do
    let (_, s) ← setGasBudget chainId genesisHash sender maxTransaction maximumTotal requestId s
    return (s, none)
  | .submit rpc p expectedHash owner token generation => do
    let ((_, sending), s) ← submit platform chainId rpc p expectedHash owner token generation s
    return (s, sending.map .send)
  | .rebroadcast rpc p expectedHash attempt => do
    let ((_, sending), s) ← rebroadcast platform chainId rpc p expectedHash attempt s
    return (s, sending.map .send)
  | .recoverAuthorization rpc p digest owner token generation recoveryId => do
    let (_, s) ← recoverAuthorization platform chainId rpc p digest owner token generation
      recoveryId s
    return (s, none)
  | .claimSettlement account => do
    let s ← claim account .settlement s
    return (s, none)

/-- The database, the errands of the processes that have not stopped, and what was done outside. -/
structure System where
  store : Store
  errands : List Errand
  /-- The requests to the signer, the latest first. -/
  asked : List (Bytes32 × IntentRecord)
  /-- What was sent to the network, the latest first. -/
  sent : List Sending

/-- Nothing is stored but the roles of some accounts. -/
def System.initial (roles : Table Account Role) : System :=
  ⟨⟨[], [], ∅, roles, ∅, ∅, ∅, ∅, ∅, ∅, ∅, ∅, ∅, ∅, ∅, ∅⟩, [], [], []⟩

/-- What happens: a call of a worker, with its transaction, a call whose answer is lost, the signer
being asked and its answer kept, or the network being given bytes and taking them. -/
inductive Event
  | call (c : Call)
  | lost (c : Call)
  | askSigner (key : Bytes32) (record : IntentRecord)
  | saveSignature (key : Bytes32) (record : IntentRecord) (raw : Hex)
  | broadcast (sending : Sending)
  | acknowledge (sending : Sending)

/-- **A step.** Any process may make any call at any time, and it may stop after it, or not hear
that it was committed; the errand of the call is then lost. The signer and the network may answer
late, or not at all. -/
inductive Step : System → Event → System → Prop
  | call {t : System} {c : Call} {s : Store} {errand : Option Errand} :
      t.store.exec platform chainId c = .ok (s, errand) →
      Step t (.call c) { t with store := s, errands := errand.toList ++ t.errands }
  | lost {t : System} {c : Call} {s : Store} {errand : Option Errand} :
      t.store.exec platform chainId c = .ok (s, errand) →
      Step t (.lost c) { t with store := s }
  | askSigner {t : System} {key : Bytes32} {record : IntentRecord} :
      .sign key record ∈ t.errands →
      Step t (.askSigner key record)
        { t with errands := t.errands.erase (.sign key record), asked := (key, record) :: t.asked }
  | saveSignature {t : System} {key : Bytes32} {record : IntentRecord} {raw : Hex} {s : Store} :
      (key, record) ∈ t.asked → saveSignature platform record key raw t.store = .ok s →
      Step t (.saveSignature key record raw) { t with store := s }
  | broadcast {t : System} {sending : Sending} : .send sending ∈ t.errands →
      Step t (.broadcast sending)
        { t with errands := t.errands.erase (.send sending), sent := sending :: t.sent }
  | acknowledge {t : System} {sending : Sending} {s : Store} : sending ∈ t.sent →
      acknowledge sending t.store = .ok s →
      Step t (.acknowledge sending) { t with store := s }

/-- A step, as a function. -/
def System.act (t : System) : Event → Except MaintenanceError System
  | .call c => do
    let (s, errand) ← t.store.exec platform chainId c
    return { t with store := s, errands := errand.toList ++ t.errands }
  | .lost c => do
    let (s, _) ← t.store.exec platform chainId c
    return { t with store := s }
  | .askSigner key record => do
    revertIf (.sign key record ∉ t.errands) .unavailable
    return { t with
      errands := t.errands.erase (.sign key record), asked := (key, record) :: t.asked }
  | .saveSignature key record raw => do
    revertIf ((key, record) ∉ t.asked) .unavailable
    let s ← saveSignature platform record key raw t.store
    return { t with store := s }
  | .broadcast sending => do
    revertIf (.send sending ∉ t.errands) .unavailable
    return { t with errands := t.errands.erase (.send sending), sent := sending :: t.sent }
  | .acknowledge sending => do
    revertIf (sending ∉ t.sent) .submissionUnknown
    let s ← acknowledge sending t.store
    return { t with store := s }

variable {platform chainId} in
/-- **The steps can be computed.** -/
theorem step_iff_act {t t' : System} {e : Event} :
    Step platform chainId t e t' ↔ t.act platform chainId e = .ok t' := by
  constructor
  · intro h
    cases h with
    | call hexec | lost hexec => exact bind_eq_ok.mpr ⟨_, hexec, rfl⟩
    | askSigner hmem | broadcast hmem =>
      exact bind_eq_ok.mpr ⟨(), revertIf_eq_ok.mpr (not_not_intro hmem), rfl⟩
    | saveSignature hmem hsave | acknowledge hmem hsave =>
      exact bind_eq_ok.mpr ⟨(), revertIf_eq_ok.mpr (not_not_intro hmem),
        bind_eq_ok.mpr ⟨_, hsave, rfl⟩⟩
  · intro h
    cases e with
    | call c =>
      obtain ⟨⟨s, errand⟩, hexec, h⟩ := bind_eq_ok.mp h
      cases h
      exact .call hexec
    | lost c =>
      obtain ⟨⟨s, errand⟩, hexec, h⟩ := bind_eq_ok.mp h
      cases h
      exact .lost hexec
    | askSigner key record =>
      obtain ⟨_, hmem, h⟩ := bind_eq_ok.mp h
      cases h
      exact .askSigner (not_not.mp (revertIf_eq_ok.mp hmem))
    | saveSignature key record raw =>
      obtain ⟨_, hmem, h⟩ := bind_eq_ok.mp h
      obtain ⟨s, hsave, h⟩ := bind_eq_ok.mp h
      cases h
      exact .saveSignature (not_not.mp (revertIf_eq_ok.mp hmem)) hsave
    | broadcast sending =>
      obtain ⟨_, hmem, h⟩ := bind_eq_ok.mp h
      cases h
      exact .broadcast (not_not.mp (revertIf_eq_ok.mp hmem))
    | acknowledge sending =>
      obtain ⟨_, hmem, h⟩ := bind_eq_ok.mp h
      obtain ⟨s, hack, h⟩ := bind_eq_ok.mp h
      cases h
      exact .acknowledge (not_not.mp (revertIf_eq_ok.mp hmem)) hack

/-- Steps, one after the other. -/
def System.acts (t : System) (es : List Event) : Except MaintenanceError System :=
  es.foldlM (System.act platform chainId) t

variable {platform chainId} in
theorem run_of_acts {t t' : System} {es : List Event}
    (h : t.acts platform chainId es = .ok t') :
    Transition.Run (Step platform chainId) t es t' := by
  induction es generalizing t with
  | nil =>
    cases h
    exact .refl _
  | cons e es ih =>
    rw [System.acts, List.foldlM_cons] at h
    obtain ⟨u, hu, h⟩ := bind_eq_ok.mp h
    exact (Transition.Run.single (step_iff_act.mpr hu)).append (ih h)

/-- The states that the workers can reach. -/
def Reachable (t : System) : Prop :=
  Transition.Reachable (Step platform chainId) (fun t => ∃ roles, t = System.initial roles) t

end Maintenance

end Backend

end TickerGarden
