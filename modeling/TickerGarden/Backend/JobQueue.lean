import Mathlib.Data.List.Sort
import TickerGarden.Backend.Decoded
import TickerGarden.Lib.Table
import TickerGarden.Lib.Transition

/-!
# The job queue

The durable queue of the backend: the tables `jobs`, `job_attempts` and `queue_generations`,
and the calls that workers make on them. Each call is one transaction. It is a function of the
store and of what the database adds to it: the time at which the transaction began, which need
not grow from one call to the next, and the rows that other transactions have locked, which
`SKIP LOCKED` passes over.

A worker knows of a job only what a claim has returned to it, its **lease**, and uses that
whenever it likes. So the state of the system (`JobQueue.System`) is the store together with
all leases that were ever issued, and a step (`JobQueue.Step`) is any call with any of these.

The messages of the inbox and of the outbox, which no call on a job reads, are not in the
store; what a call asks of them is an argument.
-/

namespace TickerGarden

open Checked

namespace Backend

namespace JobQueue

/-! ### The tables -/

/-- The two queues, of the jobs that read the chain and of those that prepare contents. -/
inductive QueueName
  | chain
  | content
deriving DecidableEq

/-- Which runtime works on a queue. -/
inductive ExecutionMode
  | qstash
  | resident
deriving DecidableEq

/-- The states of a job. Those that a job never leaves are `succeeded` and `dead`. -/
inductive JobState
  | pending
  | leased
  | retry
  | succeeded
  | dead
deriving DecidableEq

/-- What is written of an attempt. -/
inductive Outcome
  | leased
  | succeeded
  | retry
  | dead
  | expired
deriving DecidableEq

/-- A time of the database, in microseconds. -/
abbrev Timestamp := ℕ

/-- An interval of a number of milliseconds. -/
def milliseconds (n : ℕ) : Timestamp := n * 1000

/-- A row of `jobs`. The two last fields are constraints of the table. -/
structure Job where
  operationId : String
  queue : QueueName
  kind : String
  payloadDigest : Bytes32
  payload : String
  state : JobState
  generation : ℕ
  fencing : ℕ
  attempt : ℕ
  maxAttempts : ℕ
  nextAttemptAt : Timestamp
  leaseOwner : Option String
  leaseExpiresAt : Option Timestamp
  resultDigest : Option String
  lastErrorCode : Option String
  lease_check : state = .leased ↔ leaseOwner.isSome ∧ leaseExpiresAt.isSome
  maxAttempts_check : 1 ≤ maxAttempts ∧ maxAttempts ≤ 32

/-- A row of `job_attempts`. -/
structure JobAttempt where
  jobId : ℕ
  queue : QueueName
  fencing : ℕ
  attempt : ℕ
  outcome : Outcome
  errorCode : Option String
deriving DecidableEq

/-- A row of `queue_generations`. -/
structure QueueGeneration where
  activeGeneration : ℕ
  executionMode : ExecutionMode

/-- The tables, and the next value of the sequence the ids of jobs come from. -/
structure Store where
  jobs : Table ℕ Job
  nextJobId : ℕ
  attempts : List JobAttempt
  generations : QueueName → QueueGeneration

/-- What a claim returns of a job. -/
structure Lease where
  id : ℕ
  operationId : String
  queue : QueueName
  kind : String
  payload : String
  payloadDigest : Bytes32
  generation : ℕ
  fencing : ℕ
  attempt : ℕ
  maxAttempts : ℕ
  leaseExpiresAt : Timestamp
deriving DecidableEq

/-! ### What the statements write -/

/-- The row of a job that is claimed. -/
def Job.claim (j : Job) (owner : String) (expiresAt : Timestamp) : Job :=
  { j with
    state := .leased
    leaseOwner := some owner
    leaseExpiresAt := some expiresAt
    fencing := j.fencing + 1
    attempt := j.attempt + 1
    lease_check := by simp }

/-- The row of a job that is completed. -/
def Job.complete (j : Job) (resultDigest : String) : Job :=
  { j with
    state := .succeeded
    leaseOwner := none
    leaseExpiresAt := none
    resultDigest := some resultDigest
    lease_check := by simp }

/-- What becomes of a job whose attempt has failed. -/
inductive FailOutcome
  | retry
  | dead
deriving DecidableEq

/-- The state that a failure leaves the job in. -/
def FailOutcome.state : FailOutcome → JobState
  | retry => .retry
  | dead => .dead

/-- The outcome that is recorded of the attempt that failed. -/
def FailOutcome.outcome : FailOutcome → Outcome
  | retry => .retry
  | dead => .dead

/-- The row of a job whose attempt has failed. -/
def Job.fail (j : Job) (outcome : FailOutcome) (errorCode : String) (retryAt : Timestamp) : Job :=
  { j with
    state := outcome.state
    leaseOwner := none
    leaseExpiresAt := none
    lastErrorCode := some errorCode
    nextAttemptAt := if outcome = .retry then retryAt else j.nextAttemptAt
    lease_check := by cases outcome <;> simp [FailOutcome.state] }

/-- The row of a job whose lease has run out. -/
def Job.expire (j : Job) (now : Timestamp) : Job :=
  { j with
    state := if j.attempt ≥ j.maxAttempts then .dead else .retry
    leaseOwner := none
    leaseExpiresAt := none
    nextAttemptAt := now
    lastErrorCode := some "lease_expired"
    lease_check := by split <;> simp }

/-- What `RETURNING` gives of a job that is claimed. -/
def Job.lease (j : Job) (id : ℕ) (expiresAt : Timestamp) : Lease where
  id := id
  operationId := j.operationId
  queue := j.queue
  kind := j.kind
  payload := j.payload
  payloadDigest := j.payloadDigest
  generation := j.generation
  fencing := j.fencing + 1
  attempt := j.attempt + 1
  maxAttempts := j.maxAttempts
  leaseExpiresAt := expiresAt

/-! ### The conditions of the statements -/

/-- The job may be claimed. -/
def Job.Due (j : Job) (queue : QueueName) (generation : ℕ) (now : Timestamp) : Prop :=
  j.queue = queue ∧ (j.state = .pending ∨ j.state = .retry) ∧ j.nextAttemptAt ≤ now ∧
    j.generation = generation

/-- The job is leased to the owner, under the token of the lease. -/
def Job.HeldBy (j : Job) (owner : String) (lease : Lease) : Prop :=
  j.state = .leased ∧ j.leaseOwner = some owner ∧ j.fencing = lease.fencing ∧
    j.generation = lease.generation

/-- The lease of the job ends after a time. -/
def Job.Unexpired (j : Job) (now : Timestamp) : Prop := ∃ e ∈ j.leaseExpiresAt, now < e

/-- The lease of the job has run out. -/
def Job.Expired (j : Job) (queue : QueueName) (generation : ℕ) (now : Timestamp) : Prop :=
  j.queue = queue ∧ j.state = .leased ∧ (∃ e ∈ j.leaseExpiresAt, e ≤ now) ∧
    j.generation = generation

instance (j : Job) (queue : QueueName) (generation : ℕ) (now : Timestamp) :
    Decidable (j.Due queue generation now) := inferInstanceAs (Decidable (_ ∧ _))

instance (j : Job) (owner : String) (lease : Lease) : Decidable (j.HeldBy owner lease) :=
  inferInstanceAs (Decidable (_ ∧ _))

instance (j : Job) (now : Timestamp) : Decidable (j.Unexpired now) :=
  inferInstanceAs (Decidable (∃ e ∈ j.leaseExpiresAt, now < e))

instance (j : Job) (queue : QueueName) (generation : ℕ) (now : Timestamp) :
    Decidable (j.Expired queue generation now) := inferInstanceAs (Decidable (_ ∧ _))

/-! ### The calls -/

/-- A name of the queue, an operation or an owner, is of the syntax that the tables accept. -/
def assertToken (value field : String) : Except JsError Unit :=
  throwIf (isToken value = false) (field ++ " has invalid syntax")

/-- `/^0x[0-9a-f]{64}$/`. -/
def isDigest (value : String) : Bool :=
  value.toList.take 2 = ['0', 'x'] && value.length == 66 &&
    (value.toList.drop 2).all fun c => c.isDigit || ('a' ≤ c && c ≤ 'f')

/-- The caller belongs to the generation of workers that the queue is run by. -/
def assertActiveGeneration (s : Store) (queue : QueueName) (expectedGeneration : ℕ) :
    Except JsError Unit :=
  throwIf ((s.generations queue).activeGeneration ≠ expectedGeneration)
    "runtime queue generation is stale"

/-- Whether the queue is run in the mode of the caller. -/
def queueModeMatches (s : Store) (queue : QueueName) (mode : ExecutionMode) : Bool :=
  (s.generations queue).executionMode = mode

/-- Insert into `job_attempts`, which is `UNIQUE(job_id,fencing,outcome)`. -/
def insertAttempt (attempts : List JobAttempt) (a : JobAttempt) :
    Except JsError (List JobAttempt) := do
  throwIf (∃ b ∈ attempts, b.jobId = a.jobId ∧ b.fencing = a.fencing ∧ b.outcome = a.outcome)
    "duplicate key value violates unique constraint \"job_attempts_job_id_fencing_outcome_key\""
  return a :: attempts

/-- The jobs that satisfy a condition and are not locked, in the order of a key and of their
ids, as many as there may be. -/
def select (p : Job → Bool) (key : Job → Timestamp) (locked : List ℕ) (limit : ℕ)
    (jobs : Table ℕ Job) : List (ℕ × Job) :=
  ((((Table.rows id jobs).filter fun x => p x.2 && !locked.contains x.1).insertionSort
    fun x y => key x.2 ≤ key y.2)).take limit

/-- Update the selected rows. -/
def update (f : Job → Job) (selected : List (ℕ × Job)) (jobs : Table ℕ Job) : Table ℕ Job :=
  Table.map (fun id j => if id ∈ selected.map Prod.fst then f j else j) jobs

/-- The row of `job_attempts` that goes with a lease. -/
def Lease.attemptRow (l : Lease) (outcome : Outcome) (errorCode : Option String) : JobAttempt :=
  ⟨l.id, l.queue, l.fencing, l.attempt, outcome, errorCode⟩

/-- The `INSERT INTO jobs` of `enqueueReliableMessage`, with the checks on what it inserts. -/
def enqueue (now : Timestamp) (queue : QueueName) (operationId kind : String)
    (payloadDigest : Bytes32) (payload : String) (maxAttempts generation : ℕ) (s : Store) :
    Except JsError (ℕ × Store) := do
  assertToken operationId "operationId"
  assertToken kind "kind"
  if h : 1 ≤ maxAttempts ∧ maxAttempts ≤ 32 then
    assertActiveGeneration s queue generation
    throwIf (∃ e ∈ s.jobs.entries, e.2.operationId = operationId) "operation ID already exists"
    let job : Job := {
      operationId, queue, kind, payloadDigest, payload, maxAttempts, generation
      state := .pending
      fencing := 0
      attempt := 0
      nextAttemptAt := now
      leaseOwner := none
      leaseExpiresAt := none
      resultDigest := none
      lastErrorCode := none
      lease_check := by simp
      maxAttempts_check := h }
    return (s.nextJobId, { s with
      jobs := s.jobs.insert s.nextJobId job
      nextJobId := s.nextJobId + 1 })
  else throwJs "maxAttempts must be between 1 and 32"

/-- Lease the selected jobs, and write down the attempts. -/
def lease (now : Timestamp) (owner : String) (leaseMs : ℕ) (selected : List (ℕ × Job))
    (s : Store) : Except JsError (List Lease × Store) := do
  let expiresAt := now + milliseconds leaseMs
  let leases := selected.map fun x => x.2.lease x.1 expiresAt
  let attempts ← (leases.map fun l => l.attemptRow .leased none).foldlM insertAttempt s.attempts
  return (leases, { s with
    jobs := update (fun j => j.claim owner expiresAt) selected s.jobs
    attempts })

/-- The job of an operation is leased to the caller, if it is due and its queue is run by messages.
The answer is empty otherwise. -/
def claimJobByOperation (now : Timestamp) (queue : QueueName) (operationId owner : String)
    (leaseMs expectedGeneration : ℕ) (s : Store) : Except JsError (List Lease × Store) := do
  assertToken operationId "operationId"
  assertToken owner "owner"
  throwIf (leaseMs < 1000 ∨ leaseMs > 300000) "leaseMs must be between 1000 and 300000"
  assertActiveGeneration s queue expectedGeneration
  if queueModeMatches s queue .qstash then
    -- `operation_id` is unique, so that there is one such job at most
    lease now owner leaseMs
      (select (fun j => j.operationId = operationId ∧ j.Due queue expectedGeneration now)
        Job.nextAttemptAt [] 1 s.jobs) s
  else return ([], s)

/-- The jobs of a queue that are due are leased to the caller, at most a number of them, in the
order they became due. Rows that others hold locked are passed over. -/
def claimJobs (now : Timestamp) (locked : List ℕ) (queue : QueueName) (owner : String)
    (limit leaseMs expectedGeneration : ℕ) (executionMode : ExecutionMode) (s : Store) :
    Except JsError (List Lease × Store) := do
  assertToken owner "owner"
  throwIf (limit < 1 ∨ limit > 20) "limit must be between 1 and 20"
  throwIf (leaseMs < 1000 ∨ leaseMs > 300000) "leaseMs must be between 1000 and 300000"
  assertActiveGeneration s queue expectedGeneration
  if queueModeMatches s queue executionMode then
    lease now owner leaseMs
      (select (fun j => j.Due queue expectedGeneration now) Job.nextAttemptAt locked limit s.jobs) s
  else return ([], s)

/-- A job is completed, if the caller holds its lease, with its fencing number, and the lease has
not expired. Otherwise nothing changes, and the answer is no. -/
def completeJob (now : Timestamp) (lease : Lease) (owner resultDigest : String) (s : Store) :
    Except JsError (Bool × Store) := do
  assertToken owner "owner"
  throwIf (isDigest resultDigest = false) "resultDigest must be a lowercase SHA-256 hash"
  match (s.jobs.lookup lease.id).filter fun j => j.HeldBy owner lease ∧ j.Unexpired now with
  | none => return (false, s)
  | some j =>
    let attempts ← insertAttempt s.attempts (lease.attemptRow .succeeded none)
    return (true, { s with jobs := s.jobs.insert lease.id (j.complete resultDigest), attempts })

/-- How long a job waits after a failed attempt: twice as long after each, and six hours at most. -/
def retryDelayMs (attempt : ℕ) : Except JsError ℕ := do
  throwIf (attempt < 1) "attempt must be positive"
  return min 21600000 (1000 * 2 ^ min (attempt - 1) 30)

/-- The outcome a worker reports of a failed attempt. -/
def Lease.failOutcome (l : Lease) : FailOutcome :=
  if l.attempt ≥ l.maxAttempts then .dead else .retry

/-- `none` is the answer `stale`. -/
def failJob (now : Timestamp) (lease : Lease) (owner errorCode : String) (s : Store) :
    Except JsError (Option FailOutcome × Store) := do
  assertToken owner "owner"
  assertToken errorCode "errorCode"
  let outcome := lease.failOutcome
  let delay ← retryDelayMs lease.attempt
  match (s.jobs.lookup lease.id).filter fun j => j.HeldBy owner lease with
  | none => return (none, s)
  | some j =>
    let attempts ← insertAttempt s.attempts (lease.attemptRow outcome.outcome (some errorCode))
    return (some outcome, { s with
      jobs := s.jobs.insert lease.id (j.fail outcome errorCode (now + milliseconds delay))
      attempts })

/-- Leases that have expired are taken back: the attempt is recorded as expired, and the job is due
again, or is dead if it was the last one. -/
def recoverExpiredLeases (now : Timestamp) (locked : List ℕ) (queue : QueueName)
    (limit expectedGeneration : ℕ) (s : Store) : Except JsError (ℕ × Store) := do
  throwIf (limit < 1 ∨ limit > 1000) "limit must be between 1 and 1000"
  assertActiveGeneration s queue expectedGeneration
  let expired := select (fun j => j.Expired queue expectedGeneration now)
    (fun j => j.leaseExpiresAt.getD 0) locked limit s.jobs
  let attempts ← (expired.map fun x =>
    (⟨x.1, x.2.queue, x.2.fencing, x.2.attempt, .expired, some "lease_expired"⟩ : JobAttempt)).foldlM
      insertAttempt s.attempts
  return (expired.length, { s with jobs := update (fun j => j.expire now) expired s.jobs, attempts })

/-- `advanceQueueGeneration`. The outbox has a message that is not sent for some operations. -/
def advanceQueueGeneration (unsent : List String) (queue : QueueName)
    (expectedGeneration nextGeneration : ℕ) (s : Store) : Except JsError Store := do
  throwIf (nextGeneration ≠ expectedGeneration + 1) "queue generation must advance by exactly one"
  assertActiveGeneration s queue expectedGeneration
  throwIf (∃ e ∈ s.jobs.entries, e.2.queue = queue ∧ e.2.generation = expectedGeneration ∧
      (e.2.state ≠ .succeeded ∨ e.2.operationId ∈ unsent))
    "queue generation cannot advance before successful drain"
  let row : QueueGeneration := ⟨nextGeneration, (s.generations queue).executionMode⟩
  return { s with generations := Function.update s.generations queue row }

/-- `setQueueExecutionMode`. The outbox may have a message that is leased. -/
def setQueueExecutionMode (outboxLeased : Bool) (mode : ExecutionMode) (expectedGeneration : ℕ)
    (s : Store) : Except JsError Store := do
  assertActiveGeneration s .chain expectedGeneration
  throwIf ((∃ e ∈ s.jobs.entries, e.2.queue = .chain ∧ e.2.state = .leased) ∨ outboxLeased = true)
    "execution mode switch requires drained leases"
  let row : QueueGeneration := ⟨(s.generations .chain).activeGeneration, mode⟩
  return { s with generations := Function.update s.generations .chain row }

/-! ### Workers -/

/-- A call, with what the database adds to it. -/
inductive Call
  | enqueue (now : Timestamp) (queue : QueueName) (operationId kind : String)
      (payloadDigest : Bytes32) (payload : String) (maxAttempts generation : ℕ)
  | claimJobByOperation (now : Timestamp) (queue : QueueName) (operationId owner : String)
      (leaseMs expectedGeneration : ℕ)
  | claimJobs (now : Timestamp) (locked : List ℕ) (queue : QueueName) (owner : String)
      (limit leaseMs expectedGeneration : ℕ) (executionMode : ExecutionMode)
  | completeJob (now : Timestamp) (lease : Lease) (owner resultDigest : String)
  | failJob (now : Timestamp) (lease : Lease) (owner errorCode : String)
  | recoverExpiredLeases (now : Timestamp) (locked : List ℕ) (queue : QueueName)
      (limit expectedGeneration : ℕ)
  | advanceQueueGeneration (unsent : List String) (queue : QueueName)
      (expectedGeneration nextGeneration : ℕ)
  | setQueueExecutionMode (outboxLeased : Bool) (mode : ExecutionMode) (expectedGeneration : ℕ)

/-- What a call returns, or throws. -/
inductive Reply
  | enqueued (id : ℕ)
  | leases (leases : List Lease)
  | completed (done : Bool)
  | failed (outcome : Option FailOutcome)
  | recovered (count : ℕ)
  | done
  | thrown (e : JsError)
deriving DecidableEq

/-- A call, on the tables: what it answers, and the tables after it. -/
def Store.exec (s : Store) : Call → Except JsError (Reply × Store)
  | .enqueue now queue operationId kind payloadDigest payload maxAttempts generation =>
    (enqueue now queue operationId kind payloadDigest payload maxAttempts generation s).map
      (Prod.map .enqueued id)
  | .claimJobByOperation now queue operationId owner leaseMs expectedGeneration =>
    (JobQueue.claimJobByOperation now queue operationId owner leaseMs expectedGeneration s).map
      (Prod.map .leases id)
  | .claimJobs now locked queue owner limit leaseMs expectedGeneration executionMode =>
    (JobQueue.claimJobs now locked queue owner limit leaseMs expectedGeneration
      executionMode s).map (Prod.map .leases id)
  | .completeJob now lease owner resultDigest =>
    (JobQueue.completeJob now lease owner resultDigest s).map (Prod.map .completed id)
  | .failJob now lease owner errorCode =>
    (JobQueue.failJob now lease owner errorCode s).map (Prod.map .failed id)
  | .recoverExpiredLeases now locked queue limit expectedGeneration =>
    (JobQueue.recoverExpiredLeases now locked queue limit expectedGeneration s).map
      (Prod.map .recovered id)
  | .advanceQueueGeneration unsent queue expectedGeneration nextGeneration =>
    (JobQueue.advanceQueueGeneration unsent queue expectedGeneration nextGeneration s).map
      (Prod.mk .done)
  | .setQueueExecutionMode outboxLeased mode expectedGeneration =>
    (JobQueue.setQueueExecutionMode outboxLeased mode expectedGeneration s).map (Prod.mk .done)

/-- The lease a call is made with. -/
def Call.lease? : Call → Option Lease
  | .completeJob _ lease _ _ => some lease
  | .failJob _ lease _ _ => some lease
  | _ => none

/-- The worker a call leases jobs to. -/
def Call.claimer? : Call → Option String
  | .claimJobByOperation _ _ _ owner _ _ => some owner
  | .claimJobs _ _ _ owner _ _ _ _ => some owner
  | _ => none

/-- The leases a call has issued, and to whom. -/
def Call.issues (c : Call) : Reply → List (Lease × String)
  | .leases ls => ls.flatMap fun l => c.claimer?.toList.map fun owner => (l, owner)
  | _ => []

/-- The store, and all leases that were issued, with their holders. -/
structure System where
  store : Store
  issued : List (Lease × String)

/-- The tables as the migrations leave them. -/
def System.empty : System := ⟨⟨∅, 1, [], fun _ => ⟨0, .qstash⟩⟩, []⟩

/-- A call of some worker, with whichever lease was once issued. A call that throws is rolled
back. -/
inductive Step : System → Call × Reply → System → Prop
  | returned {s : System} {c : Call} {r : Reply} {t : Store} :
    (∀ lease ∈ c.lease?, lease ∈ s.issued.map Prod.fst) → s.store.exec c = .ok (r, t) →
    Step s (c, r) ⟨t, c.issues r ++ s.issued⟩
  | thrown {s : System} {c : Call} {e : JsError} :
    (∀ lease ∈ c.lease?, lease ∈ s.issued.map Prod.fst) → s.store.exec c = .error e →
    Step s (c, .thrown e) s

end JobQueue

end Backend

end TickerGarden
