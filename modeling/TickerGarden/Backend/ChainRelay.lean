import TickerGarden.Backend.JobQueue

/-!
# The chain relay

The relay writes every log of a subscription into the table `chain_relay_events` and sends the
queue one wake-up for a **batch** of them: at most 256 events of one group, that is, of one
block, one canonicity and one head. The tables carry the progress of a delivery twice, in the
row of the batch and in the rows of its events.

Any number of publishers share the tables. Each of them is a loop: it claims a batch under a
lease, publishes the payload of the batch, and settles the claim or releases it. The calls on
the tables are transactions, and functions of the tables and of what the database adds: the time
at which the transaction began, and the rows that other transactions have locked. What happens
to a call from outside is a choice of the step (`ChainRelay.Step`): a commit may fail, or succeed
without an answer, and a publisher may crash between any two calls.

The columns `created_at` and `updated_at`, which nothing reads, are left out.
-/

namespace TickerGarden

open Checked

namespace Backend

namespace ChainRelay

open JobQueue (Timestamp milliseconds isDigest)

/-! ### Logs -/

/-- A text of the form `/^0x[0-9a-f]{64}$/`. -/
structure Hash where
  text : String
  valid : isDigest text = true
deriving DecidableEq

/-- A log as `parseSubscriptionLog` returns it. -/
structure SubscriptionLog where
  address : String
  blockHash : Hash
  blockNumber : ℕ
  transactionHash : Hash
  transactionIndex : ℕ
  logIndex : ℕ
  data : String
  topics : List Hash
  removed : Bool
deriving DecidableEq

/-- What `blockHeader` returns of a block. -/
structure Head where
  number : ℕ
  hash : Hash
deriving DecidableEq

/-- What the triggers of a relay have of its filter. -/
structure EventFilter where
  environment : String
  chainId : ℕ
  releaseId : Hash
deriving DecidableEq

/-- The fields of a payload. The text is their JSON. -/
structure Trigger where
  environment : String
  chainId : ℕ
  releaseId : Hash
  head : Head
  log : SubscriptionLog
deriving DecidableEq

/-- The key of a log in the outbox: its place, and whether it was removed. -/
def eventKey (log : SubscriptionLog) : String :=
  log.blockHash.text ++ ":" ++ log.transactionHash.text ++ ":" ++ toString log.logIndex ++ ":" ++
    if log.removed then "removed" else "canonical"

/-- What is published of a log: the log, the head it was seen at, and the release it is for. -/
def serializeTrigger (filter : EventFilter) (log : SubscriptionLog) (head : Head) : Trigger :=
  ⟨filter.environment, filter.chainId, filter.releaseId, head, log⟩

/-- The generated column `group_key`. -/
def Trigger.groupKey (t : Trigger) : String :=
  t.log.blockHash.text ++ ":" ++ toString t.log.removed ++ ":" ++ t.head.hash.text

/-! ### The tables -/

/-- The states of an event, and of a batch. -/
inductive RowState
  | pending
  | leased
  | queued
  | dead
deriving DecidableEq

/-- A row of `chain_relay_events`. -/
structure EventRow where
  payload : Trigger
  state : RowState
  attempt : ℕ
  nextAttemptAt : Timestamp
  leaseExpiresAt : Option Timestamp
  lastError : Option String
  batchKey : Option String
deriving DecidableEq

/-- A row of `chain_relay_batches`. -/
structure BatchRow where
  payload : Trigger
  eventCount : ℕ
  state : RowState
  attempt : ℕ
  leaseExpiresAt : Option Timestamp
  nextAttemptAt : Timestamp
  lastError : Option String
deriving DecidableEq

/-- The two tables of the outbox: the events, and the batches they are published in. -/
structure Store where
  events : Table String EventRow
  batches : Table String BatchRow

/-- What `claimEvent` returns: the key of a batch, its payload and the number of the attempt. -/
structure Claim where
  eventKey : String
  payload : Trigger
  attempt : ℕ
deriving DecidableEq

/-- An interval of a number of seconds. -/
def seconds (n : ℕ) : Timestamp := milliseconds (1000 * n)

/-- The row may be claimed: it waits and its time has come, or its lease has run out. -/
def Due (state : RowState) (leaseExpiresAt : Option Timestamp) (nextAttemptAt now : Timestamp) :
    Prop :=
  (state = .pending ∨ state = .leased ∧ ∃ e ∈ leaseExpiresAt, e ≤ now) ∧ nextAttemptAt ≤ now

instance (state : RowState) (leaseExpiresAt : Option Timestamp) (nextAttemptAt now : Timestamp) :
    Decidable (Due state leaseExpiresAt nextAttemptAt now) := inferInstanceAs (Decidable (_ ∧ _))

/-- A batch may be claimed: it waits for its time, or the claim of it has expired. -/
def BatchRow.Due (b : BatchRow) (now : Timestamp) : Prop :=
  ChainRelay.Due b.state b.leaseExpiresAt b.nextAttemptAt now

/-- The event is in no batch, and may be put into one. -/
def EventRow.Due (e : EventRow) (now : Timestamp) : Prop :=
  e.batchKey = none ∧ ChainRelay.Due e.state e.leaseExpiresAt e.nextAttemptAt now

instance (b : BatchRow) (now : Timestamp) : Decidable (b.Due now) :=
  inferInstanceAs (Decidable (ChainRelay.Due _ _ _ _))

instance (e : EventRow) (now : Timestamp) : Decidable (e.Due now) :=
  inferInstanceAs (Decidable (_ ∧ _))

/-! ### The events of a subscription -/

/-- The row an event is inserted with. -/
def newEvent (now : Timestamp) (payload : Trigger) : EventRow where
  payload := payload
  state := .pending
  attempt := 0
  nextAttemptAt := now
  leaseExpiresAt := none
  lastError := none
  batchKey := none

/-- `handleSubscriptionLog`, for a log that passes the filter. The head of a log that was removed
is the one the relay has just asked for. -/
def handleSubscriptionLog (filter : EventFilter) (now : Timestamp) (latest : Head)
    (log : SubscriptionLog) (s : Store) : Store :=
  let head := if log.removed then latest else ⟨log.blockNumber, log.blockHash⟩
  if eventKey log ∈ s.events then s
  else { s with
    events := s.events.insert (eventKey log) (newEvent now (serializeTrigger filter log head)) }

/-! ### Claims -/

/-- The rows that satisfy a condition and are not locked. -/
def unlocked {β : Type} (p : β → Prop) [DecidablePred p] (locked : List String)
    (m : Table String β) : List (String × β) :=
  (m.entries.map fun e => (e.1, e.2)).filter fun x => decide (p x.2) && !(locked.contains x.1)

/-- `ORDER BY next_attempt_at` and then by the key. -/
def byTime {β : Type} (nextAttemptAt : β → Timestamp) (x y : String × β) : Bool :=
  nextAttemptAt x.2 < nextAttemptAt y.2 ||
    (nextAttemptAt x.2 = nextAttemptAt y.2 && decide (x.1 ≤ y.1))

/-- The batch that is claimed again. -/
def picked (now : Timestamp) (locked : List String) (s : Store) : Option (String × BatchRow) :=
  ((unlocked (fun b : BatchRow => b.Due now) locked s.batches).mergeSort
    (byTime BatchRow.nextAttemptAt)).head?

/-- The event a new batch is made for. -/
def seed (now : Timestamp) (locked : List String) (s : Store) : Option (String × EventRow) :=
  ((unlocked (fun e : EventRow => e.Due now) locked s.events).mergeSort
    (byTime EventRow.nextAttemptAt)).head?

/-- The events of a new batch. -/
def members (now : Timestamp) (locked : List String) (groupKey : String) (s : Store) :
    List (String × EventRow) :=
  ((unlocked (fun e : EventRow => e.payload.groupKey = groupKey ∧ e.Due now) locked
    s.events).mergeSort fun x y => decide (x.1 ≤ y.1)).take 256

/-- When a lease that is issued now ends. -/
def leaseEnd (now : Timestamp) : Timestamp := now + seconds 30

/-- The row of a batch that is claimed again. -/
def BatchRow.claim (now : Timestamp) (b : BatchRow) : BatchRow :=
  { b with state := .leased, attempt := b.attempt + 1, leaseExpiresAt := some (leaseEnd now) }

/-- The row a batch is inserted with. -/
def newBatch (now : Timestamp) (payload : Trigger) (eventCount : ℕ) : BatchRow where
  payload := payload
  eventCount := eventCount
  state := .leased
  attempt := 1
  leaseExpiresAt := some (leaseEnd now)
  nextAttemptAt := now
  lastError := none

/-- An event is claimed, with the attempt of its batch. -/
def EventRow.lease (now : Timestamp) (attempt : ℕ) (e : EventRow) : EventRow :=
  { e with state := .leased, attempt, leaseExpiresAt := some (leaseEnd now) }

/-- `UPDATE chain_relay_events … WHERE` a condition holds of the row and of its key. -/
def updateEvents (p : String → EventRow → Prop) [∀ k e, Decidable (p k e)]
    (f : EventRow → EventRow) (events : Table String EventRow) : Table String EventRow :=
  Table.map (fun k e => if p k e then f e else e) events

/-- The last statement of a claim: the events follow their batch. -/
def leaseEvents (now : Timestamp) (key : String) (attempt : ℕ) (events : Table String EventRow) :
    Table String EventRow :=
  updateEvents (fun _ e => e.batchKey = some key) (EventRow.lease now attempt) events

/-- `claimEvent`, with the rows that are locked when it looks for a batch, for a first event and
for the events of its group. The digest of the keys of a batch is a parameter. -/
def claimEvent (hash : List String → String) (now : Timestamp)
    (lockedBatches lockedSeeds lockedMembers : List String) (s : Store) :
    Except JsError (Option Claim × Store) :=
  match picked now lockedBatches s with
  | some (key, b) =>
    let claimed := b.claim now
    return (some ⟨key, b.payload, claimed.attempt⟩,
      { batches := s.batches.insert key claimed
        events := leaseEvents now key claimed.attempt s.events })
  | none =>
    match seed now lockedSeeds s with
    | none => return (none, s)
    | some (_, first) =>
      let events := members now lockedMembers first.payload.groupKey s
      let keys := events.map Prod.fst
      let key := hash keys
      match events with
      | [] => throwJs "empty relay batch"
      | (_, e) :: _ => do
        throwIf (key ∈ s.batches)
          "duplicate key value violates unique constraint \"chain_relay_batches_pkey\""
        let sealed := updateEvents (fun k _ => k ∈ keys) (fun e => { e with batchKey := some key })
          s.events
        return (some ⟨key, e.payload, 1⟩,
          { batches := s.batches.insert key (newBatch now e.payload events.length)
            events := leaseEvents now key 1 sealed })

/-! ### Outcomes -/

/-- The guard of the statements that end a claim, on a batch or on an event. -/
def Held (state : RowState) (attempt : ℕ) (claim : Claim) : Prop :=
  state = .leased ∧ attempt = claim.attempt

instance (state : RowState) (attempt : ℕ) (claim : Claim) : Decidable (Held state attempt claim) :=
  inferInstanceAs (Decidable (_ ∧ _))

/-- A batch is published, and nobody holds it any more. -/
def BatchRow.settle (b : BatchRow) : BatchRow :=
  { b with state := .queued, leaseExpiresAt := none, lastError := none }

/-- An event is published with its batch. -/
def EventRow.settle (e : EventRow) : EventRow :=
  { e with state := .queued, leaseExpiresAt := none, lastError := none }

/-- A batch is settled, with its events, if the claim that was published is still the one that holds
it. -/
def settleBatch (claim : Claim) (s : Store) : Store :=
  match (s.batches.lookup claim.eventKey).filter fun b => Held b.state b.attempt claim with
  | none => s
  | some b =>
    { batches := s.batches.insert claim.eventKey b.settle
      events := updateEvents
        (fun _ e => e.batchKey = some claim.eventKey ∧ Held e.state e.attempt claim)
        EventRow.settle s.events }

/-- When a batch is tried again after a number of attempts. -/
def retryAt (now : Timestamp) (attempt : ℕ) : Timestamp := now + seconds (min 300 (2 ^ attempt))

/-- A batch that could not be published is given back: it waits, longer after each attempt, and is
dead after the eighth. -/
def BatchRow.release (now : Timestamp) (error : String) (b : BatchRow) : BatchRow :=
  { b with
    state := if b.attempt ≥ 8 then .dead else .pending
    leaseExpiresAt := none
    lastError := some error
    nextAttemptAt := retryAt now b.attempt }

/-- An event takes over the state and the time of its batch. -/
def EventRow.release (error : String) (row : BatchRow) (e : EventRow) : EventRow :=
  { e with
    state := row.state
    leaseExpiresAt := none
    lastError := some error
    nextAttemptAt := row.nextAttemptAt }

/-- A batch is given back, with its events, if the claim is still the one that holds it; the error
is cut to two hundred characters. -/
def releaseClaim (now : Timestamp) (claim : Claim) (error : String) (s : Store) : Store :=
  let error := (error.take 200).toString
  match (s.batches.lookup claim.eventKey).filter fun b => Held b.state b.attempt claim with
  | none => s
  | some b =>
    let row := b.release now error
    { batches := s.batches.insert claim.eventKey row
      events := updateEvents
        (fun _ e => e.batchKey = some claim.eventKey ∧ Held e.state e.attempt claim)
        (EventRow.release error row) s.events }

/-! ### Publishers -/

/-- Where a publisher that has a claim stands in its loop. -/
inductive Phase
  /-- it waits for the answer of the queue -/
  | publishing
  /-- the queue has accepted the payload -/
  | published
  /-- something was thrown, and the claim is to be released -/
  | failed
deriving DecidableEq

/-- The tables, what each publisher is at, and the claims for which the queue has accepted the
payload. -/
structure System where
  store : Store
  publishers : ℕ → Option (Claim × Phase)
  accepted : List Claim

/-- Empty tables, and no publisher at work. -/
def System.initial : System := ⟨⟨∅, ∅⟩, fun _ => none, []⟩

/-- What a publisher is at next. -/
def System.turn (s : System) (p : ℕ) (next : Option (Claim × Phase)) : System :=
  { s with publishers := Function.update s.publishers p next }

/-- What happens to the outbox: a log is inserted, a publisher claims, its broker accepts or
refuses, and it settles or releases; any transaction may be lost, and any answer. -/
inductive Event
  | insert (now : Timestamp) (latest : Head) (log : SubscriptionLog)
  | claim (publisher : ℕ) (now : Timestamp) (lockedBatches lockedSeeds lockedMembers : List String)
      (answered : Bool)
  | accept (publisher : ℕ)
  | refuse (publisher : ℕ)
  | settle (publisher : ℕ) (committed answered : Bool)
  | release (publisher : ℕ) (now : Timestamp) (error : String) (committed : Bool)
  | crash (publisher : ℕ)

/-- The store after a transaction that may not have been committed. -/
def System.commit (s : System) (committed : Bool) (f : Store → Store) : System :=
  { s with store := if committed then f s.store else s.store }

/-- A step of the relay or of one of its publishers. A claim that throws leaves everything as it
is, and so is no step. -/
inductive Step (filter : EventFilter) (hash : List String → String) :
    System → Event → System → Prop
  | insert (s : System) (now : Timestamp) (latest : Head) (log : SubscriptionLog) :
    Step filter hash s (.insert now latest log)
      (s.commit true (handleSubscriptionLog filter now latest log))
  /-- The transaction is committed. If no answer comes, the publisher knows of no claim. -/
  | claim {s : System} {p : ℕ} {now : Timestamp} {lockedBatches lockedSeeds lockedMembers :
      List String} {c : Option Claim} {store : Store} (answered : Bool) :
    s.publishers p = none →
    claimEvent hash now lockedBatches lockedSeeds lockedMembers s.store = .ok (c, store) →
    Step filter hash s (.claim p now lockedBatches lockedSeeds lockedMembers answered)
      ((s.commit true fun _ => store).turn p
        (if answered then c.map fun c => (c, .publishing) else none))
  | accept {s : System} {p : ℕ} {c : Claim} :
    s.publishers p = some (c, .publishing) →
    Step filter hash s (.accept p)
      ({ s with accepted := c :: s.accepted }.turn p (some (c, .published)))
  | refuse {s : System} {p : ℕ} {c : Claim} :
    s.publishers p = some (c, .publishing) →
    Step filter hash s (.refuse p) (s.turn p (some (c, .failed)))
  /-- Without an answer to its commit, the publisher goes on to release the claim. -/
  | settle {s : System} {p : ℕ} {c : Claim} (committed answered : Bool) :
    s.publishers p = some (c, .published) →
    Step filter hash s (.settle p committed answered)
      ((s.commit committed (settleBatch c)).turn p
        (if committed && answered then none else some (c, .failed)))
  /-- Whatever becomes of the release, the publisher goes on to its next claim. -/
  | release {s : System} {p : ℕ} {c : Claim} (now : Timestamp) (error : String)
      (committed : Bool) :
    s.publishers p = some (c, .failed) →
    Step filter hash s (.release p now error committed)
      ((s.commit committed (releaseClaim now c error)).turn p none)
  | crash (s : System) (p : ℕ) : Step filter hash s (.crash p) (s.turn p none)

/-- The states the relay can come to, from empty tables. -/
def Reachable (filter : EventFilter) (hash : List String → String) : System → Prop :=
  Transition.Reachable (Step filter hash) fun s => s = .initial

end ChainRelay

end Backend

end TickerGarden
