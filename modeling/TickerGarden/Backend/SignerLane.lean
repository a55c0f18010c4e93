import Mathlib.Logic.Function.Basic
import TickerGarden.Lib.Transition

/-!
# The lane of a signer

Several services send transactions with one signer. They coordinate through files in a directory
that they share: for each chain and signer a **lock**, which is a file that is created exclusively
and removed by its owner, and a **reservation**, which names the service that may have an
unresolved intent.

* `withSignerLane` takes the lock, refuses if the reservation is of another service, writes the
  reservation (to a temporary file that is renamed), runs the action of its caller, removes the
  reservation if nothing is pending, and releases the lock whatever happened.
* `recoverSignerLock` removes the lock of a process that is dead. It takes a lock of its own
  first, a file with `.recovery` appended to the name; what it recovers may itself be such a
  file, so locks are numbered here by how often that is appended.

A call is taken one file-system operation at a time, and between two of them anything may happen:
other calls go on, a process dies, an operation throws, or the machine stops. What is not yet
synchronised to the disk may then be lost
(`TickerGarden.Backend.SignerLane.Lane.stale`). The action of a caller may sign an intent and
resolve it as it likes; all that is known of it is that `hasPending` tells at its end whether its
journal has one.
-/

namespace TickerGarden

open Transition Function

namespace Backend

namespace SignerLane

/-- The services that share signers. -/
inductive Service
  | holder
  | locker
  | creator
deriving DecidableEq

/-- A process: its host, and its number there. -/
structure Process where
  host : ℕ
  pid : ℕ
deriving DecidableEq

/-- Each call of `acquireSignerLock` draws a token. No token is drawn twice, and a call of the
two functions below acquires one lock, so that the token stands for the call. -/
abbrev Token := ℕ

/-- A lock file. It is empty until its owner is written to it. -/
structure LockFile where
  ino : ℕ
  process : Process
  token : Token
  written : Bool

/-- What a lock is acquired for. -/
inductive Job
  | lane (owner : Service)
  | recover (level : ℕ) (expectedToken : Token) (ino : ℕ)

/-- The lock that is acquired: that of the lane, or the guard of the one to be recovered. -/
def Job.level : Job → ℕ
  | .lane _ => 0
  | .recover level _ _ => level + 1

/-- Where a call of `withSignerLane` is, with the lock acquired: what it does next. -/
inductive LanePc
  | exists
  | read
  | writeTmp
  | syncTmp
  | rename
  | syncRename
  | enter
  | acting
  | hasPending
  | unlink
  | syncUnlink

/-- Where a call of `recoverSignerLock` is, with its guard acquired. -/
inductive RecoverPc
  | stat
  | read
  | unlink

/-- Where a call is. -/
inductive Pc
  | statting (level : ℕ) (expectedToken : Token)
  | reading (level : ℕ) (expectedToken : Token) (ino : ℕ)
  | probing (level : ℕ) (expectedToken : Token) (ino : ℕ) (process : Process)
  | opening (job : Job)
  | writing (job : Job)
  | syncing (job : Job)
  | lane (owner : Service) (pc : LanePc)
  | recovering (level : ℕ) (expectedToken : Token) (ino : ℕ) (pc : RecoverPc)
  | releasing (level : ℕ)
  | unlinking (level : ℕ)
  | done

/-- A call of a service: the process it runs in, and how far it has come. -/
structure Call where
  process : Process
  pc : Pc

/-- The processes, their calls and the lock files. -/
structure System where
  alive : List Process
  /-- All processes there have been. -/
  used : List Process
  calls : Token → Option Call
  locks : ℕ → Option LockFile

/-- How an action has ended. -/
inductive Ending
  | threw
  | pending
  | clean
deriving DecidableEq

/-- The run of an action. One that has no ending is running, or its process has died. -/
structure Entry where
  token : Token
  ending : Option Ending

/-- The reservation, and what the services have done. -/
structure Lane where
  tmp : Option Service
  /-- What the reservation says. -/
  reservation : Option Service
  /-- What it said before, in changes that are not synchronised: the machine may lose them. -/
  stale : List (Option Service)
  /-- The last entry of each service into its action. -/
  last : Service → Option Entry
  /-- Whether the journal of a service has an unresolved signed intent. -/
  intent : Service → Bool

/-- The processes and their locks, and the files of the lane. -/
structure World where
  system : System
  lane : Lane

/-- No process runs, and no file is there. -/
def World.initial : World where
  system := { alive := [], used := [], calls := fun _ => none, locks := fun _ => none }
  lane := { tmp := none, reservation := none, stale := [], last := fun _ => none,
            intent := fun _ => false }

/-! ### The locks -/

/-- A call goes on to a point of its program. -/
def System.goto (s : System) (a : Token) (c : Call) (pc : Pc) : System :=
  { s with calls := update s.calls a (some { c with pc }) }

/-- The file of a lock is written, or removed. -/
def System.setLock (s : System) (level : ℕ) (f : Option LockFile) : System :=
  { s with locks := update s.locks level f }

/-- What is done under a lock that has been acquired. -/
def Job.start : Job → Pc
  | .lane owner => .lane owner .exists
  | .recover level expectedToken ino => .recovering level expectedToken ino .stat

/-- One operation of a call on the lock files: of `acquireSignerLock` and of what it returns, and
of `recoverSignerLock`. The number of a new file is the system's choice. -/
def System.advance (s : System) (a : Token) (c : Call) (ino : ℕ) : System :=
  match c.pc with
  | .statting level expectedToken =>
    match s.locks level with
    | some f => s.goto a c (.reading level expectedToken f.ino)
    | none => s.goto a c .done
  | .reading level expectedToken ino =>
    match s.locks level with
    | some f =>
      if f.written ∧ f.process.host = c.process.host ∧ f.token = expectedToken then
        s.goto a c (.probing level expectedToken ino f.process)
      else s.goto a c .done
    | none => s.goto a c .done
  | .probing level expectedToken ino process =>
    if process ∈ s.alive then s.goto a c .done
    else s.goto a c (.opening (.recover level expectedToken ino))
  | .opening job =>
    match s.locks job.level with
    | some _ => s.goto a c .done
    | none =>
      (s.setLock job.level (some { ino, process := c.process, token := a, written := false })).goto
        a c (.writing job)
  | .writing job =>
    match s.locks job.level with
    | some f =>
      (s.setLock job.level (some (if f.token = a then { f with written := true } else f))).goto a c
        (.syncing job)
    -- the file that is open is not there any more
    | none => s.goto a c (.syncing job)
  | .syncing job => s.goto a c job.start
  | .recovering level expectedToken ino .stat =>
    match s.locks level with
    | some f =>
      if f.ino = ino then s.goto a c (.recovering level expectedToken ino .read)
      else s.goto a c (.releasing (level + 1))
    | none => s.goto a c (.releasing (level + 1))
  | .recovering level expectedToken ino .read =>
    match s.locks level with
    | some f =>
      if f.written ∧ f.token = expectedToken then
        s.goto a c (.recovering level expectedToken ino .unlink)
      else s.goto a c (.releasing (level + 1))
    | none => s.goto a c (.releasing (level + 1))
  | .recovering level _ _ .unlink => (s.setLock level none).goto a c (.releasing (level + 1))
  | .releasing level =>
    match s.locks level with
    | some f => if f.written ∧ f.token = a then s.goto a c (.unlinking level) else s.goto a c .done
    | none => s.goto a c .done
  | .unlinking level => (s.setLock level none).goto a c .done
  | .lane _ _ | .done => s

/-- Where a call goes on when an operation throws: `finally` releases the lock that was acquired. -/
def Pc.throw : Pc → Pc
  | .lane _ _ => .releasing 0
  | .recovering level _ _ _ => .releasing (level + 1)
  | _ => .done

/-! ### The lane -/

/-- The last use that a service made of the lane has ended in a way that is known. -/
def Lane.setEnding (l : Lane) (owner : Service) (a : Token) (ending : Option Ending) : Lane :=
  { l with last := update l.last owner (some { token := a, ending }) }

/-- A change of the reservation, not yet synchronised. -/
def Lane.reserve (l : Lane) (owner : Option Service) : Lane :=
  { l with reservation := owner, stale := l.reservation :: l.stale }

/-- One operation of `withSignerLane` under its lock, with where it goes on. -/
def Lane.advance (l : Lane) (owner : Service) (a : Token) : LanePc → Lane × Pc
  | .exists =>
    match l.reservation with
    | some _ => (l, .lane owner .read)
    | none => (l, .lane owner .writeTmp)
  | .read =>
    match l.reservation with
    | some prior =>
      if prior = owner then (l, .lane owner .writeTmp)
      -- the signer has an unresolved intent in another service
      else (l, .releasing 0)
    | none => (l, .releasing 0)
  | .writeTmp => ({ l with tmp := some owner }, .lane owner .syncTmp)
  | .syncTmp => (l, .lane owner .rename)
  | .rename =>
    match l.tmp with
    | some service => ({ l.reserve (some service) with tmp := none }, .lane owner .syncRename)
    | none => (l, .releasing 0)
  | .syncRename => ({ l with stale := [] }, .lane owner .enter)
  | .enter => (l.setEnding owner a none, .lane owner .acting)
  | .acting => (l, .lane owner .hasPending)
  | .hasPending =>
    if l.intent owner then (l.setEnding owner a (some .pending), .releasing 0)
    else (l, .lane owner .unlink)
  | .unlink =>
    match l.reservation with
    | some _ => ((l.reserve none).setEnding owner a (some .clean), .lane owner .syncUnlink)
    | none => (l.setEnding owner a (some .threw), .releasing 0)
  | .syncUnlink => ({ l with stale := [] }, .releasing 0)

/-- An exception ends an entry that has not ended. -/
def Lane.throw (l : Lane) (owner : Service) (a : Token) : LanePc → Lane
  | .acting | .hasPending | .unlink => l.setEnding owner a (some .threw)
  | _ => l

/-! ### Steps -/

/-- A call makes the step of its program: one operation on one file. -/
def World.advance (w : World) (a : Token) (c : Call) (ino : ℕ) : World :=
  match c.pc with
  | .lane owner pc =>
    { system := w.system.goto a c (w.lane.advance owner a pc).2,
      lane := (w.lane.advance owner a pc).1 }
  | _ => { w with system := w.system.advance a c ino }

/-- The operation of a call fails, and it goes on with what its program does then. -/
def World.throw (w : World) (a : Token) (c : Call) : World where
  system := w.system.goto a c c.pc.throw
  lane :=
    match c.pc with
    | .lane owner pc => w.lane.throw owner a pc
    | _ => w.lane

/-- The call `a` is at `c`, in a process that is alive. -/
def System.At (s : System) (a : Token) (c : Call) : Prop :=
  s.calls a = some c ∧ c.process ∈ s.alive

/-- The call `a` runs the action of the service. -/
def System.Acting (s : System) (a : Token) (owner : Service) : Prop :=
  ∃ c, s.At a c ∧ c.pc = .lane owner .acting

/-- What happens. -/
inductive Event
  | spawn (p : Process)
  | crash (p : Process)
  | reboot
  | withSignerLane (a : Token) (p : Process) (owner : Service)
  | recoverSignerLock (a : Token) (p : Process) (level : ℕ) (expectedToken : Token)
  | advance (a : Token)
  | throw (a : Token)
  | intend (a : Token)

/-- A process starts, under a number that no other one has. -/
def System.spawn (s : System) (p : Process) : System :=
  { s with alive := p :: s.alive, used := p :: s.used }

/-- A process stops at any point, and what it held stays as it is. -/
def System.crash (s : System) (p : Process) : System :=
  { s with alive := s.alive.filter fun q => decide (q ≠ p) }

/-- A call begins. -/
def System.begin (s : System) (a : Token) (p : Process) (pc : Pc) : System :=
  { s with calls := update s.calls a (some { process := p, pc }) }

/-- **A step**: of a call, or of what may happen between two of its operations. -/
inductive World.Step : World → Event → World → Prop
  | spawn {w : World} {p : Process} (hnew : p ∉ w.system.used) :
      Step w (.spawn p) { w with system := w.system.spawn p }
  | crash {w : World} (p : Process) : Step w (.crash p) { w with system := w.system.crash p }
  /-- The machine stops, and all processes with it. Lock files and the temporary file are left as
  they happen to be; the reservation is what it was at some time since it was synchronised. -/
  | reboot {w : World} {locks : ℕ → Option LockFile} (tmp : Option Service)
      {reservation : Option Service}
      (hlocks : ∀ level f, locks level = some f →
        ∃ c, w.system.calls f.token = some c ∧ c.process = f.process)
      (hreservation : reservation ∈ w.lane.reservation :: w.lane.stale) :
      Step w .reboot
        { system := { w.system with alive := [], locks },
          lane := { w.lane with tmp, reservation, stale := [] } }
  | withSignerLane {w : World} {a : Token} {p : Process} (owner : Service)
      (hnew : w.system.calls a = none) (halive : p ∈ w.system.alive) :
      Step w (.withSignerLane a p owner)
        { w with system := w.system.begin a p (.opening (.lane owner)) }
  | recoverSignerLock {w : World} {a : Token} {p : Process} (level : ℕ) (expectedToken : Token)
      (hnew : w.system.calls a = none) (halive : p ∈ w.system.alive) :
      Step w (.recoverSignerLock a p level expectedToken)
        { w with system := w.system.begin a p (.statting level expectedToken) }
  | advance {w : World} {a : Token} {c : Call} (ino : ℕ) (hat : w.system.At a c) :
      Step w (.advance a) (w.advance a c ino)
  | throw {w : World} {a : Token} {c : Call} (hat : w.system.At a c) :
      Step w (.throw a) (w.throw a c)
  /-- The action of a service signs an intent, or resolves it. -/
  | intend {w : World} {a : Token} {owner : Service} (pending : Bool)
      (hacting : w.system.Acting a owner) :
      Step w (.intend a)
        { w with lane := { w.lane with intent := update w.lane.intent owner pending } }

/-- What can come about from an empty directory. -/
def World.Reachable (w : World) : Prop :=
  Transition.Reachable World.Step (fun w => w = World.initial) w

end SignerLane

end Backend

end TickerGarden
