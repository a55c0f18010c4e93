import TickerGarden.Backend.CreatorSweep
import TickerGarden.Lib.Restart

/-!
# The journal and the gas budget of the sweeper

The command of `TickerGarden.Backend.CreatorSweep` is started over and over on the file of its
journal. It may be killed at any request, any of them may fail, and when the journal is written and
this fails, the file may or may not have been replaced. The clock does not go back.

The journal is changed in memory before it is written, and what fails in between is swallowed by
the loop over the markets, which writes what is there and goes on. The invariant is therefore about
the journal in memory (`Writes`): it may be written at any time. In particular it has reserved, of
its day, what the transactions cost that were put in the file on that day, and the one that is
still only in memory.

What is recorded beside the file, the time and the intents that it has had (`Disk`), is not read by
the program. The day of an intent is that of the journal: the one on which the call read the clock,
before it asked for anything else.
-/

namespace TickerGarden

open Checked

namespace Backend

namespace CreatorSweep

open Interaction

/-! ### What there is -/

/-- A request that was answered. -/
abbrev Answered : Type := (r : Request) × Answer r

/-- An intent that was put in the file, the day of the journal it came with, and when it had been
signed. -/
structure Entry where
  intent : Intent
  day : Option ℕ
  signedAt : ℕ
deriving DecidableEq

/-- The file, the time, and the intents that the file has had, the last one first. -/
structure Disk where
  file : Option SweepJournal
  clock : ℕ
  intents : List Entry

/-- The journal in memory, what the process has been told by the clock, the signer and the chain,
the last answer first, and when it has signed last. -/
structure Memory where
  journal : SweepJournal
  answers : List Answered
  signedAt : ℕ

/-- The files of the command, and what the running process remembers. -/
abbrev Store : Type := Disk × Memory

/-- The intent that is pending in a file. -/
def pendingIn (file : Option SweepJournal) : Option Intent := file.bind SweepJournal.pending

/-- The intent that comes into a file with a journal. -/
def fresh (file : Option SweepJournal) (j : SweepJournal) : Option Intent :=
  if j.pending = pendingIn file then none else j.pending

/-- The file is replaced. -/
def Disk.put (d : Disk) (signedAt : ℕ) (j : SweepJournal) : Disk where
  file := some j
  clock := d.clock
  intents :=
    match fresh d.file j with
    | some row => ⟨row, j.day, signedAt⟩ :: d.intents
    | none => d.intents

/-- A request to anything but the journal, the clock and the signer. -/
def Request.external : Request → Bool
  | .journal | .setJournal _ | .save _ | .now | .sign _ => false
  | _ => true

/-- A request that changes nothing. -/
def Request.quiet : Request → Bool
  | .sendRawTransaction _ => false
  | r => r.external

section Moves

variable (sv : Services)

/-- The bytes are those of a transaction with the gas and the price that were to be signed. -/
def Signs (tx : SweepTransaction) (raw : Hex) : Prop :=
  ∃ parsed, sv.parseTransaction raw = .ok parsed ∧ parsed.gas.getD 0 = tx.gas ∧
    parsed.gasPrice.getD 0 = tx.gasPrice

/-- **What a request does.** The journal is read and written in memory; a file is replaced or, if
this fails, may have been; the clock does not go back; the signer signs what it is given; and
everything else is answered in any way. -/
inductive Moves : Store → (r : Request) → Answer r → Store → Prop
  | journal (s : Store) : Moves s .journal (.ok s.2.journal) s
  | setJournal (s : Store) (j : SweepJournal) :
      Moves s (.setJournal j) (.ok ()) (s.1, { s.2 with journal := j })
  | saved (s : Store) (j : SweepJournal) :
      Moves s (.save j) (.ok ()) (s.1.put s.2.signedAt j, s.2)
  | notSaved (s : Store) (j : SweepJournal) (e : JsError) : Moves s (.save j) (.error e) s
  | savedUnnoticed (s : Store) (j : SweepJournal) (e : JsError) :
      Moves s (.save j) (.error e) (s.1.put s.2.signedAt j, s.2)
  | now (s : Store) (time : ℕ) (h : s.1.clock ≤ time) :
      Moves s .now (.ok time)
        ({ s.1 with clock := time }, { s.2 with answers := ⟨.now, .ok time⟩ :: s.2.answers })
  | signed (s : Store) (tx : SweepTransaction) (raw : Hex) (time : ℕ) (h : s.1.clock ≤ time)
      (hraw : Signs sv tx raw) :
      Moves s (.sign tx) (.ok raw) ({ s.1 with clock := time },
        { s.2 with answers := ⟨.sign tx, .ok raw⟩ :: s.2.answers, signedAt := time })
  | notSigned (s : Store) (tx : SweepTransaction) (e : JsError) : Moves s (.sign tx) (.error e) s
  | external (s : Store) (r : Request) (x : Answer r) (time : ℕ) (hr : r.external = true)
      (h : s.1.clock ≤ time) :
      Moves s r x ({ s.1 with clock := time }, { s.2 with answers := ⟨r, x⟩ :: s.2.answers })

end Moves

/-! ### The evidence that an intent is settled -/

section Evidence

variable (p : SweepPolicy) (answers : List Answered)

/-- The process has been given this answer. -/
def Got (r : Request) (x : r.Result) : Prop := (⟨r, .ok x⟩ : Answered) ∈ answers

/-- The finality of the policy: the node has finalised the block, or time has passed. -/
def Final (head b : RpcBlock) : Prop :=
  if p.finality = "finalized" then
    ∃ final again : RpcBlock, Got answers .finalizedBlock final ∧
      Got answers (.block (some final.number)) again ∧ again.hash = final.hash ∧
      b.number ≤ final.number
  else (b.timestamp : ℚ) + p.delaySeconds ≤ head.timestamp

/-- **The intent is settled** by a receipt: it is that of its own transaction, from the signer to
the curve, in a block that the node has at its height, with the finality of the policy. -/
structure SettledBy (signer : Address) (row : Intent) (receipt : Receipt) (head b again : RpcBlock) :
    Prop where
  got_receipt : Got answers (.receipt row.hash) (some receipt)
  own : receipt.transactionHash = row.hash
  parties : receipt.toAddress = some row.curve ∧ receipt.fromAddress = some signer
  status : receipt.status = "0x0" ∨ receipt.status = "0x1"
  got_block : Got answers (.block (some receipt.blockNumber)) b
  block_hash : b.hash = receipt.blockHash
  got_head : Got answers (.block none) head
  final : Final p answers head b
  got_again : Got answers (.block (some b.number)) again
  again_hash : again.hash = b.hash

/-- An intent is settled by a receipt and by blocks that the node has answered with. -/
def Settled (signer : Address) (row : Intent) : Prop :=
  ∃ receipt head b again, SettledBy p answers signer row receipt head b again

variable {p answers} {answers' : List Answered} {head b : RpcBlock} {signer : Address} {row : Intent}

theorem Final.mono (hle : answers ⊆ answers') (h : Final p answers head b) :
    Final p answers' head b := by
  unfold Final at *
  split at h
  · rename_i hmode
    rw [if_pos hmode]
    obtain ⟨final, again, hfinal, hagain, hhash, hnumber⟩ := h
    exact ⟨final, again, hle hfinal, hle hagain, hhash, hnumber⟩
  · rename_i hmode
    rw [if_neg hmode]
    exact h

/-- More answers do not unsettle an intent. -/
theorem Settled.mono (hle : answers ⊆ answers') (h : Settled p answers signer row) :
    Settled p answers' signer row := by
  obtain ⟨receipt, head, b, again, h⟩ := h
  exact ⟨receipt, head, b, again, { h with
    got_receipt := hle h.got_receipt
    got_block := hle h.got_block
    got_head := hle h.got_head
    final := h.final.mono hle
    got_again := hle h.got_again }⟩

end Evidence

/-! ### The budget -/

section Budget

variable (sv : Services) (p : SweepPolicy)

/-- What a transaction costs at most. -/
def gasCost (raw : Hex) : ℕ :=
  match sv.parseTransaction raw with
  | .ok tx => tx.gas.getD 0 * tx.gasPrice.getD 0
  | .error _ => 0

/-- What the transactions of a day cost. -/
def spent (day : ℕ) (intents : List Entry) : ℕ :=
  ((intents.filter fun e => e.day = some day).map fun e => gasCost sv e.intent.raw).sum

/-- What is added to it by an intent that comes into the file. -/
def added (row : Option Intent) : ℕ := (row.map fun row => gasCost sv row.raw).getD 0

/-- **A journal carries the budget** of the intents in the file: its day is not before theirs, and
not to come, and it has reserved what they cost on that day, and more. -/
structure Carries (d : Disk) (j : SweepJournal) (more : ℕ) : Prop where
  days : ∀ e ∈ d.intents, ∃ day today, e.day = some day ∧ j.day = some today ∧ day ≤ today
  today : ∀ today, j.day = some today → today ≤ utcDay d.clock
  reserved : ∀ today, j.day = some today → spent sv today d.intents + more ≤ j.reserved

/-- **The call that signed had read the clock** before its preflight: after the reading it has
simulated the sweep, and asked nothing but the chain, until the signer gave it the bytes. -/
def ReadAt (answers : List Answered) (raw : Hex) (time : ℕ) : Prop :=
  ∃ (tx : SweepTransaction) (after between before : List Answered),
    answers = after ++ ⟨.sign tx, .ok raw⟩ :: (between ++ ⟨.now, .ok time⟩ :: before) ∧
    (∀ a ∈ between, a.1.external = true) ∧
    ∃ curve number, (⟨.simulate curve number, .ok ()⟩ : Answered) ∈ between

/-- An intent was charged to the day on which its call had read the clock. -/
def Charged (answers : List Answered) (signedAt : ℕ) (j : SweepJournal) (row : Intent) : Prop :=
  ∃ time, j.day = some (utcDay time) ∧ ReadAt answers row.raw time ∧ time ≤ signedAt ∧
    (j.reserved : ℤ) ≤ p.dailyGasWei ∧ (gasCost sv row.raw : ℤ) ≤ p.maxTxGasWei

/-- **A journal may be written**: the intent in the file stays, or is settled, and a new one was
charged to the day of the journal. -/
structure Writes (d : Disk) (answers : List Answered) (signedAt : ℕ) (j : SweepJournal) : Prop where
  pending : ∀ row, pendingIn d.file = some row →
    j.pending = some row ∨ j.pending = none ∧ Settled p answers j.signer row
  carries : Carries sv d j (added sv (fresh d.file j))
  charged : ∀ row, fresh d.file j = some row → Charged sv p answers signedAt j row

/-- **What is kept between two processes.** -/
structure Kept (d : Disk) : Prop where
  empty : d.file = none → d.intents = []
  file : ∀ j, d.file = some j → Carries sv d j 0
  pending : ∀ row, pendingIn d.file = some row → ∃ e ∈ d.intents, e.intent = row
  cost : ∀ e ∈ d.intents, (gasCost sv e.intent.raw : ℤ) ≤ p.maxTxGasWei
  budget : ∀ e ∈ d.intents, ∀ day, e.day = some day → (spent sv day d.intents : ℤ) ≤ p.dailyGasWei

variable {sv p} {d : Disk} {j : SweepJournal} {answers answers' : List Answered} {signedAt : ℕ}

theorem ReadAt.mono {raw : Hex} {time : ℕ} (h : ReadAt answers raw time)
    (hle : answers <:+ answers') : ReadAt answers' raw time := by
  obtain ⟨tx, after, between, before, rfl, hrest⟩ := h
  obtain ⟨more, rfl⟩ := hle
  exact ⟨tx, more ++ after, between, before, (List.append_assoc ..).symm, hrest⟩

theorem utcDay_mono {t t' : ℕ} (h : t ≤ t') : utcDay t ≤ utcDay t' := Nat.div_le_div_right h

theorem spent_cons (day : ℕ) (e : Entry) (intents : List Entry) :
    spent sv day (e :: intents)
      = (if e.day = some day then gasCost sv e.intent.raw else 0) + spent sv day intents := by
  unfold spent
  by_cases h : e.day = some day
  · rw [List.filter_cons_of_pos (by simpa using h), List.map_cons, List.sum_cons, if_pos h]
  · rw [List.filter_cons_of_neg (by simpa using h), if_neg h, Nat.zero_add]

/-- What the replacement of the file adds to a day. -/
theorem spent_put (day : ℕ) :
    spent sv day (d.put signedAt j).intents
      = (if j.day = some day then added sv (fresh d.file j) else 0) + spent sv day d.intents := by
  unfold Disk.put added
  dsimp only
  cases fresh d.file j with
  | some row => exact spent_cons day _ _
  | none => simp

/-- An intent in a file that was replaced: it came with the journal, or was there. -/
theorem mem_put {e : Entry} (he : e ∈ (d.put signedAt j).intents) :
    (fresh d.file j = some e.intent ∧ e.day = j.day ∧ e.signedAt = signedAt) ∨ e ∈ d.intents := by
  unfold Disk.put at he
  dsimp only at he
  cases hfresh : fresh d.file j with
  | none =>
    rw [hfresh] at he
    exact .inr he
  | some row =>
    rw [hfresh] at he
    rcases List.mem_cons.mp he with rfl | he
    · exact .inl ⟨rfl, rfl, rfl⟩
    · exact .inr he

/-- Nothing was spent on a day after that of the journal. -/
theorem Carries.spent_eq_zero {more today day : ℕ} (h : Carries sv d j more)
    (hday : j.day = some today) (hlt : today < day) : spent sv day d.intents = 0 := by
  have hnone : (d.intents.filter fun e => e.day = some day) = [] := by
    rw [List.filter_eq_nil_iff]
    intro e he heq
    obtain ⟨day', today', hday', htoday', hle⟩ := h.days e he
    have heq' : e.day = some day := of_decide_eq_true heq
    rw [hday] at htoday'
    rw [hday'] at heq'
    have := Option.some.inj htoday'
    have := Option.some.inj heq'
    omega
  rw [spent, hnone]
  rfl

theorem Carries.mono {d' : Disk} {more : ℕ} (h : Carries sv d j more)
    (hintents : d'.intents = d.intents) (hclock : d.clock ≤ d'.clock) : Carries sv d' j more where
  days := fun e he => h.days e (hintents ▸ he)
  today := fun today htoday => (h.today today htoday).trans (utcDay_mono hclock)
  reserved := fun today htoday => by
    rw [hintents]
    exact h.reserved today htoday

/-- A journal that has been written carries the budget. -/
theorem Writes.carries_put (h : Writes sv p d answers signedAt j) :
    Carries sv (d.put signedAt j) j 0 where
  days := fun e he => by
    rcases mem_put he with ⟨hfresh, hday, -⟩ | he
    · obtain ⟨time, htoday, -⟩ := h.charged _ hfresh
      exact ⟨_, _, hday.trans htoday, htoday, le_rfl⟩
    · exact h.carries.days e he
  today := h.carries.today
  reserved := fun today htoday => by
    rw [spent_put, if_pos htoday]
    have := h.carries.reserved today htoday
    omega

/-- **The file is replaced by a journal that may be written.** -/
theorem Writes.kept_put (h : Writes sv p d answers signedAt j) (hd : Kept sv p d) :
    Kept sv p (d.put signedAt j) where
  empty := fun hnone => nomatch hnone
  file := fun j' hj' => by
    obtain rfl := Option.some.inj hj'
    exact h.carries_put
  pending := by
    intro row hrow
    have hrow' : j.pending = some row := hrow
    unfold Disk.put
    dsimp only
    cases hfresh : fresh d.file j with
    | none =>
      unfold fresh at hfresh
      split at hfresh
      · rename_i heq
        exact hd.pending row (heq ▸ hrow')
      · rw [hrow'] at hfresh
        cases hfresh
    | some row' =>
      unfold fresh at hfresh
      split at hfresh
      · cases hfresh
      · obtain rfl := Option.some.inj (hfresh.symm.trans hrow')
        exact ⟨_, List.mem_cons_self, rfl⟩
  cost := fun e he => by
    rcases mem_put he with ⟨hfresh, -⟩ | he
    · obtain ⟨_, _, _, _, _, hcost⟩ := h.charged _ hfresh
      exact hcost
    · exact hd.cost e he
  budget := fun e he day hday => by
    rw [spent_put]
    cases hfresh : fresh d.file j with
    | none =>
      -- nothing is new
      rcases mem_put he with ⟨hsome, -⟩ | he
      · cases hfresh.symm.trans hsome
      · simpa [added] using hd.budget e he day hday
    | some row =>
      by_cases hj : j.day = some day
      · obtain ⟨_, _, _, _, hdaily, _⟩ := h.charged row hfresh
        have hreserved := h.carries.reserved day hj
        rw [hfresh] at hreserved
        rw [if_pos hj]
        omega
      · rw [if_neg hj, Nat.zero_add]
        rcases mem_put he with ⟨-, hsame, -⟩ | he
        · exact absurd (hsame.symm.trans hday) hj
        · exact hd.budget e he day hday

/-- A journal that has been written may be written again. -/
theorem Writes.put (h : Writes sv p d answers signedAt j) :
    Writes sv p (d.put signedAt j) answers signedAt j where
  pending := fun row hrow => .inl hrow
  carries := by
    have hfresh : fresh (d.put signedAt j).file j = none := if_pos rfl
    rw [hfresh]
    exact h.carries_put
  charged := fun row hrow => by
    have hfresh : fresh (d.put signedAt j).file j = none := if_pos rfl
    rw [hfresh] at hrow
    cases hrow

/-- With time and with more answers a journal may still be written. -/
theorem Writes.mono {d' : Disk} (h : Writes sv p d answers signedAt j) (hfile : d'.file = d.file)
    (hintents : d'.intents = d.intents) (hclock : d.clock ≤ d'.clock)
    (hle : answers <:+ answers') : Writes sv p d' answers' signedAt j where
  pending := fun row hrow => by
    rw [hfile] at hrow
    exact (h.pending row hrow).imp_right (And.imp_right fun hsettled => hsettled.mono hle.subset)
  carries := by
    rw [hfile]
    exact h.carries.mono hintents hclock
  charged := fun row hrow => by
    rw [hfile] at hrow
    obtain ⟨time, hday, hread, hrest⟩ := h.charged row hrow
    exact ⟨time, hday, hread.mono hle, hrest⟩

end Budget

/-! ### The requests that are safe -/

section Safety

variable (sv : Services) (p : SweepPolicy)

/-- **The requests that are safe**: nothing is signed while an intent is pending, in the file or in
memory; what is sent is the intent in the file, and within the limit of a transaction; and the file
is replaced by a journal that may be written. -/
def Allows (s : Store) : Request → Prop
  | .sign _ => pendingIn s.1.file = none ∧ s.2.journal.pending = none
  | .sendRawTransaction raw => (gasCost sv raw : ℤ) ≤ p.maxTxGasWei ∧
      ∃ row, pendingIn s.1.file = some row ∧ row.raw = raw
  | .save j => Writes sv p s.1 s.2.answers s.2.signedAt j
  | _ => True

/-- The journal in memory may be written. -/
def Recoverable (s : Store) : Prop := Writes sv p s.1 s.2.answers s.2.signedAt s.2.journal

/-- The journal in memory may be written, and has the intent of the file. -/
structure Ready (s : Store) : Prop where
  recoverable : Recoverable sv p s
  synced : s.2.journal.pending = pendingIn s.1.file

/-- A store at a later time and with more answers of the chain, and nothing else new. -/
structure Extends (s s' : Store) : Prop where
  file : s'.1.file = s.1.file
  intents : s'.1.intents = s.1.intents
  clock : s.1.clock ≤ s'.1.clock
  journal : s'.2.journal = s.2.journal
  more : ∃ more, s'.2.answers = more ++ s.2.answers ∧ ∀ a ∈ more, a.1.external = true
  signedAt : s'.2.signedAt = s.2.signedAt

variable {sv p} {s s' s'' : Store}

theorem Extends.refl (s : Store) : Extends s s :=
  ⟨rfl, rfl, le_rfl, rfl, ⟨[], rfl, List.forall_mem_nil _⟩, rfl⟩

theorem Extends.trans (h : Extends s s') (h' : Extends s' s'') : Extends s s'' := by
  obtain ⟨more, hmore, hexternal⟩ := h.more
  obtain ⟨more', hmore', hexternal'⟩ := h'.more
  refine ⟨h'.file.trans h.file, h'.intents.trans h.intents, h.clock.trans h'.clock,
    h'.journal.trans h.journal, ⟨more' ++ more, ?_, ?_⟩, h'.signedAt.trans h.signedAt⟩
  · rw [hmore', hmore, List.append_assoc]
  · exact List.forall_mem_append.mpr ⟨hexternal', hexternal⟩

theorem Extends.suffix (h : Extends s s') : s.2.answers <:+ s'.2.answers := by
  obtain ⟨more, hmore, -⟩ := h.more
  exact ⟨more, hmore.symm⟩

theorem Extends.answers (h : Extends s s') : s.2.answers ⊆ s'.2.answers := h.suffix.subset

theorem Extends.recoverable (h : Extends s s') (hs : Recoverable sv p s) : Recoverable sv p s' := by
  rw [Recoverable, h.journal, h.signedAt]
  exact Writes.mono hs h.file h.intents h.clock h.suffix

theorem Extends.ready (h : Extends s s') (hs : Ready sv p s) : Ready sv p s' where
  recoverable := h.recoverable hs.recoverable
  synced := by rw [h.journal, h.file, hs.synced]

variable {α β : Type} {q : Sweeper α} {f : α → Sweeper β} {Q : β → Store → Prop}
  {Φ : α → List Answered → Prop}

/-- **What a program of the sweeper does**: its requests are safe, and when it fails the journal in
memory may still be written. -/
def Does (sv : Services) (p : SweepPolicy) (q : Sweeper α) (s : Store) (Q : α → Store → Prop) :
    Prop :=
  q.Meets (Allows sv p) (Moves sv) s Q fun _ s' => Recoverable sv p s'

/-- What a program of the sweeper finds out, when it changes nothing. -/
abbrev Observes (sv : Services) (p : SweepPolicy) (q : Sweeper α) (s : Store)
    (Φ : α → List Answered → Prop) : Prop :=
  q.Learns (Allows sv p) (Moves sv) Extends s fun a s' => Φ a s'.2.answers

theorem Does.observes (hq : Observes sv p q s Φ) (hs : Recoverable sv p s)
    (hf : ∀ a s', Extends s s' → Φ a s'.2.answers → Does sv p (f a) s' Q) :
    Does sv p (q >>= f) s Q :=
  Program.Learns.thenMeets hq (fun _ _ h => h.recoverable hs) hf

/-- A pure computation. -/
theorem Does.lift {x : Except JsError α} (hs : Recoverable sv p s)
    (hf : ∀ a, x = .ok a → Does sv p (f a) s Q) : Does sv p (Program.lift x >>= f) s Q := by
  cases x with
  | ok a => exact hf a rfl
  | error e => exact hs

theorem Does.throwUnless {c : Prop} [Decidable c] {message : String} {f : Unit → Sweeper β}
    (hs : Recoverable sv p s) (hf : c → Does sv p (f ()) s Q) :
    Does sv p (throwUnless c message >>= f) s Q :=
  Does.lift hs fun _ hok => hf (not_not.mp (revertIf_eq_ok.mp hok))

theorem Does.journal {f : SweepJournal → Sweeper β} (hf : Does sv p (f s.2.journal) s Q) :
    Does sv p (ask .journal >>= f) s Q := by
  refine ⟨trivial, fun x s' hmove => ?_⟩
  cases hmove with
  | journal => exact hf
  | external _ _ _ hr => cases hr

theorem Does.setJournal {j : SweepJournal} {f : Unit → Sweeper β}
    (hf : Does sv p (f ()) (s.1, { s.2 with journal := j }) Q) :
    Does sv p (ask (.setJournal j) >>= f) s Q := by
  refine ⟨trivial, fun x s' hmove => ?_⟩
  cases hmove with
  | setJournal => exact hf
  | external _ _ _ hr => cases hr

/-- The store after the clock was read. -/
def Store.read (s : Store) (time : ℕ) : Store :=
  ({ s.1 with clock := time }, { s.2 with answers := ⟨.now, .ok time⟩ :: s.2.answers })

theorem Ready.read {time : ℕ} (hs : Ready sv p s) (h : s.1.clock ≤ time) :
    Ready sv p (s.read time) :=
  ⟨Writes.mono hs.recoverable rfl rfl h (List.suffix_cons _ _), hs.synced⟩

/-- The clock is read. -/
theorem Does.now {f : ℕ → Sweeper β}
    (hf : ∀ time, s.1.clock ≤ time → Does sv p (f time) (s.read time) Q) :
    Does sv p (ask .now >>= f) s Q := by
  refine ⟨trivial, fun x s' hmove => ?_⟩
  cases hmove with
  | now time h => exact hf time h
  | external _ _ _ hr => cases hr

/-- A transaction is signed, when no intent is pending. -/
theorem Does.sign {tx : SweepTransaction} {f : Hex → Sweeper β} (hs : Ready sv p s)
    (hnone : s.2.journal.pending = none)
    (hf : ∀ raw time, s.1.clock ≤ time → Signs sv tx raw →
      Does sv p (f raw) ({ s.1 with clock := time },
        { s.2 with answers := ⟨.sign tx, .ok raw⟩ :: s.2.answers, signedAt := time }) Q) :
    Does sv p (ask (.sign tx) >>= f) s Q := by
  refine ⟨⟨hs.synced.symm.trans hnone, hnone⟩, fun x s' hmove => ?_⟩
  cases hmove with
  | signed _ raw time h hraw => exact hf raw time h hraw
  | notSigned => exact hs.recoverable
  | external _ _ _ hr => cases hr

/-- **The journal is written**, as it is in memory. -/
theorem Does.save {f : Unit → Sweeper β} (hs : Recoverable sv p s)
    (hf : ∀ s', s' = (s.1.put s.2.signedAt s.2.journal, s.2) → Ready sv p s' →
      Does sv p (f ()) s' Q) : Does sv p (save >>= f) s Q := by
  have hready : Ready sv p (s.1.put s.2.signedAt s.2.journal, s.2) := ⟨Writes.put hs, rfl⟩
  refine ⟨trivial, fun x s' hmove => ?_⟩
  cases hmove with
  | external _ _ _ hr => cases hr
  | journal =>
    refine ⟨hs, fun x s' hmove => ?_⟩
    cases hmove with
    | saved => exact hf _ rfl hready
    | notSaved => exact hs
    | savedUnnoticed => exact hready.recoverable
    | external _ _ _ hr => cases hr

/-! ### What only reads -/

theorem extends_of_external {r : Request} {x : Answer r} (hr : r.external = true)
    (h : Moves sv s r x s') : Extends s s' ∧ s'.2.answers = ⟨r, x⟩ :: s.2.answers := by
  cases h with
  | external _ _ time _ h =>
    exact ⟨⟨rfl, rfl, h, rfl, ⟨[⟨r, x⟩], rfl, List.forall_mem_singleton.mpr hr⟩, rfl⟩, rfl⟩
  | journal => cases hr
  | setJournal => cases hr
  | saved => cases hr
  | notSaved => cases hr
  | savedUnnoticed => cases hr
  | now => cases hr
  | signed => cases hr
  | notSigned => cases hr

/-- A request that changes nothing, and what it adds to the answers. -/
theorem observes_answer {r : Request} (hr : r.quiet = true) :
    Observes sv p (ask r) s fun x answers => answers = ⟨r, .ok x⟩ :: s.2.answers := by
  have hexternal : r.external = true := by
    cases r <;> first | rfl | cases hr
  refine ⟨?_, fun x s' hmove => ?_⟩
  · cases r <;> first | exact trivial | cases hr
  obtain ⟨hext, hgot⟩ := extends_of_external hexternal hmove
  cases x with
  | ok x => exact ⟨hext, hgot⟩
  | error e => exact hext

theorem observes_ask {r : Request} (hr : r.quiet = true) :
    Observes sv p (ask r) s fun x answers => Got answers r x :=
  (observes_answer hr).mono
    (fun _ _ h => ⟨h.1, List.mem_of_mem_head? (congrArg List.head? h.2)⟩) fun _ _ => id

theorem observes_throwUnless {c : Prop} [Decidable c] {message : String} :
    Observes sv p (throwUnless c message) s fun _ _ => c :=
  Program.Learns.lift (.refl s) fun _ hok => not_not.mp (revertIf_eq_ok.mp hok)

theorem Observes.pure {a : α} (h : Φ a s.2.answers) : Observes sv p (Pure.pure a) s Φ :=
  Program.Learns.pure (.refl s) h

theorem Observes.andThen {Ψ : β → List Answered → Prop} (hq : Observes sv p q s Φ)
    (hf : ∀ a s', Extends s s' → Φ a s'.2.answers → Observes sv p (f a) s' Ψ) :
    Observes sv p (q >>= f) s Ψ :=
  Program.Learns.andThen (R := Extends) Extends.trans hq hf

theorem observes_market {head : RpcBlock} {id : Bytes32} :
    Observes sv p (market sv head id) s fun _ _ => True := by
  refine (observes_ask rfl).andThen fun data s₁ _ _ => ?_
  cases data with
  | none => exact Program.Learns.lift (.refl s₁) fun _ _ => trivial
  | some data => exact Program.Learns.lift (.refl s₁) fun _ _ => trivial

/-- A receipt that is not waited for any more is final. -/
theorem observes_confirming {head b : RpcBlock} :
    Observes sv p (confirming p head b) s fun waits answers =>
      waits = false → Final p answers head b := by
  unfold confirming
  split
  · rename_i hmode
    refine (observes_ask rfl).andThen fun final s₁ _ hfinal => ?_
    refine (observes_ask rfl).andThen fun again s₂ h₂ hagain => ?_
    refine observes_throwUnless.andThen fun _ s₃ h₃ hhash => ?_
    refine Observes.pure fun hle => ?_
    rw [Final, if_pos hmode]
    exact ⟨final, again, h₃.answers (h₂.answers hfinal), h₃.answers hagain, hhash,
      not_lt.mp (of_decide_eq_false hle)⟩
  · rename_i hmode
    refine Observes.pure fun hle => ?_
    rw [Final, if_neg hmode]
    exact not_lt.mp (of_decide_eq_false hle)

end Safety

/-! ### The programs -/

section Programs

variable {sv : Services} {p : SweepPolicy} {s : Store} {j : SweepJournal} {head : RpcBlock}
  {pending : Intent} {account : Address}

/-- What is left to be sent again is within the limit of a transaction. -/
theorem cost_of_verifySweepIntent {record : MarketRecord}
    (h : verifySweepIntent sv p j pending record = .ok ()) :
    (gasCost sv pending.raw : ℤ) ≤ p.maxTxGasWei := by
  simp only [verifySweepIntent, bind_eq_ok, revertIf_eq_ok, not_or, not_lt] at h
  obtain ⟨tx, htx, -, -, -, -, -, -, hmax⟩ := h
  rw [gasCost, htx]
  exact hmax

/-- What is sent again is what the file has. -/
theorem does_rebroadcast (hs : Ready sv p s) (hpending : pendingIn s.1.file = some pending)
    (hcost : (gasCost sv pending.raw : ℤ) ≤ p.maxTxGasWei) :
    Does sv p (rebroadcast pending) s fun _ s' => Recoverable sv p s' := by
  refine Does.observes (observes_ask rfl) hs.recoverable fun count s₁ h₁ _ => ?_
  have hs₁ := h₁.ready hs
  refine Does.throwUnless hs₁.recoverable fun _ => ?_
  refine ⟨⟨hcost, pending, h₁.file ▸ hpending, rfl⟩, fun x s' hmove => ?_⟩
  obtain ⟨hext, -⟩ := extends_of_external rfl hmove
  have hs' := hext.recoverable hs₁.recoverable
  cases x with
  | error e => exact hs'
  | ok sent =>
    change Does sv p (throwUnless _ _) s' _
    rw [Does, throwUnless, Program.meets_lift]
    exact ⟨fun _ _ => hs', fun _ _ => hs'⟩

/-- **A journal without the intent may be written** when this is settled. -/
theorem Ready.settled {last : Option Settlement} (hs : Ready sv p s)
    (hpending : pendingIn s.1.file = some pending)
    (hsettled : Settled p s.2.answers s.2.journal.signer pending) :
    Writes sv p s.1 s.2.answers s.2.signedAt { s.2.journal with last, pending := none } where
  pending := fun row hrow => by
    obtain rfl := Option.some.inj (hpending.symm.trans hrow)
    exact .inr ⟨rfl, hsettled⟩
  carries := by
    have hfresh : fresh s.1.file { s.2.journal with last, pending := none } = none := ite_self _
    have hcarries := hs.recoverable.carries
    rw [hfresh]
    exact ⟨hcarries.days, hcarries.today, fun today htoday =>
      (Nat.le_add_right _ _).trans (hcarries.reserved today htoday)⟩
  charged := fun row hrow => by
    have hfresh : fresh s.1.file { s.2.journal with last, pending := none } = none := ite_self _
    rw [hfresh] at hrow
    cases hrow

/-- **Reconciling**: the intent is sent again as it is, or leaves the journal when it is settled. -/
theorem does_reconcile {o : SweepOptions} (hs : Ready sv p s) (hj : s.2.journal = j)
    (hpending : j.pending = some pending) (hhead : Got s.2.answers (.block none) head) :
    Does sv p (reconcile sv p o j head pending) s fun _ s' => Recoverable sv p s' := by
  have hfile : pendingIn s.1.file = some pending := by rw [← hs.synced, hj, hpending]
  refine Does.observes observes_market hs.recoverable fun record s₁ h₁ _ => ?_
  have hs₁ := h₁.ready hs
  refine Does.lift hs₁.recoverable fun _ hverify => ?_
  have hcost := cost_of_verifySweepIntent hverify
  refine Does.observes (observes_ask rfl) hs₁.recoverable fun receipt s₂ h₂ hreceipt => ?_
  have hs₂ := h₂.ready hs₁
  have h₁₂ := h₁.trans h₂
  cases receipt with
  | none =>
    dsimp only
    split
    · exact Program.Meets.andThen (does_rebroadcast hs₂ (h₁₂.file ▸ hfile) hcost)
        fun _ _ hs' => hs'
    · exact hs₂.recoverable
  | some receipt =>
    refine Does.observes (observes_ask rfl) hs₂.recoverable fun b s₃ h₃ hb => ?_
    have hs₃ := h₃.ready hs₂
    refine Does.throwUnless hs₃.recoverable fun hmatches => ?_
    obtain ⟨hhash, hown, hto, hfrom⟩ := hmatches
    refine Does.throwUnless hs₃.recoverable fun hstatus => ?_
    refine Does.observes observes_confirming hs₃.recoverable fun waits s₄ h₄ hfinal => ?_
    have hs₄ := h₄.ready hs₃
    split
    · exact hs₄.recoverable
    · rename_i hwaits
      refine Does.observes (observes_ask rfl) hs₄.recoverable fun again s₅ h₅ hagain => ?_
      have hs₅ := h₅.ready hs₄
      have h₃₅ := h₃.trans (h₄.trans h₅)
      have h₁₅ := h₁₂.trans h₃₅
      refine Does.throwUnless hs₅.recoverable fun hagainHash => ?_
      have hsettled : Settled p s₅.2.answers j.signer pending := ⟨receipt, head, b, again, {
        got_receipt := h₃₅.answers hreceipt
        own := hown
        parties := ⟨hto, hfrom⟩
        status := hstatus
        got_block := (h₄.trans h₅).answers hb
        block_hash := hhash
        got_head := h₁₅.answers hhead
        final := (hfinal (Bool.eq_false_of_not_eq_true hwaits)).mono h₅.answers
        got_again := hagain
        again_hash := hagainHash }⟩
      have hj₅ : s₅.2.journal = j := h₁₅.journal.trans hj
      refine Does.setJournal (Does.save ?_ fun s' _ hs' => hs'.recoverable)
      rw [← hj₅]
      exact hs₅.settled (h₁₅.file ▸ hfile) (hj₅ ▸ hsettled)

/-- **The journal of another day may be written**: nothing was spent on that day. -/
theorem Ready.onDay (hs : Ready sv p s) (hnone : s.2.journal.pending = none) :
    Writes sv p s.1 s.2.answers s.2.signedAt (s.2.journal.onDay (utcDay s.1.clock)) := by
  have hfile : pendingIn s.1.file = none := hs.synced.symm.trans hnone
  have hcarries := hs.recoverable.carries
  have hpending : (s.2.journal.onDay (utcDay s.1.clock)).pending = none := by
    unfold SweepJournal.onDay
    split
    · exact hnone
    · exact hnone
  have hfresh : fresh s.1.file (s.2.journal.onDay (utcDay s.1.clock)) = none := by
    rw [fresh, hpending]
    exact ite_self _
  refine ⟨fun row hrow => ?_, ?_, fun row hrow => ?_⟩
  · rw [hfile] at hrow
    cases hrow
  · rw [hfresh]
    unfold SweepJournal.onDay
    split
    · rename_i hother
      refine ⟨fun e he => ?_, fun today htoday => ?_, fun today htoday => ?_⟩
      · obtain ⟨day, today, hday, htoday, hle⟩ := hcarries.days e he
        exact ⟨day, _, hday, rfl, hle.trans (hcarries.today today htoday)⟩
      · obtain rfl := Option.some.inj htoday
        exact le_rfl
      · obtain rfl := Option.some.inj htoday
        cases hday : s.2.journal.day with
        | none =>
          -- no intent came with a journal that has no day
          have hempty : s.1.intents = [] := by
            refine List.eq_nil_iff_forall_not_mem.mpr fun e he => ?_
            obtain ⟨_, _, _, htoday, _⟩ := hcarries.days e he
            cases hday.symm.trans htoday
          rw [hempty]
          exact le_rfl
        | some day =>
          have hle := hcarries.today day hday
          have hne : day ≠ utcDay s.1.clock := by
            rintro rfl
            exact hother hday
          rw [hcarries.spent_eq_zero hday (by omega)]
          exact le_rfl
    · exact ⟨hcarries.days, hcarries.today, fun today htoday =>
        (Nat.le_add_right _ _).trans (hcarries.reserved today htoday)⟩
  · rw [hfresh] at hrow
    cases hrow

theorem onDay_day (j : SweepJournal) (day : ℕ) : (j.onDay day).day = some day := by
  unfold SweepJournal.onDay
  split
  · rfl
  · rename_i h
    exact not_not.mp h

theorem onDay_pending (j : SweepJournal) (day : ℕ) : (j.onDay day).pending = j.pending := by
  unfold SweepJournal.onDay
  split
  · rfl
  · rfl

theorem of_sweepBudget {reserved cost : ℕ} (h : sweepBudget p reserved cost = .ok ()) :
    (cost : ℤ) ≤ p.maxTxGasWei ∧ (reserved : ℤ) + cost ≤ p.dailyGasWei := by
  have h := revertIf_eq_ok.mp h
  rw [not_or, not_or, not_lt, not_lt] at h
  exact h.2

/-- **The journal of a signed transaction may be written**: what it costs was added to what the
journal has reserved, and this is within the budget of the day. -/
theorem Ready.signed {cost : ℕ} (row : Intent) (time : ℕ) (hs : Ready sv p s)
    (hnone : s.2.journal.pending = none) (hday : s.2.journal.day = some (utcDay time))
    (hread : ReadAt s.2.answers row.raw time) (hsigned : time ≤ s.2.signedAt)
    (hrow : gasCost sv row.raw = cost) (hmax : (cost : ℤ) ≤ p.maxTxGasWei)
    (hdaily : (s.2.journal.reserved : ℤ) + cost ≤ p.dailyGasWei) :
    Writes sv p s.1 s.2.answers s.2.signedAt
      { s.2.journal with reserved := s.2.journal.reserved + cost, pending := some row } := by
  have hfile : pendingIn s.1.file = none := hs.synced.symm.trans hnone
  have hcarries := hs.recoverable.carries
  have hfresh : fresh s.1.file
      { s.2.journal with reserved := s.2.journal.reserved + cost, pending := some row } = some row := by
    rw [fresh, hfile]
    exact if_neg (Option.some_ne_none row)
  refine ⟨fun row' hrow' => ?_, ?_, fun row' hrow' => ?_⟩
  · rw [hfile] at hrow'
    cases hrow'
  · rw [hfresh]
    refine ⟨hcarries.days, hcarries.today, fun today htoday => ?_⟩
    have hreserved := hcarries.reserved today htoday
    rw [added, Option.map_some, Option.getD_some, hrow]
    show spent sv today s.1.intents + cost ≤ s.2.journal.reserved + cost
    omega
  · rw [hfresh] at hrow'
    obtain rfl := Option.some.inj hrow'
    refine ⟨time, hday, hread, hsigned, ?_, hrow ▸ hmax⟩
    show ((s.2.journal.reserved + cost : ℕ) : ℤ) ≤ p.dailyGasWei
    exact_mod_cast hdaily

/-- **Signing**: what is signed is charged to the day, and sent when the file has it. -/
theorem does_submit {c : Candidate} {curve : Address} (hs : Ready sv p s) (hj : s.2.journal = j)
    (hnone : j.pending = none) :
    Does sv p (submit sv p j head c curve) s fun _ s' => Recoverable sv p s' := by
  subst hj
  refine Does.now fun now hnow => ?_
  have hs₁ := hs.read hnow
  refine Does.setJournal ?_
  -- the journal of the day is in memory, and may be written
  generalize hj : s.2.journal.onDay (utcDay now) = j
  have hday : j.day = some (utcDay now) := hj ▸ onDay_day _ _
  have hpending : j.pending = none := by rw [← hj, onDay_pending, hnone]
  generalize hstore : (((s.read now).1, { (s.read now).2 with journal := j }) : Store) = s₁
  have hjournal : s₁.2.journal = j := by rw [← hstore]
  have hanswers : s₁.2.answers = ⟨.now, .ok now⟩ :: s.2.answers := by
    rw [← hstore]
    rfl
  have hclock : s₁.1.clock = now := by
    rw [← hstore]
    rfl
  have hready : Ready sv p s₁ := by
    rw [← hstore, ← hj]
    refine ⟨hs₁.onDay hnone, ?_⟩
    show (s.2.journal.onDay (utcDay now)).pending = pendingIn s.1.file
    rw [onDay_pending, hs.synced]
  have hrec : ∀ {s'}, Extends s₁ s' → Recoverable sv p s' :=
    fun hext => (hext.ready hready).recoverable
  refine Does.observes (observes_answer rfl) (hrec (.refl _)) fun _ s₂ h₂ hsimulated => ?_
  refine Does.observes (observes_ask rfl) (hrec h₂) fun nonce s₃ h₃ _ => ?_
  have h₃' := h₂.trans h₃
  refine Does.observes (observes_ask rfl) (hrec h₃') fun latest s₄ h₄ _ => ?_
  have h₄' := h₃'.trans h₄
  refine Does.throwUnless (hrec h₄') fun _ => ?_
  refine Does.observes (observes_ask rfl) (hrec h₄') fun estimate s₅ h₅ _ => ?_
  have h₅' := h₄'.trans h₅
  refine Does.observes (observes_ask rfl) (hrec h₅') fun gasPrice s₆ h₆ _ => ?_
  have h₆' := h₅'.trans h₆
  refine Does.lift (hrec h₆') fun _ hbudget => ?_
  obtain ⟨hmax, hdaily⟩ := of_sweepBudget hbudget
  refine Does.observes (observes_ask rfl) (hrec h₆') fun balance s₇ h₇ _ => ?_
  have h₇' := h₆'.trans h₇
  refine Does.throwUnless (hrec h₇') fun _ => ?_
  refine Does.observes (observes_ask rfl) (hrec h₇') fun again s₈ h₈ _ => ?_
  have h₈' := h₇'.trans h₈
  refine Does.throwUnless (hrec h₈') fun _ => ?_
  refine Does.observes (observes_ask rfl) (hrec h₈') fun count s₉ h₉ _ => ?_
  have h₉' := h₈'.trans h₉
  refine Does.throwUnless (hrec h₉') fun _ => ?_
  have hready₉ := h₉'.ready hready
  have hj₉ : s₉.2.journal = j := h₉'.journal.trans hjournal
  refine Does.sign hready₉ (hj₉ ▸ hpending) fun raw time htime hraw => Does.setJournal ?_
  -- between the clock and the signer nothing was asked but the chain
  have hread : ReadAt (⟨.sign ⟨p.chainId, curve, estimate * 120 / 100, gasPrice, nonce⟩, .ok raw⟩ ::
      s₉.2.answers) raw now := by
    obtain ⟨more, hmore, hexternal⟩ := (h₃.trans (h₄.trans (h₅.trans (h₆.trans
      (h₇.trans (h₈.trans h₉)))))).more
    refine ⟨⟨p.chainId, curve, estimate * 120 / 100, gasPrice, nonce⟩, [],
      more ++ [⟨.simulate curve head.number, .ok ()⟩], s.2.answers, ?_, ?_, curve, head.number,
      List.mem_append_right _ (List.mem_singleton_self _)⟩
    · rw [hmore, hsimulated, hanswers, List.append_assoc]
      rfl
    · exact List.forall_mem_append.mpr ⟨hexternal, List.forall_mem_singleton.mpr rfl⟩
  -- the transaction is signed, and is only in memory
  have hsigned : Ready sv p ({ s₉.1 with clock := time },
      { s₉.2 with
        answers := ⟨.sign ⟨p.chainId, curve, estimate * 120 / 100, gasPrice, nonce⟩, .ok raw⟩ ::
          s₉.2.answers
        signedAt := time }) := by
    refine ⟨?_, hready₉.synced⟩
    have hwrites := hready₉.recoverable
    have hfresh : fresh s₉.1.file s₉.2.journal = none := if_pos hready₉.synced
    refine ⟨fun row hrow => ?_, hwrites.carries.mono rfl htime, fun row hrow => ?_⟩
    · exact (hwrites.pending row hrow).imp_right
        (And.imp_right fun hsettled => hsettled.mono (List.subset_cons_self _ _))
    · cases hfresh.symm.trans hrow
  have hcost : gasCost sv raw = estimate * 120 / 100 * gasPrice := by
    obtain ⟨parsed, hparsed, hgas, hprice⟩ := hraw
    rw [gasCost, hparsed]
    exact congrArg₂ _ hgas hprice
  have hbefore : now ≤ time := by
    rw [← hclock]
    exact h₉'.clock.trans htime
  have hwrites := Ready.signed
    ⟨raw, sv.keccak256 raw, c.marketId, curve, c.quoteAsset, nonce⟩ now hsigned
    (hj₉ ▸ hpending) (hj₉ ▸ hday) hread hbefore hcost hmax (hj₉ ▸ hdaily)
  rw [← hj₉]
  refine Does.save hwrites fun s₁₀ hs₁₀ hready₁₀ => ?_
  have hfile : pendingIn s₁₀.1.file
      = some ⟨raw, sv.keccak256 raw, c.marketId, curve, c.quoteAsset, nonce⟩ := by
    rw [hs₁₀]
    rfl
  refine ⟨⟨hcost ▸ hmax, _, hfile, rfl⟩, fun x s' hmove => ?_⟩
  have hrec' := (extends_of_external rfl hmove).1.recoverable hready₁₀.recoverable
  cases x with
  | error e => exact hrec'
  | ok sent => exact Does.throwUnless hrec' fun _ => hrec'

theorem does_consider {c : Candidate} (hs : Ready sv p s) (hj : s.2.journal = j)
    (hnone : j.pending = none) :
    Does sv p (consider sv p j head c account) s fun _ s' => Recoverable sv p s' := by
  refine Does.throwUnless hs.recoverable fun _ => ?_
  refine Does.observes observes_market hs.recoverable fun record s₁ h₁ _ => ?_
  have hs₁ := h₁.ready hs
  split
  · exact hs₁.recoverable
  · split
    · exact hs₁.recoverable
    · refine Does.observes (observes_ask rfl) hs₁.recoverable fun amount s₂ h₂ _ => ?_
      have hs₂ := h₂.ready hs₁
      split
      · exact hs₂.recoverable
      · exact does_submit hs₂ ((h₁.trans h₂).journal.trans hj) hnone

/-- **One call** makes safe requests only, and leaves a journal in memory that may be written. -/
theorem does_sweepOnce {o : SweepOptions} (hs : Ready sv p s) :
    Does sv p (sweepOnce sv p o) s fun _ s' => Recoverable sv p s' := by
  refine Does.journal (Does.throwUnless hs.recoverable fun _ => ?_)
  refine Does.observes (observes_ask rfl) hs.recoverable fun _ s₁ h₁ _ => ?_
  have hs₁ := h₁.ready hs
  refine Does.throwUnless hs₁.recoverable fun _ => ?_
  refine Does.observes (observes_ask rfl) hs₁.recoverable fun head s₂ h₂ hhead => ?_
  have hs₂ := h₂.ready hs₁
  refine Does.throwUnless hs₂.recoverable fun _ => ?_
  refine Does.observes (observes_ask rfl) hs₂.recoverable fun _ s₃ h₃ _ => ?_
  have hs₃ := h₃.ready hs₂
  have hj : s₃.2.journal = s.2.journal := (h₁.trans (h₂.trans h₃)).journal
  refine Does.throwUnless hs₃.recoverable fun _ => ?_
  split
  · rename_i pending _ _ hpending
    exact does_reconcile hs₃ hj hpending (h₃.answers hhead)
  · rename_i hnone _ _
    exact does_consider hs₃ hj hnone
  · exact hs₃.recoverable

/-- The cursor does not matter. -/
theorem Ready.cursor (hs : Ready sv p s) (cursor : Option Bytes32) :
    Ready sv p (s.1, { s.2 with journal := { s.2.journal with cursor } }) := by
  have hwrites := hs.recoverable
  refine ⟨⟨hwrites.pending, ?_, hwrites.charged⟩, hs.synced⟩
  exact ⟨hwrites.carries.days, hwrites.carries.today, hwrites.carries.reserved⟩

/-- **The loop over the markets**: what a call leaves is written, and it goes on if no intent is
pending. -/
theorem does_sweepRows (rows : List Candidate) (hs : Ready sv p s) :
    Does sv p (sweepRows sv p account rows) s fun _ s' => Recoverable sv p s' := by
  induction rows generalizing s with
  | nil => exact hs.recoverable
  | cons c rows ih =>
    refine Does.journal (Does.setJournal ?_)
    have hcursor := hs.cursor (some c.marketId)
    have hcall : Does sv p (do let _ ← sweepOnce sv p ⟨some account, false, some c⟩)
        (s.1, { s.2 with journal := { s.2.journal with cursor := some c.marketId } })
        fun _ s' => Recoverable sv p s' :=
      Program.Meets.andThen (does_sweepOnce hcursor) fun _ _ hs' => hs'
    have hcaught : Does sv p (Program.tryCatch
        (do let _ ← sweepOnce sv p ⟨some account, false, some c⟩) fun _ => return ())
        (s.1, { s.2 with journal := { s.2.journal with cursor := some c.marketId } })
        fun _ s' => Recoverable sv p s' :=
      Program.Meets.tryCatch (hcall.mono (fun _ _ h => h) fun _ _ h => h)
    refine Program.Meets.andThen hcaught fun _ s₁ hs₁ => ?_
    refine Does.save hs₁ fun s₂ _ hs₂ => Does.journal ?_
    split
    · exact hs₂.recoverable
    · exact ih hs₂

/-- **The command** makes safe requests only. -/
theorem does_sweepScript {signer : Address} {command : Command} (hs : Ready sv p s) :
    Does sv p (sweepScript sv p signer command) s fun _ s' => Recoverable sv p s' := by
  refine Does.journal (Does.throwUnless hs.recoverable fun _ => ?_)
  split
  · exact hs.recoverable
  split
  · exact Program.Meets.andThen (does_sweepOnce hs) fun _ _ hs' => hs'
  split
  · refine Does.observes (observes_ask rfl) hs.recoverable fun account s₁ h₁ _ => ?_
    have hs₁ := h₁.ready hs
    refine Does.observes (observes_ask rfl) hs₁.recoverable fun rows s₂ h₂ _ => ?_
    have hs₂ := h₂.ready hs₁
    split
    · rw [← (h₁.trans h₂).journal, ← Program.bind_done save]
      exact Does.setJournal (Does.save (hs₂.cursor none).recoverable fun _ _ hs' => hs'.recoverable)
    · exact does_sweepRows rows hs₂
  · refine Does.observes (observes_ask rfl) hs.recoverable fun rows s₁ h₁ _ => ?_
    have hs₁ := h₁.ready hs
    split
    · rw [← h₁.journal, ← Program.bind_done (ask _)]
      exact Does.setJournal (hs₁.cursor none).recoverable
    · exact hs₁.recoverable

end Programs

/-! ### Runs -/

section Runs

variable (sv : Services) (p : SweepPolicy) (signer : Address)

/-- A journal where there is no file yet. -/
def newJournal : SweepJournal where
  chainId := p.chainId
  releaseId := p.releaseId
  signer
  day := none
  reserved := 0
  cursor := none
  pending := none
  last := none

/-- The state of a run of the command, between two requests. -/
abbrev Sweep : Type := Machine Request Answer JsError Disk Memory

/-- A process starts on the journal of the file. -/
def Starts (program : Sweeper Unit) (d : Disk) (process : Process Request Answer JsError Memory) :
    Prop :=
  process = ⟨program, ⟨d.file.getD (newJournal p signer), [], 0⟩⟩

/-- **The steps of the sweeper**: its command is started, asks and is answered, and ends. -/
def Step : Sweep → Happens Request Answer → Sweep → Prop :=
  Machine.Step (fun d process => ∃ command, Starts p signer (sweepScript sv p signer command) d process)
    (Moves sv)

/-- Before the first command. -/
def Init (m : Sweep) : Prop := m.disk.file = none ∧ m.disk.intents = [] ∧ m.process = none

variable {sv p signer} {m₀ m m' : Sweep} {labels : List (Happens Request Answer)}
  {label : Happens Request Answer}

/-- What is kept between two processes is enough to start on. -/
theorem Kept.ready {d : Disk} (hd : Kept sv p d) :
    Ready sv p (d, ⟨d.file.getD (newJournal p signer), [], 0⟩) := by
  cases hfile : d.file with
  | none =>
    have hfresh : fresh d.file (newJournal p signer) = none := ite_self _
    refine ⟨⟨fun row hrow => ?_, ⟨fun e he => ?_, fun _ h => ?_, fun _ h => ?_⟩, fun row hrow => ?_⟩, ?_⟩
    · rw [hfile] at hrow
      cases hrow
    · rw [hd.empty hfile] at he
      cases he
    · cases h
    · cases h
    · cases hfresh.symm.trans hrow
    · rw [hfile]
      rfl
  | some j =>
    have hfresh : fresh d.file j = none := by
      rw [hfile]
      exact if_pos rfl
    refine ⟨⟨fun row hrow => ?_, ?_, fun row hrow => ?_⟩, ?_⟩
    · rw [hfile] at hrow
      exact .inl hrow
    · show Carries sv d j (added sv (fresh d.file j))
      rw [hfresh]
      exact hd.file j hfile
    · cases hfresh.symm.trans hrow
    · rw [hfile]
      rfl

theorem Kept.later {d : Disk} {time : ℕ} (hd : Kept sv p d) (h : d.clock ≤ time) :
    Kept sv p { d with clock := time } :=
  ⟨hd.empty, fun j hj => (hd.file j hj).mono rfl h, hd.pending, hd.cost, hd.budget⟩

/-- **A safe request keeps** what is kept between two processes. -/
theorem kept_of_moves {s s' : Store} {r : Request} {x : Answer r} (hd : Kept sv p s.1)
    (hallows : Allows sv p s r) (h : Moves sv s r x s') : Kept sv p s'.1 := by
  cases h with
  | journal => exact hd
  | setJournal => exact hd
  | saved => exact Writes.kept_put hallows hd
  | notSaved => exact hd
  | savedUnnoticed => exact Writes.kept_put hallows hd
  | now _ hle => exact hd.later hle
  | signed _ _ _ hle => exact hd.later hle
  | notSigned => exact hd
  | external _ _ _ _ hle => exact hd.later hle

/-- **The invariant**: what is left of a process makes safe requests only, and what is kept is
kept. -/
theorem safe_of_run (hinit : Init m₀) (h : Transition.Run (Step sv p signer) m₀ labels m) :
    Kept sv p m.disk ∧ Machine.Safe (Moves sv) (Allows sv p) m := by
  obtain ⟨hfile, hintents, hprocess⟩ := hinit
  refine Machine.safe_of_run ?_ (fun s r x s' => kept_of_moves) h ?_ hprocess
  · rintro d process hd ⟨command, rfl⟩
    exact (does_sweepScript hd.ready).mono (fun _ _ _ => trivial) fun _ _ _ => trivial
  · refine ⟨fun _ => hintents, fun j hj => ?_, fun row hrow => ?_, ?_, ?_⟩
    · cases hfile.symm.trans hj
    · rw [hfile] at hrow
      cases hrow
    · rw [hintents]
      exact List.forall_mem_nil _
    · rw [hintents]
      exact List.forall_mem_nil _

/-- What is pending in the file has been written to it. -/
theorem saved_of_run (hinit : Init m₀) (h : Transition.Run (Step sv p signer) m₀ labels m) :
    ∀ row, pendingIn m.disk.file = some row →
      ∃ j x, .answered (.save j) x ∈ labels ∧ j.pending = some row := by
  refine h.invariant_history (I := fun labels m => ∀ row, pendingIn m.disk.file = some row →
    ∃ j x, .answered (.save j) x ∈ labels ∧ j.pending = some row) ?_ ?_
  · intro labels m label m' ih hstep row hrow
    have hkept : pendingIn m.disk.file = some row →
        ∃ j x, .answered (.save j) x ∈ labels ++ [label] ∧ j.pending = some row := by
      intro hrow
      obtain ⟨j, x, hmem, hj⟩ := ih row hrow
      exact ⟨j, x, List.mem_append_left _ hmem, hj⟩
    cases hstep with
    | start => exact hkept hrow
    | stop => exact hkept hrow
    | answer _ hmove =>
      cases hmove with
      | saved => exact ⟨_, _, List.mem_append_right _ (List.mem_singleton_self _), hrow⟩
      | savedUnnoticed => exact ⟨_, _, List.mem_append_right _ (List.mem_singleton_self _), hrow⟩
      | journal => exact hkept hrow
      | setJournal => exact hkept hrow
      | notSaved => exact hkept hrow
      | now => exact hkept hrow
      | signed => exact hkept hrow
      | notSigned => exact hkept hrow
      | external => exact hkept hrow
  · intro row hrow
    rw [hinit.1] at hrow
    cases hrow

/-- What a step adds to what the process has been told. -/
def logged : Happens Request Answer → Option Answered
  | .answered .journal _ => none
  | .answered (.setJournal _) _ => none
  | .answered (.save _) _ => none
  | .answered (.sign _) (.error _) => none
  | .answered r x => some ⟨r, x⟩
  | .started => none
  | .ended => none

/-- The process goes on, and neither has the clock been read nor has the signer signed. -/
def Preflight : Happens Request Answer → Prop
  | .answered .now _ => False
  | .answered (.sign _) (.ok _) => False
  | .answered _ _ => True
  | .started => False
  | .ended => False

/-- **The call that signed had read the clock** before its preflight, as it happened: the clock is
read; in the same process, and before the clock is read or anything is signed again, the sweep is
simulated; and then the signer gives the bytes. -/
def ReadBy (labels : List (Happens Request Answer)) (raw : Hex) (time : ℕ) : Prop :=
  ∃ (tx : SweepTransaction) (before between after : List (Happens Request Answer)),
    labels = before ++ .answered .now (.ok time) ::
      (between ++ .answered (.sign tx) (.ok raw) :: after) ∧
    (∀ l ∈ between, Preflight l) ∧
    ∃ curve number, .answered (.simulate curve number) (.ok ()) ∈ between

theorem ReadBy.mono {raw : Hex} {time : ℕ} (h : ReadBy labels raw time)
    (more : List (Happens Request Answer)) : ReadBy (labels ++ more) raw time := by
  obtain ⟨tx, before, between, after, rfl, hrest⟩ := h
  refine ⟨tx, before, between, after ++ more, ?_, hrest⟩
  simp only [List.append_assoc, List.cons_append]

/-- Only an answer is logged, and as it was given. -/
theorem of_logged {r : Request} {x : Answer r} (h : logged label = some ⟨r, x⟩) :
    label = .answered r x := by
  unfold logged at h
  split at h
  all_goals cases h
  rfl

/-- What is logged of the chain belongs to a preflight, and so does what is not logged. -/
theorem preflight_of_logged {r : Request} {x : Answer r} (hlabel : label = .answered r x)
    (h : ∀ a, logged label = some a → a.1.external = true) : Preflight label := by
  subst hlabel
  cases r with
  | now => cases h _ rfl
  | sign tx =>
    cases x with
    | ok raw => cases h _ rfl
    | error e => trivial
  | _ => trivial

/-- **What the process has been told is what has happened** since it was started. -/
def Traced (labels : List (Happens Request Answer)) (m : Sweep) : Prop :=
  ∀ process, m.process = some process → ∃ earlier later, labels = earlier ++ .started :: later ∧
    (∀ l ∈ later, ∃ r x, l = .answered r x) ∧
    later.filterMap logged = process.memory.answers.reverse

/-- What a process is told is logged. -/
theorem logged_of_moves {s s' : Store} {r : Request} {x : Answer r} (h : Moves sv s r x s') :
    (logged (.answered r x)).toList ++ s.2.answers = s'.2.answers := by
  cases h with
  | journal => rfl
  | setJournal => rfl
  | saved => rfl
  | notSaved => rfl
  | savedUnnoticed => rfl
  | now => rfl
  | signed => rfl
  | notSigned => rfl
  | external _ _ _ hr => cases r <;> first | rfl | cases hr

theorem Traced.step (hm : Traced labels m) (h : Step sv p signer m label m') :
    Traced (labels ++ [label]) m' := by
  intro process hprocess
  cases h with
  | @start disk process' hstarts =>
    obtain rfl := Option.some.inj hprocess
    obtain ⟨command, rfl⟩ := hstarts
    exact ⟨labels, [], rfl, List.forall_mem_nil _, rfl⟩
  | stop => cases hprocess
  | @answer disk process' r k x s hprogram hmove =>
    obtain rfl := Option.some.inj hprocess
    obtain ⟨earlier, later, rfl, hanswered, hlogged⟩ := hm process' rfl
    refine ⟨earlier, later ++ [.answered r x], ?_, ?_, ?_⟩
    · rw [List.append_assoc, List.cons_append]
    · exact List.forall_mem_append.mpr
        ⟨hanswered, List.forall_mem_singleton.mpr ⟨r, x, rfl⟩⟩
    · rw [← logged_of_moves hmove, List.filterMap_append, List.reverse_append, hlogged,
        List.filterMap_cons]
      cases logged (.answered r x) with
      | none => rfl
      | some a => rfl

/-- **The reading in memory is one that has happened.** -/
theorem Traced.readBy {process : Process Request Answer JsError Memory} {raw : Hex} {time : ℕ}
    (hm : Traced labels m) (hprocess : m.process = some process)
    (hread : ReadAt process.memory.answers raw time) : ReadBy labels raw time := by
  obtain ⟨earlier, later, rfl, hanswered, hlogged⟩ := hm process hprocess
  obtain ⟨tx, after, between, before, hanswers, hexternal, curve, number, hsimulated⟩ := hread
  -- the answers, the first one first
  have hlogged : later.filterMap logged = before.reverse ++ ⟨.now, .ok time⟩ ::
      (between.reverse ++ ⟨.sign tx, .ok raw⟩ :: after.reverse) := by
    rw [hlogged, hanswers]
    simp only [List.reverse_append, List.reverse_cons, List.append_assoc, List.cons_append,
      List.nil_append]
  -- where the clock is read, and where the bytes are signed
  obtain ⟨l₁, l₂, rfl, -, h₂⟩ := List.filterMap_eq_append_iff.mp hlogged
  obtain ⟨l₃, now, l₄, rfl, -, hnow, h₄⟩ := List.filterMap_eq_cons_iff.mp h₂
  obtain ⟨l₅, l₆, rfl, h₅, h₆⟩ := List.filterMap_eq_append_iff.mp h₄
  obtain ⟨l₇, sign, l₈, rfl, hskipped, hsign, -⟩ := List.filterMap_eq_cons_iff.mp h₆
  obtain rfl := of_logged hnow
  obtain rfl := of_logged hsign
  refine ⟨tx, earlier ++ .started :: (l₁ ++ l₃), l₅ ++ l₇, l₈, ?_, ?_, curve, number, ?_⟩
  · simp only [List.append_assoc, List.cons_append]
  · intro l hl
    obtain ⟨r, x, hrx⟩ := hanswered l (by
      simp only [List.mem_append, List.mem_cons] at hl ⊢
      tauto)
    refine preflight_of_logged hrx fun a ha => ?_
    rcases List.mem_append.mp hl with hl | hl
    · have hmem : a ∈ between.reverse := h₅ ▸ List.mem_filterMap.mpr ⟨l, hl, ha⟩
      exact hexternal a (List.mem_reverse.mp hmem)
    · cases (hskipped l hl).symm.trans ha
  · have hmem : ⟨.simulate curve number, .ok ()⟩ ∈ l₅.filterMap logged :=
      h₅ ▸ List.mem_reverse.mpr hsimulated
    obtain ⟨l, hl, hlogged⟩ := List.mem_filterMap.mp hmem
    exact List.mem_append_left _ (of_logged hlogged ▸ hl)

/-- An intent in the file was charged to a day on which its call has read the clock. -/
def Dated (labels : List (Happens Request Answer)) (e : Entry) : Prop :=
  ∃ time, e.day = some (utcDay time) ∧ time ≤ e.signedAt ∧ ReadBy labels e.intent.raw time

theorem Dated.mono {e : Entry} (h : Dated labels e) (more : List (Happens Request Answer)) :
    Dated (labels ++ more) e := by
  obtain ⟨time, hday, hle, hread⟩ := h
  exact ⟨time, hday, hle, hread.mono more⟩

theorem traced_of_run (hinit : Init m₀) (h : Transition.Run (Step sv p signer) m₀ labels m) :
    Traced labels m := by
  refine h.invariant_history (fun labels m label m' hm hstep => hm.step hstep) ?_
  intro process hprocess
  cases hinit.2.2.symm.trans hprocess

/-- The step lemma: the intent that comes into the file is the one that was signed last. -/
theorem dated_of_step (hsafe : Machine.Safe (Moves sv) (Allows sv p) m) (htraced : Traced labels m)
    (hm : ∀ e ∈ m.disk.intents, Dated labels e) (h : Step sv p signer m label m') :
    ∀ e ∈ m'.disk.intents, Dated (labels ++ [label]) e := by
  have hkept : ∀ e ∈ m.disk.intents, Dated (labels ++ [label]) e :=
    fun e he => (hm e he).mono [label]
  cases h with
  | start => exact hkept
  | stop => exact hkept
  | @answer disk process r k x s hprogram hmove =>
    have hmeets := hsafe process rfl
    rw [hprogram] at hmeets
    have hput : ∀ j, Writes sv p disk process.memory.answers process.memory.signedAt j →
        ∀ e ∈ (disk.put process.memory.signedAt j).intents, Dated (labels ++ [.answered r x]) e := by
      intro j hwrites e he
      rcases mem_put he with ⟨hfresh, hday, hsignedAt⟩ | he
      · obtain ⟨time, htoday, hread, hle, -⟩ := hwrites.charged _ hfresh
        exact ⟨time, hday.trans htoday, hsignedAt ▸ hle, (htraced.readBy rfl hread).mono _⟩
      · exact hkept e he
    cases hmove with
    | saved j => exact hput j hmeets.1
    | savedUnnoticed j => exact hput j hmeets.1
    | journal => exact hkept
    | setJournal => exact hkept
    | notSaved => exact hkept
    | now => exact hkept
    | signed => exact hkept
    | notSigned => exact hkept
    | external => exact hkept

/-- **Every intent was charged to a day on which its call has read the clock.** -/
theorem dated_of_run (hinit : Init m₀) (h : Transition.Run (Step sv p signer) m₀ labels m) :
    ∀ e ∈ m.disk.intents, Dated labels e := by
  refine (h.invariant_history (I := fun labels m => Transition.Run (Step sv p signer) m₀ labels m ∧
    ∀ e ∈ m.disk.intents, Dated labels e) ?_ ⟨.refl m₀, ?_⟩).2
  · rintro labels m label m' ⟨hrun, hm⟩ hstep
    exact ⟨hrun.snoc hstep,
      dated_of_step (safe_of_run hinit hrun).2 (traced_of_run hinit hrun) hm hstep⟩
  · rw [hinit.2.1]
    exact List.forall_mem_nil _

/-- An intent that is pending in the file stays, or is settled. -/
theorem kept_or_settled (hm : Machine.Safe (Moves sv) (Allows sv p) m)
    (h : Step sv p signer m label m') (row : Intent) (hrow : pendingIn m.disk.file = some row) :
    pendingIn m'.disk.file = some row ∨ pendingIn m'.disk.file = none ∧
      ∃ process j, m.process = some process ∧ (∃ x, label = .answered (.save j) x) ∧
        Settled p process.memory.answers j.signer row := by
  cases h with
  | start => exact .inl hrow
  | stop => exact .inl hrow
  | @answer disk process r k x s hprogram hmove =>
    have hmeets := hm process rfl
    rw [hprogram] at hmeets
    cases hmove with
    | saved j =>
      exact (hmeets.1.pending row hrow).imp_right fun hsettled =>
        ⟨hsettled.1, process, j, rfl, ⟨_, rfl⟩, hsettled.2⟩
    | savedUnnoticed j =>
      exact (hmeets.1.pending row hrow).imp_right fun hsettled =>
        ⟨hsettled.1, process, j, rfl, ⟨_, rfl⟩, hsettled.2⟩
    | journal => exact .inl hrow
    | setJournal => exact .inl hrow
    | notSaved => exact .inl hrow
    | now => exact .inl hrow
    | signed => exact .inl hrow
    | notSigned => exact .inl hrow
    | external => exact .inl hrow

/-- **The journal and the budget of the sweeper.** In every run of its command, with failures,
kills and restarts at any request: nothing is signed while an intent is pending; what is sent is
the intent that the file has, byte for byte, was written there before, and costs no more than a
transaction may; an intent that is pending stays as it is until the receipt of its own transaction
is final; and the intents that were ever put in the file cost no more than the budget on each day
of the journal. The day of an intent is the one on which the call that signed it read the clock,
before its preflight; it may have been signed on a later one. -/
theorem creator_sweep_journal (hinit : Init m₀)
    (h : Transition.Run (Step sv p signer) m₀ labels m) (hstep : Step sv p signer m label m') :
    (∀ tx x, label = .answered (.sign tx) x → pendingIn m.disk.file = none ∧
      ∀ process, m.process = some process → process.memory.journal.pending = none) ∧
    (∀ raw x, label = .answered (.sendRawTransaction raw) x →
      (gasCost sv raw : ℤ) ≤ p.maxTxGasWei ∧
      ∃ row, pendingIn m.disk.file = some row ∧ row.raw = raw ∧
        (∃ e ∈ m.disk.intents, e.intent = row) ∧
        ∃ j y, .answered (.save j) y ∈ labels ∧ j.pending = some row) ∧
    (∀ row, pendingIn m.disk.file = some row → pendingIn m'.disk.file = some row ∨
      pendingIn m'.disk.file = none ∧
        ∃ process j, m.process = some process ∧ (∃ x, label = .answered (.save j) x) ∧
          Settled p process.memory.answers j.signer row) ∧
    ∀ e ∈ m'.disk.intents,
      (∃ time, e.day = some (utcDay time) ∧ time ≤ e.signedAt ∧
        ReadBy (labels ++ [label]) e.intent.raw time) ∧
      ∀ day, e.day = some day → (spent sv day m'.disk.intents : ℤ) ≤ p.dailyGasWei := by
  obtain ⟨hkept, hsafe⟩ := safe_of_run hinit h
  refine ⟨?_, ?_, kept_or_settled hsafe hstep, ?_⟩
  · rintro tx x rfl
    obtain ⟨process, s, hprocess, hallows, -, -⟩ := hsafe.answered hstep
    refine ⟨hallows.1, fun process' hprocess' => ?_⟩
    obtain rfl := Option.some.inj (hprocess.symm.trans hprocess')
    exact hallows.2
  · rintro raw x rfl
    obtain ⟨process, s, hprocess, hallows, -, -⟩ := hsafe.answered hstep
    obtain ⟨hcost, row, hrow, hraw⟩ := hallows
    exact ⟨hcost, row, hrow, hraw, hkept.pending row hrow, saved_of_run hinit h row hrow⟩
  · have hkept' : Kept sv p m'.disk := (safe_of_run hinit (h.snoc hstep)).1
    exact fun e he => ⟨dated_of_run hinit (h.snoc hstep) e he, hkept'.budget e he⟩

end Runs

/-! ### Calls one after the other -/

section Calls

variable (sv : Services) (p : SweepPolicy) (signer : Address)

/-- Calls in one process, on the journal in its memory. What a call throws is swallowed. -/
def sweepCalls : List SweepOptions → Sweeper Unit
  | [] => return ()
  | o :: os => do
    Program.tryCatch (do let _ ← sweepOnce sv p o) fun _ => return ()
    sweepCalls os

/-- The steps of a process that makes some calls. -/
def CallStep : Sweep → Happens Request Answer → Sweep → Prop :=
  Machine.Step (fun d process => ∃ os, Starts p signer (sweepCalls sv p os) d process) (Moves sv)

end Calls

namespace Sample

/-- A transaction is read back by its nonce, and costs 60. -/
def services : Services where
  keccak256
    | [nonce] => BitVec.ofNat 256 nonce.toNat
    | _ => 99
  parseTransaction
    | [nonce] => .ok ⟨some 1, some 3, some [9], some 0, some nonce.toNat, some 12, some 5⟩
    | _ => .error ⟨"Invalid transaction"⟩
  recoverTransactionAddress _ := .ok 1
  decodeMarketRecord _ := .ok ⟨3, 4, 0⟩
  sweepData := [9]
  registryCodeHash := some 99

/-- A budget of 100 for a day. -/
def policy : SweepPolicy := ⟨1, "", 60, 100, fun _ => some 1, "finalized", 60⟩

/-- The transactions that have been sent. -/
def sends (answers : List Answered) : ℕ :=
  (answers.filter fun a => match a.1 with
    | .sendRawTransaction _ => true
    | _ => false).length

/-- The first transaction is signed a day after its call has read the clock. -/
def answer (s : Store) : (r : Request) → Answer r
  | .chainId => .ok (1 : ℕ)
  | .block none => .ok ⟨10, 100, 1000⟩
  | .block (some n) => .ok ⟨n, BitVec.ofNat 256 (10 * n), 1000⟩
  | .finalizedBlock => .ok ⟨8, 80, 900⟩
  | .code _ => .ok (some [])
  | .marketCall .. => .ok (some [])
  | .receipt hash => .ok (if sends s.2.answers = 0 then none
      else some ⟨5, 50, hash, some 3, some 1, "0x1"⟩)
  | .transactionCount _ => .ok (sends s.2.answers)
  | .accruedCurveFees .. => .ok (1 : ℕ)
  | .estimateGas _ => .ok (10 : ℕ)
  | .gasPrice => .ok (5 : ℕ)
  | .balance => .ok (1000 : ℕ)
  | .sendRawTransaction raw => .ok (services.keccak256 raw)
  | .account => .ok (1 : Address)
  | .rows _ => .ok [⟨7, 4⟩]
  | .simulate .. | .setJournal _ | .save _ => .ok ()
  | .sign _ | .now | .journal => .error ⟨""⟩

/-- The signer knows one gas and one price. -/
def sign (s : Store) (tx : SweepTransaction) : Answer (.sign tx) × Store :=
  if tx.gas = 12 ∧ tx.gasPrice = 5 then
    let time := max s.1.clock 86400000
    let raw := [UInt8.ofNat tx.nonce]
    (.ok raw, ({ s.1 with clock := time },
      { s.2 with answers := ⟨.sign tx, .ok raw⟩ :: s.2.answers, signedAt := time }))
  else (.error ⟨""⟩, s)

/-- The answer to a request, and what it does; `saves` says whether the file can be written. -/
def respond (saves : Bool) (s : Store) : (r : Request) → Answer r × Store
  | .journal => (.ok s.2.journal, s)
  | .setJournal j => (.ok (), (s.1, { s.2 with journal := j }))
  | .save j => if saves then (.ok (), (s.1.put s.2.signedAt j, s.2)) else (.error ⟨""⟩, s)
  | .now => (.ok s.1.clock,
      ({ s.1 with clock := s.1.clock }, { s.2 with answers := ⟨.now, .ok s.1.clock⟩ :: s.2.answers }))
  | .sign tx => sign s tx
  | r => (answer s r,
      ({ s.1 with clock := s.1.clock }, { s.2 with answers := ⟨r, answer s r⟩ :: s.2.answers }))

theorem moves_respond (saves : Bool) (s : Store) (r : Request) :
    Moves services s r (respond saves s r).1 (respond saves s r).2 := by
  cases r with
  | journal => exact .journal s
  | setJournal j => exact .setJournal s j
  | save j =>
    cases saves with
    | true => exact .saved s j
    | false => exact .notSaved s j _
  | now => exact .now s _ le_rfl
  | sign tx =>
    show Moves services s (.sign tx) (sign s tx).1 (sign s tx).2
    unfold sign
    split
    · rename_i h
      exact .signed s tx _ _ (le_max_left _ _) ⟨_, rfl, h.1.symm, h.2.symm⟩
    · exact .notSigned s tx _
  | _ => exact .external s _ _ _ rfl le_rfl

/-- A process that has just been started, where there is no file. -/
def started (program : Sweeper Unit) : Sweep :=
  ⟨⟨none, 0, []⟩, some ⟨program, ⟨newJournal policy 1, [], 0⟩⟩⟩

/-- A sweep, and nothing else. -/
def sweep : SweepOptions := ⟨some 1, false, some ⟨7, 4⟩⟩

/-- The command. -/
def script : Sweep := started (sweepScript services policy 1 .run)

/-- A sweep whose journal cannot be written, and what is pending sent again. -/
def unsaved : Sweep := started (sweepCalls services policy [sweep, ⟨none, true, none⟩])

/-- A sweep, what became of it, and another one. -/
def twice : Sweep := started (sweepCalls services policy [sweep, ⟨none, false, none⟩, sweep])

/-- Whether bytes are sent. -/
def sent (raw : Hex) (label : Happens Request Answer) : Bool :=
  match label with
  | .answered (.sendRawTransaction raw') _ => raw' = raw
  | _ => false

theorem of_sent {raw : Hex} {label : Happens Request Answer} (h : sent raw label = true) :
    ∃ x, label = .answered (.sendRawTransaction raw) x := by
  unfold sent at h
  split at h
  · obtain rfl := of_decide_eq_true h
    exact ⟨_, rfl⟩
  · cases h

/-- Where a process has been answered some times, it sends bytes. -/
theorem exists_sent (saves : Bool) (n : ℕ) (m : Sweep) (raw : Hex)
    (h : ((Machine.next (respond saves) (Machine.play (respond saves) n m).2).any
      fun x => sent raw x.1) = true) :
    ∃ x m', Machine.next (respond saves) (Machine.play (respond saves) n m).2
      = some (.answered (.sendRawTransaction raw) x, m') := by
  obtain ⟨⟨label, m'⟩, hnext, hsent⟩ := (Option.any_eq_true _ _).mp h
  obtain ⟨x, rfl⟩ := of_sent hsent
  exact ⟨x, m', hnext⟩

end Sample

/-- The command sends the intent that it has written, within its limits. -/
theorem creator_sweep_journal_sample :
    (gasCost Sample.services [0] : ℤ) ≤ 60 ∧ ∃ row,
      pendingIn (Machine.play (Sample.respond true) 25 Sample.script).2.disk.file = some row ∧
        row.raw = [0] := by
  have hstart : Step Sample.services Sample.policy 1 ⟨⟨none, 0, []⟩, none⟩ .started Sample.script :=
    .start ⟨.run, rfl⟩
  have hrun := (Transition.Run.single hstart).append
    (Machine.run_play (Sample.moves_respond true) 25 Sample.script)
  obtain ⟨x, m', hnext⟩ := Sample.exists_sent true 25 Sample.script [0]
    (by decide +kernel)
  have hjournal := creator_sweep_journal ⟨rfl, rfl, rfl⟩ hrun
    (Machine.step_of_next (Sample.moves_respond true) hnext)
  obtain ⟨hcost, row, hrow, hraw, -⟩ := hjournal.2.1 [0] x rfl
  exact ⟨hcost, row, hrow, hraw⟩

/-- **Calls that follow each other in one process are not as safe.** After a journal that could not
be written, another call sends its bytes; and a transaction that was signed after midnight is
charged to the day before, so that more than the budget is sent on one day. -/
theorem calls_exceed :
    (∃ labels m m' raw x,
      Transition.Run (CallStep Sample.services Sample.policy 1) ⟨⟨none, 0, []⟩, none⟩ labels m ∧
        CallStep Sample.services Sample.policy 1 m (.answered (.sendRawTransaction raw) x) m' ∧
        m.disk.file = none) ∧
    ∃ labels m,
      Transition.Run (CallStep Sample.services Sample.policy 1) ⟨⟨none, 0, []⟩, none⟩ labels m ∧
        (∀ e ∈ m.disk.intents, utcDay e.signedAt = 1 ∧
          labels.any (Sample.sent e.intent.raw) = true) ∧
        Sample.policy.dailyGasWei
          < (m.disk.intents.map fun e => gasCost Sample.services e.intent.raw).sum := by
  constructor
  · have hstart : CallStep Sample.services Sample.policy 1 ⟨⟨none, 0, []⟩, none⟩ .started
        Sample.unsaved := .start ⟨_, rfl⟩
    obtain ⟨x, m', hnext⟩ := Sample.exists_sent false 27 Sample.unsaved [0]
      (by decide +kernel)
    refine ⟨_, _, m', [0], x, (Transition.Run.single hstart).append
      (Machine.run_play (Sample.moves_respond false) 27 Sample.unsaved),
      Machine.step_of_next (Sample.moves_respond false) hnext, ?_⟩
    have hnone : (Machine.play (Sample.respond false) 27 Sample.unsaved).2.disk.file.isNone = true := by
      decide +kernel
    exact Option.isNone_iff_eq_none.mp hnone
  · have hstart : CallStep Sample.services Sample.policy 1 ⟨⟨none, 0, []⟩, none⟩ .started
        Sample.twice := .start ⟨_, rfl⟩
    refine ⟨_, _, (Transition.Run.single hstart).append
      (Machine.run_play (Sample.moves_respond true) 55 Sample.twice), ?_, ?_⟩
    · decide +kernel
    · decide +kernel

end CreatorSweep

end Backend

end TickerGarden
