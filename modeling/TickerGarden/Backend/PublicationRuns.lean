import TickerGarden.Backend.HolderPublication
import TickerGarden.Lib.Transition

/-!
# The journal of the publisher

The publisher is a process that is started over and over, with a file that holds its journal.
It may be killed at any of its requests, every request may fail, and the file may or may not
hold what was written when a `save` fails. What it relies on is that a command works on the
journal that is in the file when it starts, and that the process ends with its command.

The invariant is what the program that is left still guarantees: `Interaction.Program.Meets`,
for the requests that are safe where they are made (`TickerGarden.Backend.HolderPublication.Allows`).
Between two requests that write, the program only reads, which can only add to the evidence
that an intent is settled.
-/

namespace TickerGarden

open Checked

namespace Backend

namespace HolderPublication

open Interaction

/-! ### What a process has -/

/-- A request that was answered. -/
abbrev Answered : Type := (r : Request) × Answer r

/-- The file with the journal, the journal in memory, and what the process has been told. -/
structure Store where
  file : Option PublicationJournal
  memory : PublicationJournal
  answers : List Answered

/-- The intent that is pending in a file. -/
def pendingIn (file : Option PublicationJournal) : Option PublicationIntent :=
  file.bind PublicationJournal.pending

/-- A request to anything but the journal. -/
def Request.external : Request → Bool
  | .journal | .setJournal _ | .save _ => false
  | _ => true

/-- A request that changes neither the journal nor the chain. -/
def Request.quiet : Request → Bool
  | .sign _ | .sendRawTransaction _ | .setJournal _ | .save _ => false
  | _ => true

/-- **What a request does**: the journal is read and written in memory, a file is replaced or,
if this fails, may have been, and everything else is answered in any way. -/
inductive Moves : Store → (r : Request) → Answer r → Store → Prop
  | journal (s : Store) : Moves s .journal (.ok s.memory) s
  | setJournal (s : Store) (j : PublicationJournal) :
      Moves s (.setJournal j) (.ok ()) { s with memory := j }
  | saved (s : Store) (j : PublicationJournal) :
      Moves s (.save j) (.ok ()) { s with file := some j }
  | notSaved (s : Store) (j : PublicationJournal) (e : JsError) : Moves s (.save j) (.error e) s
  | savedUnnoticed (s : Store) (j : PublicationJournal) (e : JsError) :
      Moves s (.save j) (.error e) { s with file := some j }
  | external (s : Store) (r : Request) (x : Answer r) (h : r.external = true) :
      Moves s r x { s with answers := ⟨r, x⟩ :: s.answers }

/-! ### The evidence that an intent is settled -/

section Evidence

variable (d : PublicationDependencies) (answers : List Answered)

/-- The process has been given this answer. -/
def Got (r : Request) (x : r.Result) : Prop := (⟨r, .ok x⟩ : Answered) ∈ answers

/-- The providers agree on a block. -/
structure AgreedBlock (number : ℕ) (block : RpcBlock) : Prop where
  number_eq : block.number = number
  primary : Got answers (.block .primary number) block
  secondary : d.sameSource = false → ∃ second, Got answers (.block .secondary number) second ∧
    second.hash = block.hash ∧ second.parentHash = block.parentHash ∧
    second.timestamp = block.timestamp

/-- A block at the head: at the lower of the heights the providers report. -/
def AtHead (current : RpcBlock) : Prop :=
  ∃ primary secondary : ℕ, Got answers (.latest .primary) primary ∧
    Got answers (.latest .secondary) secondary ∧
    AgreedBlock d answers (min primary secondary) current

/-- The finality of the policy: both providers have finalised the height, or time has passed. -/
def Final (height : ℕ) (block current : RpcBlock) : Prop :=
  if d.policy.finalityMode = some "finalized" then
    ∃ primary secondary primaryAgain secondaryAgain : RpcBlock,
      Got answers (.finalizedBlock .primary) primary ∧
      Got answers (.finalizedBlock .secondary) secondary ∧
      AgreedBlock d answers primary.number primaryAgain ∧ primaryAgain.hash = primary.hash ∧
      AgreedBlock d answers secondary.number secondaryAgain ∧
      secondaryAgain.hash = secondary.hash ∧ height ≤ min primary.number secondary.number
  else (block.timestamp : ℤ) + d.policy.finalitySeconds ≤ current.timestamp

/-- The events of a receipt publish the datasets, and nothing else. -/
def Publishes (rows : List SnapshotArtifact) (row : PublicationIntent) (receipt : Receipt) : Prop :=
  let events := (receipt.logs.filter fun l => l.address = row.distributor).filterMap
    d.services.decodePublished
  events.length = rows.length ∧ ∀ ds ∈ rows,
    (events.filter fun e => e.marketId = ds.input.marketId) = [ds.publication]

/-- **The intent is settled**, by the receipts `a` and `b` of the providers: they are those of
its transaction, which was reverted or published its datasets, in a block that both providers
have, with the confirmations and the finality of the policy. -/
structure SettledBy (rows : List SnapshotArtifact) (row : PublicationIntent) (a b : Receipt)
    (block current : RpcBlock) : Prop where
  datasets : row.batchDataHashes.getD [row.dataHash] = rows.map SnapshotArtifact.dataHash
  primary : Got answers (.receipt .primary row.hash) (some a)
  secondary : Got answers (.receipt .secondary row.hash) (some b)
  agree : a.transactionHash = b.transactionHash ∧ a.blockHash = b.blockHash ∧
    a.blockNumber = b.blockNumber ∧ a.status = b.status ∧ a.logs = b.logs
  own : a.transactionHash = row.hash
  outcome : a.status = "0x0" ∨ a.status = "0x1" ∧ Publishes d rows row a
  block_agreed : AgreedBlock d answers a.blockNumber block
  block_hash : block.hash = a.blockHash
  at_head : AtHead d answers current
  confirmations : d.policy.confirmations ≤ (current.number : ℤ) - a.blockNumber + 1
  final : Final d answers a.blockNumber block current

/-- An intent is settled by blocks and a receipt that the providers have answered with. -/
def Settled (rows : List SnapshotArtifact) (row : PublicationIntent) : Prop :=
  ∃ a b block current, SettledBy d answers rows row a b block current

variable {d answers} {answers' : List Answered} {number : ℕ} {block current : RpcBlock}
  {rows : List SnapshotArtifact} {row : PublicationIntent}

theorem AgreedBlock.mono (hle : answers ⊆ answers') (h : AgreedBlock d answers number block) :
    AgreedBlock d answers' number block where
  number_eq := h.number_eq
  primary := hle h.primary
  secondary := fun hsource => by
    obtain ⟨second, hgot, heq⟩ := h.secondary hsource
    exact ⟨second, hle hgot, heq⟩

theorem AtHead.mono (hle : answers ⊆ answers') (h : AtHead d answers current) :
    AtHead d answers' current := by
  obtain ⟨primary, secondary, hprimary, hsecondary, hagreed⟩ := h
  exact ⟨primary, secondary, hle hprimary, hle hsecondary, hagreed.mono hle⟩

theorem Final.mono {height : ℕ} (hle : answers ⊆ answers') (h : Final d answers height block current) :
    Final d answers' height block current := by
  unfold Final at *
  split at h
  · rename_i hmode
    rw [if_pos hmode]
    obtain ⟨p, s, p', s', hp, hs, hp', hpeq, hs', hseq, hheight⟩ := h
    exact ⟨p, s, p', s', hle hp, hle hs, hp'.mono hle, hpeq, hs'.mono hle, hseq, hheight⟩
  · rename_i hmode
    rw [if_neg hmode]
    exact h

/-- More answers do not unsettle an intent. -/
theorem Settled.mono (hle : answers ⊆ answers') (h : Settled d answers rows row) :
    Settled d answers' rows row := by
  obtain ⟨a, b, block, current, h⟩ := h
  exact ⟨a, b, block, current, { h with
    primary := hle h.primary
    secondary := hle h.secondary
    block_agreed := h.block_agreed.mono hle
    at_head := h.at_head.mono hle
    final := h.final.mono hle }⟩

end Evidence

/-! ### The requests that are safe -/

section Safety

variable (d : PublicationDependencies) (rows : List SnapshotArtifact)

/-- A journal may replace the one in the file: it has the same intent pending, or none, when
the one in the file is settled. -/
def Replaces (s : Store) (j : PublicationJournal) : Prop :=
  ∀ row, pendingIn s.file = some row →
    j.pending = some row ∨ j.pending = none ∧ Settled d s.answers rows row

/-- **The requests that are safe**: nothing is signed while an intent is pending, what is
sent is the intent in the file, and an intent leaves the file when it is settled. -/
def Allows (s : Store) : Request → Prop
  | .sign _ => pendingIn s.file = none ∧ s.memory.pending = none
  | .sendRawTransaction raw => ∃ row, pendingIn s.file = some row ∧ row.raw = raw
  | .save j => Replaces d rows s j
  | _ => True

/-- The journal in memory may be written. -/
def Recoverable (s : Store) : Prop := Replaces d rows s s.memory

/-- The journal in memory has the intent that is pending in the file. -/
def Synced (s : Store) : Prop := s.memory.pending = pendingIn s.file

/-- A store with more answers, and nothing else new. -/
structure Extends (s s' : Store) : Prop where
  file : s'.file = s.file
  memory : s'.memory = s.memory
  answers : s.answers ⊆ s'.answers

variable {d rows} {s s' s'' : Store}

theorem Extends.refl (s : Store) : Extends s s := ⟨rfl, rfl, List.Subset.refl _⟩

theorem Extends.trans (h : Extends s s') (h' : Extends s' s'') : Extends s s'' :=
  ⟨h'.file.trans h.file, h'.memory.trans h.memory, List.Subset.trans h.answers h'.answers⟩

theorem Extends.recoverable (h : Extends s s') (hs : Recoverable d rows s) :
    Recoverable d rows s' := by
  intro row hrow
  rw [h.file] at hrow
  rw [h.memory]
  exact (hs row hrow).imp_right fun ⟨hnone, hsettled⟩ => ⟨hnone, hsettled.mono h.answers⟩

theorem Extends.synced (h : Extends s s') (hs : Synced s) : Synced s' := by
  rw [Synced, h.file, h.memory]
  exact hs

theorem Synced.recoverable (h : Synced s) : Recoverable d rows s := fun _ hrow =>
  .inl (h.trans hrow)

variable {α β : Type} {p : Publisher α} {f : α → Publisher β} {Q : β → Store → Prop}

/-- **What a program of the publisher does**: its requests are safe, and when it fails the
journal in memory may still be written. -/
def Does (d : PublicationDependencies) (rows : List SnapshotArtifact) (p : Publisher α) (s : Store)
    (Q : α → Store → Prop) : Prop :=
  p.Meets (Allows d rows) Moves s Q fun _ s' => Recoverable d rows s'

/-- A program that only reads. -/
abbrev Reads (p : Publisher α) : Prop := p.Asks fun r => r.quiet = true

theorem extends_of_moves {r : Request} {x : Answer r} (hr : r.quiet = true)
    (h : Moves s r x s') : Extends s s' := by
  cases h with
  | journal => exact .refl s
  | setJournal => cases hr
  | saved => cases hr
  | notSaved => cases hr
  | savedUnnoticed => cases hr
  | external _ _ h => exact ⟨rfl, rfl, List.subset_cons_self _ _⟩

theorem allows_of_quiet {r : Request} (hr : r.quiet = true) : Allows d rows s r := by
  cases r <;> first | exact trivial | cases hr

/-- Reading adds answers, and does nothing else. -/
theorem Reads.meets (h : Reads p) (s : Store) :
    p.Meets (Allows d rows) Moves s (fun _ s' => Extends s s') (fun _ s' => Extends s s') :=
  Program.Meets.of_asks Extends.refl Extends.trans (fun _ _ => allows_of_quiet)
    (fun _ _ _ _ => extends_of_moves) h s

theorem Does.andThen {R : α → Store → Prop} (hp : Does d rows p s R)
    (hf : ∀ a s', R a s' → Does d rows (f a) s' Q) : Does d rows (p >>= f) s Q :=
  Program.Meets.andThen hp hf

/-- A program that reads first. -/
theorem Does.reads (hp : Reads p) (hs : Recoverable d rows s)
    (hf : ∀ a s', Extends s s' → Does d rows (f a) s' Q) : Does d rows (p >>= f) s Q :=
  Program.Meets.andThen ((hp.meets s).mono (fun _ _ => id) fun _ _ h => h.recoverable hs) hf

/-- The journal in memory. -/
theorem Does.journal {f : PublicationJournal → Publisher β} (hf : Does d rows (f s.memory) s Q) :
    Does d rows (ask .journal >>= f) s Q := by
  refine ⟨trivial, fun x s' hmove => ?_⟩
  cases hmove with
  | journal => exact hf
  | external _ _ h => cases h

/-- A pure computation. -/
theorem Does.lift {x : Except JsError α} (hs : Recoverable d rows s)
    (hf : ∀ a, x = .ok a → Does d rows (f a) s Q) : Does d rows (Program.lift x >>= f) s Q := by
  cases x with
  | ok a => exact hf a rfl
  | error e => exact hs

theorem Does.throwUnless {c : Prop} [Decidable c] {message : String} {f : Unit → Publisher β}
    (hs : Recoverable d rows s) (hf : c → Does d rows (f ()) s Q) :
    Does d rows (throwUnless c message >>= f) s Q :=
  Does.lift hs fun _ hok => hf (not_not.mp (revertIf_eq_ok.mp hok))

end Safety

/-! ### What only reads -/

section Reading

variable {d : PublicationDependencies} {rows : List SnapshotArtifact} {ds : SnapshotArtifact}

theorem reads_ask {r : Request} (h : r.quiet = true) : Reads (ask r) :=
  ⟨h, fun x => Program.asks_lift x⟩

theorem reads_throwUnless (c : Prop) [Decidable c] (message : String) :
    Reads (throwUnless c message) := Program.asks_lift _

theorem reads_pure {α : Type} (a : α) : Reads (pure a) := trivial

theorem reads_ite {α : Type} {c : Prop} [Decidable c] {p q : Publisher α} (hp : Reads p)
    (hq : Reads q) : Reads (if c then p else q) := by
  split
  · exact hp
  · exact hq

theorem reads_chains : Reads chains :=
  (reads_ask rfl).bind fun _ => (reads_ask rfl).bind fun _ => (reads_throwUnless _ _).bind fun _ =>
    (reads_ask rfl).bind fun _ => reads_throwUnless _ _

theorem reads_blockOf (provider : Provider) (number : ℕ) : Reads (blockOf provider number) :=
  (reads_ask rfl).bind fun _ => (reads_throwUnless _ _).bind fun _ => reads_pure _

theorem reads_consensusBlock (number : ℕ) : Reads (consensusBlock d number) :=
  (reads_blockOf _ _).bind fun _ => reads_ite (reads_pure _)
    ((reads_blockOf _ _).bind fun _ => (reads_throwUnless _ _).bind fun _ => reads_pure _)

theorem reads_head : Reads (head d) :=
  (reads_ask rfl).bind fun _ => (reads_ask rfl).bind fun _ => reads_consensusBlock _

theorem reads_preflight (dataset : SnapshotArtifact) : Reads (preflight d dataset) := by
  refine (reads_ask rfl).bind fun p => ?_
  cases p with
  | alreadyPublished => exact reads_pure _
  | publisherUnconfigured => exact trivial
  | simulatedNotBroadcast => exact (reads_throwUnless _ _).bind fun _ => reads_pure _

theorem reads_preflights : ∀ rows : List SnapshotArtifact, Reads (preflights d rows)
  | [] => reads_pure _
  | row :: rows => (reads_preflight row).bind fun _ => (reads_preflights rows).bind fun _ =>
      reads_pure _

theorem reads_preflightBatch : Reads (preflightBatch d rows ds) := by
  refine (reads_preflights rows).bind fun results => (reads_throwUnless _ _).bind fun _ => ?_
  have hwhole : ∀ result : Bool, Reads (do
      let current ← head d
      if (results.filter Preview.published).length = 0 then
        let tx : CallRequest := ⟨d.policy.publisher, ds.input.distributor, calldata d rows, none⟩
        ask (.call .primary tx (some current.number))
        ask (.call .secondary tx (some current.number))
      let again ← consensusBlock d current.number
      throwUnless (again.hash = current.hash) "Publication batch simulation anchor changed"
      return (result, current.number)) := by
    intro result
    refine reads_head.bind fun current => ?_
    have hlast : Reads (do
        let again ← consensusBlock d current.number
        throwUnless (again.hash = current.hash) "Publication batch simulation anchor changed"
        return (result, current.number)) :=
      (reads_consensusBlock _).bind fun _ => (reads_throwUnless _ _).bind fun _ => reads_pure _
    exact reads_ite ((reads_ask rfl).bind fun _ => (reads_ask rfl).bind fun _ => hlast) hlast
  rcases results with - | ⟨result, - | ⟨result', results⟩⟩
  · exact hwhole _
  · exact reads_pure _
  · exact hwhole _

theorem reads_notExpired (row : PublicationIntent) : Reads (notExpired d row) :=
  reads_head.bind fun _ => reads_throwUnless _ _

theorem reads_nonces (account : Address) : Reads (nonces account) :=
  (reads_ask rfl).bind fun _ => (reads_ask rfl).bind fun _ => (reads_ask rfl).bind fun _ =>
    (reads_ask rfl).bind fun _ => reads_pure _

theorem reads_prepare (signer : Address) : Reads (prepare d rows ds signer) := by
  refine reads_preflightBatch.bind fun ⟨published, _⟩ => reads_ite (reads_pure _) ?_
  refine (reads_nonces _).bind fun ⟨nonce, _, _, _⟩ => (reads_throwUnless _ _).bind fun _ => ?_
  refine (reads_ask rfl).bind fun _ => (reads_ask rfl).bind fun _ => (reads_ask rfl).bind fun _ => ?_
  refine (reads_throwUnless _ _).bind fun _ => (reads_ask rfl).bind fun _ =>
    (reads_throwUnless _ _).bind fun _ => ?_
  refine reads_preflightBatch.bind fun ⟨again, headBlock⟩ => reads_ite (reads_pure _) ?_
  refine reads_head.bind fun _ => (reads_throwUnless _ _).bind fun _ => ?_
  refine (reads_ask rfl).bind fun _ => (reads_ask rfl).bind fun _ => ?_
  exact (reads_nonces _).bind fun ⟨_, _, _, _⟩ => (reads_throwUnless _ _).bind fun _ =>
    (reads_ask rfl).bind fun _ => reads_pure _

end Reading

/-! ### What reading tells -/

section Learning

variable {d : PublicationDependencies} {rows : List SnapshotArtifact} {s s' : Store} {α β : Type}
  {p : Publisher α} {f : α → Publisher β} {Φ : α → List Answered → Prop}
  {Ψ : β → List Answered → Prop} {Q : β → Store → Prop}

/-- A program that reads, and what its result is evidence of. -/
def Learns (d : PublicationDependencies) (rows : List SnapshotArtifact) (p : Publisher α)
    (s : Store) (Φ : α → List Answered → Prop) : Prop :=
  p.Meets (Allows d rows) Moves s (fun a s' => Extends s s' ∧ Φ a s'.answers)
    fun _ s' => Extends s s'

theorem Learns.andThen (hp : Learns d rows p s Φ)
    (hf : ∀ a s', Extends s s' → Φ a s'.answers → Learns d rows (f a) s' Ψ) :
    Learns d rows (p >>= f) s Ψ :=
  Program.Meets.andThen hp fun a s' ⟨hext, hΦ⟩ =>
    (hf a s' hext hΦ).mono (fun _ _ h => ⟨hext.trans h.1, h.2⟩) fun _ _ h => hext.trans h

theorem Learns.pure {a : α} (h : Φ a s.answers) : Learns d rows (Pure.pure a) s Φ := ⟨.refl s, h⟩

theorem Learns.ask {r : Request} (hquiet : r.quiet = true) (hexternal : r.external = true) :
    Learns d rows (ask r) s fun x answers => Got answers r x := by
  refine ⟨allows_of_quiet hquiet, fun x s' hmove => ?_⟩
  have hext := extends_of_moves hquiet hmove
  have hgot : (⟨r, x⟩ : Answered) ∈ s'.answers := by
    cases hmove with
    | external => exact List.mem_cons_self
    | journal => cases hexternal
    | setJournal => cases hexternal
    | saved => cases hexternal
    | notSaved => cases hexternal
    | savedUnnoticed => cases hexternal
  cases x with
  | ok x => exact ⟨hext, hgot⟩
  | error e => exact hext

theorem Learns.throwUnless {c : Prop} [Decidable c] {message : String} :
    Learns d rows (throwUnless c message) s fun _ _ => c := by
  by_cases h : c
  · rw [HolderPublication.throwUnless, throwIf, revertIf_neg (not_not.mpr h)]
    exact ⟨.refl s, h⟩
  · rw [HolderPublication.throwUnless, throwIf, revertIf_pos h]
    exact .refl s

/-- A program that reads first, with what it learns. -/
theorem Does.learns (hp : Learns d rows p s Φ) (hs : Recoverable d rows s)
    (hf : ∀ a s', Extends s s' → Φ a s'.answers → Does d rows (f a) s' Q) :
    Does d rows (p >>= f) s Q :=
  Program.Meets.andThen (hp.mono (fun _ _ => id) fun _ _ h => h.recoverable hs)
    fun a s' h => hf a s' h.1 h.2

theorem learns_blockOf (provider : Provider) (number : ℕ) :
    Learns d rows (blockOf provider number) s fun block answers =>
      Got answers (.block provider number) block ∧ block.number = number :=
  (Learns.ask rfl rfl).andThen fun _ _ _ hgot => Learns.throwUnless.andThen fun _ _ hext hnumber =>
    Learns.pure ⟨hext.answers hgot, hnumber⟩

theorem learns_consensusBlock (number : ℕ) :
    Learns d rows (consensusBlock d number) s fun block answers =>
      AgreedBlock d answers number block := by
  refine (learns_blockOf _ _).andThen fun first s₁ _ ⟨hfirst, hnumber⟩ => ?_
  split
  · rename_i hsource
    exact Learns.pure ⟨hnumber, hfirst, fun h => absurd (hsource.symm.trans h) (by decide)⟩
  · refine (learns_blockOf _ _).andThen fun second s₂ hext ⟨hsecond, _⟩ => ?_
    refine Learns.throwUnless.andThen fun _ s₃ hext' ⟨hhash, hparent, htime⟩ => ?_
    exact Learns.pure ⟨hnumber, hext'.answers (hext.answers hfirst),
      fun _ => ⟨second, hext'.answers hsecond, hhash.symm, hparent.symm, htime.symm⟩⟩

theorem learns_head : Learns d rows (head d) s fun block answers => AtHead d answers block := by
  refine (Learns.ask rfl rfl).andThen fun primary s₁ _ hprimary => ?_
  refine (Learns.ask rfl rfl).andThen fun secondary s₂ hext hsecondary => ?_
  refine (learns_consensusBlock _).mono (fun block s₃ ⟨hext', hagreed⟩ => ⟨hext', ?_⟩) fun _ _ => id
  exact ⟨primary, secondary, hext'.answers (hext.answers hprimary), hext'.answers hsecondary,
    hagreed⟩

/-- What is settled is final. -/
theorem learns_settledAt {height : ℕ} {block current : RpcBlock} :
    Learns d rows (settledAt d height block current) s fun settled answers =>
      settled = true → Final d answers height block current := by
  unfold settledAt
  split
  · rename_i hmode
    refine (Learns.ask rfl rfl).andThen fun primary s₁ _ hprimary => ?_
    refine (Learns.ask rfl rfl).andThen fun secondary s₂ h₂ hsecondary => ?_
    refine (learns_consensusBlock _).andThen fun primaryAgain s₃ h₃ hprimaryAgain => ?_
    refine Learns.throwUnless.andThen fun _ s₄ h₄ hprimaryHash => ?_
    refine (learns_consensusBlock _).andThen fun secondaryAgain s₅ h₅ hsecondaryAgain => ?_
    refine Learns.throwUnless.andThen fun _ s₆ h₆ hsecondaryHash => ?_
    refine Learns.pure fun hle => ?_
    have h₃₆ := h₄.trans (h₅.trans h₆)
    have h₂₆ := h₃.trans h₃₆
    rw [Final, if_pos hmode]
    exact ⟨primary, secondary, primaryAgain, secondaryAgain, h₂₆.answers (h₂.answers hprimary),
      h₂₆.answers hsecondary, hprimaryAgain.mono h₃₆.answers, hprimaryHash,
      hsecondaryAgain.mono h₆.answers, hsecondaryHash, of_decide_eq_true hle⟩
  · rename_i hmode
    refine Learns.pure fun hle => ?_
    rw [Final, if_neg hmode]
    exact of_decide_eq_true hle

end Learning

/-! ### The commands -/

section Commands

variable {d : PublicationDependencies} {input rows : List SnapshotArtifact} {ds : SnapshotArtifact}
  {s s' : Store} {row : PublicationIntent}

theorem artifacts_eq_ok (h : artifacts input = .ok rows) : rows = input := by
  unfold artifacts at h
  split at h
  · cases h
  · simp only [bind_eq_ok, revertIf_eq_ok, pure_eq_ok, Except.ok.injEq] at h
    obtain ⟨-, -, -, -, heq⟩ := h
    exact heq.symm

/-- The datasets of a command that is under way are its input. -/
theorem does_begin {β : Type} {f : List SnapshotArtifact × SnapshotArtifact → Publisher β}
    {Q : β → Store → Prop} (hs : Synced s)
    (hf : ∀ ds s', Extends s s' → Does d input (f (input, ds)) s' Q) :
    Does d input (begin d input >>= f) s Q := by
  have hrec : Recoverable d input s := hs.recoverable
  refine Does.andThen (R := fun a s' => Extends s s' ∧ a.1 = input) ?_ fun ⟨rows, ds⟩ s' h => ?_
  · refine Does.lift hrec fun rows hrows => ?_
    obtain rfl := artifacts_eq_ok hrows
    cases rows with
    | nil => exact hrec
    | cons ds rest =>
      refine Does.journal (Does.lift hrec fun _ _ => ?_)
      exact Does.reads reads_chains hrec fun _ s' hext => ⟨hext, rfl⟩
  · obtain ⟨hext, rfl⟩ := h
    exact hf ds s' hext

theorem publicationReceiptMatches_eq_ok {receipt : Receipt} {success : Bool}
    (h : publicationReceiptMatches d receipt row rows = .ok success) :
    receipt.transactionHash = row.hash ∧
      (receipt.status = "0x0" ∨ receipt.status = "0x1" ∧ Publishes d rows row receipt) := by
  simp only [publicationReceiptMatches, bind_eq_ok, revertIf_eq_ok, not_not] at h
  obtain ⟨-, hhash, -, hstatus, h⟩ := h
  refine ⟨hhash, ?_⟩
  split at h
  · rename_i hne
    left
    by_contra hne'
    exact hstatus ⟨hne, hne'⟩
  · rename_i heq
    simp only [bind_eq_ok, revertIf_eq_ok, not_not] at h
    obtain ⟨-, hlength, _, hrows, -⟩ := h
    have hmatch := fun ds hds => revertIf_eq_ok.mp (forM_eq_ok.mp hrows ds hds)
    exact .inr ⟨not_not.mp heq, hlength, fun ds hds => not_not.mp (hmatch ds hds)⟩

theorem validateIntent_datasets {journal : PublicationJournal}
    (h : validateIntent d journal rows ds row = .ok ()) :
    row.batchDataHashes.getD [row.dataHash] = rows.map SnapshotArtifact.dataHash := by
  simp only [validateIntent, bind_eq_ok, revertIf_eq_ok, not_not] at h
  obtain ⟨-, hdatasets, -⟩ := h
  exact hdatasets

/-- Writing a journal, in memory and to the file. -/
theorem does_save {β : Type} {j : PublicationJournal} {f : Unit → Publisher β}
    {Q : β → Store → Prop} (hreplaces : Replaces d rows s j)
    (hf : Does d rows (f ()) { s with memory := j, file := some j } Q) :
    Does d rows (ask (.setJournal j) >>= fun _ => ask (.save j) >>= f) s Q := by
  refine ⟨trivial, fun x s' hmove => ?_⟩
  cases hmove with
  | external _ _ h => cases h
  | setJournal =>
    refine ⟨hreplaces, fun x s' hmove => ?_⟩
    cases hmove with
    | external _ _ h => cases h
    | saved => exact hf
    | notSaved => exact hreplaces
    | savedUnnoticed => exact Synced.recoverable rfl

/-- **The end of an intent**: when the journal is written without it, it is settled. -/
theorem does_settle {a b : Receipt} (hs : Synced s) (hrow : pendingIn s.file = some row)
    (hdatasets : row.batchDataHashes.getD [row.dataHash] = rows.map SnapshotArtifact.dataHash)
    (ha : Got s.answers (.receipt .primary row.hash) (some a))
    (hb : Got s.answers (.receipt .secondary row.hash) (some b)) :
    Does d rows (settle d rows ds row a b) s fun result s' =>
      Synced s' ∧ result.status ≠ .pending := by
  have hrec : ∀ {s'}, Extends s s' → Recoverable d rows s' := fun hext =>
    hext.recoverable hs.recoverable
  refine Does.throwUnless (hrec (.refl s)) fun hagree => ?_
  refine Does.learns learns_head (hrec (.refl s)) fun current s₁ h₁ hcurrent => ?_
  split
  · exact ⟨h₁.synced hs, by simp [Outcome.status]⟩
  refine Does.learns (learns_consensusBlock _) (hrec h₁) fun block s₂ h₂ hblock => ?_
  have h₂' := h₁.trans h₂
  refine Does.throwUnless (hrec h₂') fun hhash => ?_
  refine Does.learns learns_settledAt (hrec h₂') fun settled s₃ h₃ hfinal => ?_
  have h₃' := h₂'.trans h₃
  split
  · exact ⟨h₃'.synced hs, by simp [Outcome.status]⟩
  rename_i hconfirmations
  rw [not_or, not_lt, Bool.not_eq_false] at hconfirmations
  refine Does.lift (hrec h₃') fun success hsuccess => ?_
  obtain ⟨hown, houtcome⟩ := publicationReceiptMatches_eq_ok hsuccess
  have hsettled : Settled d s₃.answers rows row := ⟨a, b, block, current, {
    datasets := hdatasets
    primary := h₃'.answers ha
    secondary := h₃'.answers hb
    agree := hagree
    own := hown
    outcome := houtcome
    block_agreed := hblock.mono h₃.answers
    block_hash := hhash
    at_head := hcurrent.mono (h₂.trans h₃).answers
    confirmations := hconfirmations.1
    final := hfinal hconfirmations.2 }⟩
  -- the anchor is checked once more, and then the intent is taken out
  have hlast : ∀ s', Extends s₃ s' → Does d rows (do
      let again ← consensusBlock d a.blockNumber
      throwUnless (again.hash = a.blockHash) "Publication confirmation anchor changed"
      let status : PublicationStatus := if success then .confirmed else .reverted
      let journal ← ask .journal
      let last : Last :=
        ⟨status, ds.dataHash, row.hash, a.blockNumber, a.blockHash, a.gasUsed * a.effectiveGasPrice⟩
      let journal' : PublicationJournal := { journal with last := some last, pending := none }
      ask (.setJournal journal')
      ask (.save journal')
      return Outcome.ended last) s' fun result s' => Synced s' ∧ result.status ≠ .pending := by
    intro s₄ h₄
    refine Does.reads (reads_consensusBlock _) (hrec (h₃'.trans h₄)) fun again s₅ h₅ => ?_
    have h₅' := h₃'.trans (h₄.trans h₅)
    refine Does.throwUnless (hrec h₅') fun _ => Does.journal (does_save ?_ ?_)
    · intro row' hrow'
      rw [h₅'.file, hrow] at hrow'
      obtain rfl := Option.some.inj hrow'
      exact .inr ⟨rfl, hsettled.mono (h₄.trans h₅).answers⟩
    · refine ⟨rfl, ?_⟩
      cases success <;> simp [Outcome.status]
  cases success with
  | false => exact hlast s₃ (.refl s₃)
  | true =>
    refine Does.reads reads_preflightBatch (hrec h₃') fun published s₄ h₄ => ?_
    exact Does.throwUnless (hrec (h₃'.trans h₄)) fun _ => hlast s₄ h₄

/-- **Reconciling** leaves the journal in memory in step with the file; an intent it reports
as pending is still there. -/
theorem does_reconcilePublication (hs : Synced s) :
    Does d input (reconcilePublication d input) s fun result s' =>
      Synced s' ∧ (result.status = .pending → pendingIn s'.file = pendingIn s.file) := by
  refine does_begin hs fun ds s₁ h₁ => ?_
  have hs₁ := h₁.synced hs
  refine Does.journal ?_
  split
  · refine Does.reads reads_preflightBatch hs₁.recoverable fun ⟨published, _⟩ s₂ h₂ => ?_
    exact ⟨h₂.synced hs₁, by cases published <;> simp [Outcome.status]⟩
  · rename_i row hrow
    have hrow' : pendingIn s₁.file = some row := hs₁.symm.trans hrow
    refine Does.lift hs₁.recoverable fun _ hvalid => ?_
    refine Does.learns (Learns.ask rfl rfl) hs₁.recoverable fun primary s₂ h₂ hprimary => ?_
    have hs₂ := h₂.synced hs₁
    refine Does.learns (Learns.ask rfl rfl) hs₂.recoverable fun secondary s₃ h₃ hsecondary => ?_
    have hs₃ := h₃.synced hs₂
    have hfile : s₃.file = s.file := (h₁.trans (h₂.trans h₃)).file
    split
    · rename_i a b
      have hrow₃ : pendingIn s₃.file = some row := by
        rw [(h₂.trans h₃).file, hrow']
      refine (does_settle hs₃ hrow₃ (validateIntent_datasets hvalid) (h₃.answers hprimary)
        hsecondary).mono (fun result s' h => ⟨h.1, fun hpending => absurd hpending h.2⟩)
        fun _ _ => id
    · exact ⟨hs₃, fun _ => by rw [hfile]⟩

theorem extends_of_external {r : Request} {x : Answer r} (hr : r.external = true)
    (h : Moves s r x s') : Extends s s' := by
  cases h with
  | journal => cases hr
  | setJournal => cases hr
  | saved => cases hr
  | notSaved => cases hr
  | savedUnnoticed => cases hr
  | external => exact ⟨rfl, rfl, List.subset_cons_self _ _⟩

/-- A request to the outside that is safe. -/
theorem does_ask {r : Request} (hr : r.external = true) (hallows : Allows d rows s r)
    (hs : Recoverable d rows s) : Does d rows (ask r) s fun _ s' => Extends s s' := by
  refine ⟨hallows, fun x s' hmove => ?_⟩
  have hext := extends_of_external hr hmove
  cases x with
  | ok x => exact hext
  | error e => exact hext.recoverable hs

/-- What is sent is what the file has. -/
theorem does_submit (hs : Synced s) (hrow : pendingIn s.file = some row) :
    Does d rows (submit row) s fun _ s' => Extends s s' := by
  refine Program.Meets.tryCatch ?_
  refine Does.andThen (does_ask rfl ⟨row, hrow, rfl⟩ hs.recoverable) fun sent s₁ h₁ => ?_
  rw [Does, throwUnless, Program.meets_lift]
  exact ⟨fun _ _ => h₁, fun _ _ => (h₁.synced hs).recoverable⟩

/-- **Sending an intent** that the file has. -/
theorem does_sendPending (hs : Synced s) (hrow : pendingIn s.file = some row) :
    Does d input (sendPending d input input ds row) s fun _ s' => Synced s' := by
  refine Does.andThen (does_reconcilePublication hs) fun result s₁ ⟨hs₁, hpending⟩ => ?_
  split
  · exact hs₁
  rename_i hstatus
  have hrow₁ : pendingIn s₁.file = some row := (hpending (not_not.mp hstatus)).trans hrow
  have hrec : ∀ {s'}, Extends s₁ s' → Recoverable d input s' := fun hext =>
    (hext.synced hs₁).recoverable
  refine Does.reads (reads_ask rfl) (hrec (.refl s₁)) fun primary s₂ h₂ => ?_
  refine Does.reads (reads_ask rfl) (hrec h₂) fun secondary s₃ h₃ => ?_
  have h₃' := h₂.trans h₃
  refine Does.throwUnless (hrec h₃') fun _ => ?_
  refine Does.reads (reads_notExpired row) (hrec h₃') fun _ s₄ h₄ => ?_
  have h₄' := h₃'.trans h₄
  refine Does.reads reads_preflightBatch (hrec h₄') fun ⟨published, _⟩ s₅ h₅ => ?_
  have h₅' := h₄'.trans h₅
  cases published with
  | true => exact h₅'.synced hs₁
  | false =>
    refine Does.reads (reads_notExpired row) (hrec h₅') fun _ s₆ h₆ => ?_
    have h₆' := h₅'.trans h₆
    have hrow₆ : pendingIn s₆.file = some row := by rw [h₆'.file, hrow₁]
    refine Does.andThen (does_submit (h₆'.synced hs₁) hrow₆) fun _ s₇ h₇ => ?_
    exact (does_reconcilePublication ((h₆'.trans h₇).synced hs₁)).mono (fun _ _ h => h.1)
      fun _ _ => id

/-- **Publishing**: a transaction is signed when no intent is pending, and sent when the file
has it. -/
theorem does_publishSnapshotOnce {signer : Address} (hs : Synced s) :
    Does d input (publishSnapshotOnce d input signer) s fun _ s' => Synced s' := by
  refine does_begin hs fun ds s₁ h₁ => ?_
  have hs₁ := h₁.synced hs
  refine Does.throwUnless hs₁.recoverable fun _ => Does.journal ?_
  split
  · rename_i row hrow
    exact does_sendPending hs₁ (hs₁.symm.trans hrow)
  · rename_i hnone
    refine Does.reads (reads_prepare signer) hs₁.recoverable fun prepared s₂ h₂ => ?_
    have hs₂ := h₂.synced hs₁
    have hmemory : s₂.memory.pending = none := by rw [h₂.memory, hnone]
    cases prepared with
    | none => exact hs₂
    | some prepared =>
      obtain ⟨tx, current⟩ := prepared
      have hfile : pendingIn s₂.file = none := hs₂.symm.trans hmemory
      refine Does.andThen (does_ask rfl ⟨hfile, hmemory⟩ hs₂.recoverable) fun raw s₃ h₃ => ?_
      have hs₃ := h₃.synced hs₂
      refine Does.journal (Does.lift hs₃.recoverable fun _ _ => does_save ?_ ?_)
      · intro row hrow
        rw [h₃.file, hfile] at hrow
        cases hrow
      · exact does_sendPending rfl rfl

/-- **The command** makes safe requests only, also when it has failed. -/
theorem meets_runCommand {command : Command} (hs : Synced s) :
    (runCommand d input command).Meets (Allows d input) Moves s (fun _ _ => True)
      fun _ _ => True := by
  refine Program.Meets.tryCatch ?_
  have hcommand : Does d input (do
      ask .enterLane
      let _ ← commandOf d input command
      ask .leaveLane) s fun _ _ => True := by
    refine Does.reads (reads_ask rfl) hs.recoverable fun _ s₁ h₁ => ?_
    have hs₁ := h₁.synced hs
    refine Does.andThen (R := fun _ s' => Synced s') ?_ fun _ s₂ hs₂ => ?_
    · cases command with
      | publish signer => exact does_publishSnapshotOnce hs₁
      | reconcile => exact (does_reconcilePublication hs₁).mono (fun _ _ h => h.1) fun _ _ => id
    · exact (does_ask (r := .leaveLane) rfl trivial hs₂.recoverable).mono (fun _ _ _ => trivial) fun _ _ => id
  refine hcommand.mono (fun _ _ => id) fun e s₁ hs₁ => ?_
  refine ⟨trivial, fun x s₂ hmove => ?_⟩
  cases hmove with
  | external _ _ h => cases h
  | journal =>
    refine ⟨trivial, fun x s₂ hmove => ?_⟩
    cases hmove with
    | external _ _ h => cases h
    | setJournal =>
      refine ⟨hs₁, fun x s₂ hmove => ?_⟩
      cases x <;> exact trivial

end Commands

/-! ### Runs -/

/-- A process: what it runs, on what, and what is left of it. -/
structure Process where
  dependencies : PublicationDependencies
  input : List SnapshotArtifact
  program : Publisher Unit
  memory : PublicationJournal
  answers : List Answered

/-- The publisher: its file, and the process that runs, if one does. -/
structure Machine where
  file : Option PublicationJournal
  process : Option Process

/-- The store of a process. -/
def Process.store (file : Option PublicationJournal) (p : Process) : Store :=
  ⟨file, p.memory, p.answers⟩

/-- What happens at a step. -/
inductive Label
  | started
  | answered (r : Request) (x : Answer r)
  | ended

/-- **A step of the publisher.** A command is started on the journal of the file, or on a new
one; a process asks and is answered; and it ends at any time, done or killed. -/
inductive Step : Machine → Label → Machine → Prop
  | start (file : Option PublicationJournal) (d : PublicationDependencies)
      (input : List SnapshotArtifact) (command : Command) :
      Step ⟨file, none⟩ .started ⟨file, some {
        dependencies := d
        input
        program := runCommand d input command
        memory := file.getD ⟨d.chainId, d.deploymentDigest, d.policy.publisher, none, none, none⟩
        answers := [] }⟩
  | answer {file : Option PublicationJournal} {p : Process} {r : Request}
      {k : Answer r → Publisher Unit} {x : Answer r} {s : Store} (hprogram : p.program = .ask r k)
      (hmove : Moves (p.store file) r x s) :
      Step ⟨file, some p⟩ (.answered r x) ⟨s.file, some { p with
        program := k x
        memory := s.memory
        answers := s.answers }⟩
  | stop (file : Option PublicationJournal) (p : Process) : Step ⟨file, some p⟩ .ended ⟨file, none⟩

/-- Nothing has been published yet. -/
def Init (m : Machine) : Prop := m = ⟨none, none⟩

/-- What is left of a process makes safe requests only. -/
def Safe (m : Machine) : Prop :=
  ∀ p, m.process = some p → p.program.Meets (Allows p.dependencies p.input) Moves
    (p.store m.file) (fun _ _ => True) fun _ _ => True

theorem safe_of_step {m m' : Machine} {label : Label} (hm : Safe m) (h : Step m label m') :
    Safe m' := by
  cases h with
  | start file d input command =>
    intro p hp
    obtain rfl := Option.some.inj hp
    refine meets_runCommand ?_
    cases file <;> rfl
  | @answer file p r k x s hprogram hmove =>
    intro p' hp'
    obtain rfl := Option.some.inj hp'
    have hp := hm p rfl
    rw [hprogram] at hp
    exact hp.2 x s hmove
  | stop file p =>
    intro p' hp'
    cases hp'

theorem safe_of_run {m₀ m : Machine} {labels : List Label} (hinit : Init m₀)
    (h : Transition.Run Step m₀ labels m) : Safe m := by
  refine h.invariant (fun _ _ _ hm hstep => safe_of_step hm hstep) ?_
  intro p hp
  rw [hinit] at hp
  cases hp

/-- What is pending in the file has been written to it. -/
theorem saved_of_run {m₀ m : Machine} {labels : List Label} (hinit : Init m₀)
    (h : Transition.Run Step m₀ labels m) :
    ∀ row, pendingIn m.file = some row →
      ∃ j x, .answered (.save j) x ∈ labels ∧ j.pending = some row := by
  refine h.invariant_history (I := fun labels m => ∀ row, pendingIn m.file = some row →
    ∃ j x, .answered (.save j) x ∈ labels ∧ j.pending = some row) ?_ ?_
  · intro labels m label m' ih hstep row hrow
    have hkept : pendingIn m.file = some row →
        ∃ j x, .answered (.save j) x ∈ labels ++ [label] ∧ j.pending = some row := fun hrow => by
      obtain ⟨j, x, hmem, hj⟩ := ih row hrow
      exact ⟨j, x, List.mem_append_left _ hmem, hj⟩
    cases hstep with
    | start => exact hkept hrow
    | stop => exact hkept hrow
    | answer _ hmove =>
      cases hmove with
      | journal => exact hkept hrow
      | setJournal => exact hkept hrow
      | notSaved => exact hkept hrow
      | external => exact hkept hrow
      | saved => exact ⟨_, _, List.mem_append_right _ (List.mem_singleton_self _), hrow⟩
      | savedUnnoticed => exact ⟨_, _, List.mem_append_right _ (List.mem_singleton_self _), hrow⟩
  · intro row hrow
    rw [hinit] at hrow
    cases hrow

/-- An intent that is pending in the file stays, or is settled. -/
theorem kept_or_settled {m m' : Machine} {label : Label} (hm : Safe m) (h : Step m label m')
    (row : PublicationIntent) (hrow : pendingIn m.file = some row) :
    pendingIn m'.file = some row ∨ pendingIn m'.file = none ∧
      ∃ p, m.process = some p ∧ Settled p.dependencies p.answers p.input row := by
  cases h with
  | start => exact .inl hrow
  | stop => exact .inl hrow
  | @answer file p r k x s hprogram hmove =>
    have hp := hm p rfl
    rw [hprogram] at hp
    cases hmove with
    | journal => exact .inl hrow
    | setJournal => exact .inl hrow
    | notSaved => exact .inl hrow
    | external => exact .inl hrow
    | saved => exact (hp.1 row hrow).imp_right fun h => ⟨h.1, p, rfl, h.2⟩
    | savedUnnoticed => exact (hp.1 row hrow).imp_right fun h => ⟨h.1, p, rfl, h.2⟩

/-- **The journal of the publisher.** In every run, with failures, kills and restarts at any
request: nothing is signed while an intent is pending; what is sent is the intent that the
file holds, byte for byte, and was written there before; and an intent that is pending stays
as it is until both providers have its receipt with the confirmations and the finality of the
policy. -/
theorem publication_journal {m₀ m m' : Machine} {labels : List Label} {label : Label}
    (hinit : Init m₀) (h : Transition.Run Step m₀ labels m) (hstep : Step m label m') :
    (∀ tx x, label = .answered (.sign tx) x → pendingIn m.file = none ∧
      ∀ p, m.process = some p → p.memory.pending = none) ∧
    (∀ raw x, label = .answered (.sendRawTransaction raw) x →
      ∃ row, pendingIn m.file = some row ∧ row.raw = raw ∧
        ∃ j y, .answered (.save j) y ∈ labels ∧ j.pending = some row) ∧
    ∀ row, pendingIn m.file = some row → pendingIn m'.file = some row ∨
      pendingIn m'.file = none ∧
        ∃ p, m.process = some p ∧ Settled p.dependencies p.answers p.input row := by
  have hsafe := safe_of_run hinit h
  refine ⟨?_, ?_, kept_or_settled hsafe hstep⟩
  · rintro tx x rfl
    cases hstep with
    | @answer _ p _ _ _ _ hprogram _ =>
      have hp := hsafe p rfl
      rw [hprogram] at hp
      refine ⟨hp.1.1, fun p' hp' => ?_⟩
      obtain rfl := Option.some.inj hp'
      exact hp.1.2
  · rintro raw x rfl
    cases hstep with
    | @answer _ p _ _ _ _ hprogram _ =>
      have hp := hsafe p rfl
      rw [hprogram] at hp
      obtain ⟨row, hrow, hraw⟩ := hp.1
      exact ⟨row, hrow, hraw, saved_of_run hinit h row hrow⟩

/-! ### A publication that is confirmed -/

namespace Sample

/-- The answer to a request, by what a chain answers, and what it does. -/
def respond (chain : List Answered → (r : Request) → Answer r) (s : Store) :
    (r : Request) → Answer r × Store
  | .journal => (.ok s.memory, s)
  | .setJournal j => (.ok (), { s with memory := j })
  | .save j => (.ok (), { s with file := some j })
  | r => (chain s.answers r, { s with answers := ⟨r, chain s.answers r⟩ :: s.answers })

theorem moves_respond (chain : List Answered → (r : Request) → Answer r) (s : Store) (r : Request) :
    Moves s r (respond chain s r).1 (respond chain s r).2 := by
  cases r with
  | journal => exact .journal s
  | setJournal j => exact .setJournal s j
  | save j => exact .saved s j
  | _ => exact .external s _ _ rfl

/-- The next answer to a process, if it asks. -/
def next (chain : List Answered → (r : Request) → Answer r) (m : Machine) : Option (Label × Machine) :=
  match m.process with
  | none => none
  | some p =>
    match p.program with
    | .ask r k =>
      let answer := respond chain (p.store m.file) r
      some (.answered r answer.1, ⟨answer.2.file, some { p with
        program := k answer.1
        memory := answer.2.memory
        answers := answer.2.answers }⟩)
    | _ => none

theorem step_of_next {chain : List Answered → (r : Request) → Answer r} {m m' : Machine}
    {label : Label} (h : next chain m = some (label, m')) : Step m label m' := by
  obtain ⟨file, process⟩ := m
  cases process with
  | none => cases h
  | some p =>
    simp only [next] at h
    split at h
    · rename_i r k hprogram
      obtain ⟨rfl, rfl⟩ := Prod.mk.inj (Option.some.inj h)
      exact Step.answer hprogram (moves_respond _ _ _)
    · cases h

/-- A process that is answered some times. -/
def play (chain : List Answered → (r : Request) → Answer r) : ℕ → Machine → Machine
  | 0, m => m
  | n + 1, m =>
    match next chain m with
    | some (_, m') => play chain n m'
    | none => m

theorem run_play (chain : List Answered → (r : Request) → Answer r) :
    ∀ (n : ℕ) (m : Machine), ∃ labels, Transition.Run Step m labels (play chain n m) := by
  intro n
  induction n with
  | zero => exact fun m => ⟨[], .refl m⟩
  | succ n ih =>
    intro m
    unfold play
    split
    · rename_i label m' hnext
      obtain ⟨labels, hrun⟩ := ih m'
      exact ⟨[label] ++ labels, (Transition.Run.single (step_of_next hnext)).append hrun⟩
    · exact ⟨[], .refl m⟩

/-- A dataset with the fixed hashes of the sample. -/
def dataset : SnapshotArtifact where
  input := ⟨4663, 1, 2, 3, 4, 5, 1, 6, 7, 1, 0, 100, 10, 10, false, []⟩
  root := 8
  dataHash := 9
  quoteBudget := 5
  memeBudget := 5

/-- Libraries that read every transaction as the same one, and a policy that spends a little. -/
def dependencies : PublicationDependencies where
  services :=
    { keccak256 := fun _ => 10
      parseTransaction := fun _ => .ok ⟨some 4663, some 2, some [1], some 0, some 0, "legacy",
        some 2, some 2⟩
      recoverTransactionAddress := fun _ => .ok 11
      encodePublishSnapshots := fun _ => [1]
      decodePublished := fun _ => some dataset.publication
      verifySnapshotArtifact := fun _ => .ok () }
  chainId := 4663
  deploymentDigest := 1
  sameSource := false
  policy := ⟨11, 100, 2, 0, some "finalized", 300⟩

/-- Whether the transaction has been sent. -/
def sent (answers : List Answered) : Bool :=
  answers.any fun a => match a.1 with
    | .sendRawTransaction _ => true
    | _ => false

/-- A chain that takes the transaction in its block `9`. -/
def chain (answers : List Answered) : (r : Request) → Answer r
  | .chainId _ => .ok (4663 : ℤ)
  | .latest _ => .ok (10 : ℕ)
  | .block _ n => .ok ⟨n, 20 + BitVec.ofNat 256 n, 19 + BitVec.ofNat 256 n, 1000⟩
  | .finalizedBlock _ => .ok ⟨9, 29, 28, 1000⟩
  | .receipt _ hash => .ok (if sent answers then some ⟨hash, 29, 9, "0x1", 1, 1, [⟨2, [], []⟩]⟩
      else none)
  | .transactionCount .. => .ok (0 : ℕ)
  | .estimateGas .. => .ok (1 : ℕ)
  | .gasPrice => .ok (1 : ℕ)
  | .balance _ => .ok (1000 : ℕ)
  | .preview _ => .ok (if sent answers then .alreadyPublished 10
      else .simulatedNotBroadcast 11 2 [1] 10 9)
  | .sign _ => .ok [12]
  | .sendRawTransaction _ => .ok (10 : Bytes32)
  | .journal => .error ⟨""⟩
  | .call .. | .setJournal _ | .save _ | .enterLane | .leaveLane => .ok ()

/-- A command that has just been started. -/
def started : Machine := ⟨none, some {
  dependencies
  input := [dataset]
  program := runCommand dependencies [dataset] (.publish 11)
  memory := ⟨4663, 1, 11, none, none, none⟩
  answers := [] }⟩

end Sample

/-- The journal is written without the intent, which is settled. -/
theorem publication_journal_sample :
    ∃ row, pendingIn (Sample.play Sample.chain 74 Sample.started).file = some row ∧
      ∃ p, (Sample.play Sample.chain 74 Sample.started).process = some p ∧
        Settled p.dependencies p.answers p.input row := by
  have hstart : Step ⟨none, none⟩ .started Sample.started :=
    Step.start none Sample.dependencies [Sample.dataset] (.publish 11)
  obtain ⟨labels, hrun⟩ := Sample.run_play Sample.chain 74 Sample.started
  have hsome : (pendingIn (Sample.play Sample.chain 74 Sample.started).file).isSome = true := by
    decide +kernel
  obtain ⟨row, hrow⟩ := Option.isSome_iff_exists.mp hsome
  have hcleared : (Sample.next Sample.chain (Sample.play Sample.chain 74 Sample.started)).map
      (fun next => pendingIn next.2.file) = some none := by decide +kernel
  obtain ⟨⟨label, m'⟩, hnext, hnone⟩ := Option.map_eq_some_iff.mp hcleared
  have hjournal := publication_journal rfl ((Transition.Run.single hstart).append hrun)
    (Sample.step_of_next hnext)
  refine ⟨row, hrow, ?_⟩
  rcases hjournal.2.2 row hrow with hkept | ⟨-, hsettled⟩
  · rw [hnone] at hkept
    cases hkept
  · exact hsettled

end HolderPublication

end Backend

end TickerGarden
