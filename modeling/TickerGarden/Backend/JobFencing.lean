import TickerGarden.Backend.JobQueue

/-!
# Fencing of the job queue

What a worker does with a lease that is no longer the current one has no effect, so that
a job is completed once at most, by the one worker that holds it
(`JobQueue.fenced`).

Everything rests on what a call may do to the row of a job (`RowStep`), of which there are only
six cases, and on an invariant (`Inv`) that ties the rows to the leases that were issued: the
token of a job counts its attempts, each token was issued to one worker, and a leased job is
leased to the worker that its token was issued to.
-/

namespace TickerGarden

open Checked Transition

namespace Backend

namespace JobQueue

/-! ### What a call does to a row -/

/-- The job is over. -/
def Job.Terminal (j : Job) : Prop := j.state = .succeeded ∨ j.state = .dead

/-- What a call may do to the row of a job, or to its absence. -/
inductive RowStep : Option Job → Option Job → Prop
  | same (k : Option Job) : RowStep k k
  | enqueued {j : Job} : j.state = .pending → j.fencing = 0 → j.attempt = 0 →
      RowStep none (some j)
  | claimed {j : Job} (owner : String) (e : Timestamp) : j.state = .pending ∨ j.state = .retry →
      RowStep (some j) (some (j.claim owner e))
  | completed {j : Job} (digest : String) : j.state = .leased →
      RowStep (some j) (some (j.complete digest))
  | failed {j : Job} {o : FailOutcome} (code : String) (e : Timestamp) : j.state = .leased →
      (o = .retry → j.attempt < j.maxAttempts) → RowStep (some j) (some (j.fail o code e))
  | expired {j : Job} (now : Timestamp) : j.state = .leased →
      RowStep (some j) (some (j.expire now))

/-- The counters of a job. -/
structure Job.Counted (j : Job) : Prop where
  fencing_eq : j.fencing = j.attempt
  attempt_le : j.attempt ≤ j.maxAttempts
  /-- A job that may be claimed has an attempt left. -/
  spare : j.state = .pending ∨ j.state = .retry → j.attempt < j.maxAttempts

namespace RowStep

variable {j j' : Job} {k k' : Option Job}

/-- **A job that is over stays as it is.** -/
theorem terminal (h : RowStep (some j) k) (hj : j.Terminal) : k = some j := by
  rcases hj with hj | hj <;> cases h <;> simp_all

/-- A job stays, under its generation and its bound, and its token does not decrease. -/
theorem keeps (h : RowStep (some j) k) : ∃ j', k = some j' ∧ j.fencing ≤ j'.fencing ∧
    j'.maxAttempts = j.maxAttempts ∧ j'.generation = j.generation := by
  cases h with
  | same => exact ⟨j, rfl, le_rfl, rfl, rfl⟩
  | claimed owner e => exact ⟨_, rfl, Nat.le_succ _, rfl, rfl⟩
  | completed | failed | expired => exact ⟨_, rfl, le_rfl, rfl, rfl⟩

/-- A job is leased after a call if it was leased before it, and untouched, or if it is claimed. -/
theorem leased (h : RowStep k (some j')) (hj : j'.state = .leased) : k = some j' ∨
    ∃ j owner e, k = some j ∧ j' = j.claim owner e := by
  cases h with
  | same => exact .inl rfl
  | enqueued hpending => rw [hpending] at hj; cases hj
  | @claimed j owner e => exact .inr ⟨j, owner, e, rfl, rfl⟩
  | completed => cases hj
  | @failed _ o => cases o <;> cases hj
  | @expired j =>
    rw [Job.expire] at hj
    dsimp only at hj
    split_ifs at hj

/-- The counters keep their relation. -/
theorem counted (h : RowStep k k') (hk : ∀ j ∈ k, j.Counted) : ∀ j ∈ k', j.Counted := by
  cases h with
  | same => exact hk
  | @enqueued j hstate hfencing hattempt =>
    rintro _ ⟨⟩
    have hpos := j.maxAttempts_check.1
    exact ⟨by omega, by omega, fun _ => by omega⟩
  | @claimed j owner e hstate =>
    rintro _ ⟨⟩
    have hj := hk j rfl
    have hspare := hj.spare hstate
    exact ⟨congrArg (· + 1) hj.fencing_eq, hspare, by simp [Job.claim]⟩
  | @completed j digest =>
    rintro _ ⟨⟩
    have hj := hk j rfl
    exact ⟨hj.fencing_eq, hj.attempt_le, by simp [Job.complete]⟩
  | @failed j o code e _ hretry =>
    rintro _ ⟨⟩
    have hj := hk j rfl
    refine ⟨hj.fencing_eq, hj.attempt_le, fun hstate => hretry ?_⟩
    cases o with
    | retry => rfl
    | dead => rcases hstate with hstate | hstate <;> cases hstate
  | @expired j now =>
    rintro _ ⟨⟩
    have hj := hk j rfl
    refine ⟨hj.fencing_eq, hj.attempt_le, fun hstate => ?_⟩
    by_contra hlt
    have hdead : j.attempt ≥ j.maxAttempts := not_lt.mp hlt
    simp [Job.expire, hdead] at hstate

end RowStep

/-! ### The invariant -/

/-- The job is leased under the token of the lease. -/
def Current (s : System) (l : Lease) : Prop :=
  ∃ j ∈ s.store.jobs.lookup l.id, j.state = .leased ∧ j.fencing = l.fencing

/-- **The rows and the leases agree.** -/
structure Inv (s : System) : Prop where
  counted : ∀ id, ∀ j ∈ s.store.jobs.lookup id, j.Counted
  fresh : ∀ id ∈ s.store.jobs, id < s.store.nextJobId
  /-- A lease is of a job, whose token has since not decreased. -/
  authentic : ∀ x ∈ s.issued, ∃ j ∈ s.store.jobs.lookup x.1.id, x.1.fencing ≤ j.fencing ∧
    x.1.attempt = x.1.fencing ∧ x.1.maxAttempts = j.maxAttempts ∧ x.1.generation = j.generation
  /-- A token is issued once. -/
  unique : ∀ x ∈ s.issued, ∀ y ∈ s.issued, x.1.id = y.1.id → x.1.fencing = y.1.fencing → x = y
  /-- A leased job is leased to whom its token was issued to. -/
  holder : ∀ id, ∀ j ∈ s.store.jobs.lookup id, j.state = .leased → ∃ x ∈ s.issued,
    x.1.id = id ∧ x.1.fencing = j.fencing ∧ j.leaseOwner = some x.2 ∧
      j.leaseExpiresAt = some x.1.leaseExpiresAt
  /-- The end of an attempt is not written as long as it lasts. -/
  written : ∀ a ∈ s.store.attempts, ∃ j ∈ s.store.jobs.lookup a.jobId, a.fencing ≤ j.fencing ∧
    (a.fencing = j.fencing → a.outcome ≠ .leased → j.state ≠ .leased)

theorem inv_empty : Inv System.empty where
  counted := by simp [System.empty]
  fresh := by simp [System.empty]
  authentic := by simp [System.empty]
  unique := by simp [System.empty]
  holder := by simp [System.empty]
  written := by simp [System.empty]

/-- The lease was issued by a claim that led to this state. -/
def Issued (s t : Store) (x : Lease × String) : Prop :=
  ∃ j ∈ s.jobs.lookup x.1.id, x.1 = j.lease x.1.id x.1.leaseExpiresAt ∧
    t.jobs.lookup x.1.id = some (j.claim x.2 x.1.leaseExpiresAt)

/-- **What a call does**, to the rows, to the leases and to the attempts. -/
structure Change (s t : Store) (new : List (Lease × String)) : Prop where
  row : ∀ id, RowStep (s.jobs.lookup id) (t.jobs.lookup id)
  issued : ∀ x ∈ new, Issued s t x
  nodup : (new.map fun x => x.1.id).Nodup
  leased : ∀ id, ∀ j ∈ t.jobs.lookup id, j.state = .leased → s.jobs.lookup id = some j ∨
    ∃ x ∈ new, x.1.id = id
  attempts : ∀ a ∈ t.attempts, a ∈ s.attempts ∨ ∃ j ∈ t.jobs.lookup a.jobId,
    a.fencing = j.fencing ∧ (a.outcome ≠ .leased → j.state ≠ .leased)
  fresh : (∀ id ∈ s.jobs, id < s.nextJobId) → ∀ id ∈ t.jobs, id < t.nextJobId

/-- **The invariant is kept** by whatever a call does. -/
theorem Inv.change {s : System} {t : Store} {new : List (Lease × String)} (h : Inv s)
    (hc : Change s.store t new) : Inv ⟨t, new ++ s.issued⟩ := by
  have hkeeps : ∀ id, ∀ j ∈ s.store.jobs.lookup id, ∃ j' ∈ t.jobs.lookup id,
      j.fencing ≤ j'.fencing ∧ j'.maxAttempts = j.maxAttempts ∧ j'.generation = j.generation := by
    intro id j hj
    have hrow := hc.row id
    rw [Option.mem_def.mp hj] at hrow
    exact hrow.keeps
  -- a new lease has a token that no earlier one has
  have hnew : ∀ x ∈ new, ∀ y ∈ s.issued, x.1.id = y.1.id → y.1.fencing < x.1.fencing := by
    intro x hx y hy hid
    obtain ⟨j, hj, hlease, -⟩ := hc.issued x hx
    obtain ⟨j₀, hj₀, hle, -⟩ := h.authentic y hy
    rw [← hid, Option.mem_def.mp hj] at hj₀
    obtain rfl := Option.some.inj hj₀
    rw [hlease]
    exact Nat.lt_succ_of_le hle
  refine ⟨fun id => (hc.row id).counted (h.counted id), hc.fresh h.fresh, ?_, ?_, ?_, ?_⟩
  · intro x hx
    rcases List.mem_append.mp hx with hx | hx
    · obtain ⟨j, hj, hlease, ht⟩ := hc.issued x hx
      have hcounted := h.counted _ j hj
      refine ⟨_, ht, ?_⟩
      rw [hlease]
      exact ⟨le_rfl, congrArg (· + 1) hcounted.fencing_eq.symm, rfl, rfl⟩
    · obtain ⟨j, hj, hle, hattempt, hmax, hgeneration⟩ := h.authentic x hx
      obtain ⟨j', hj', hle', hmax', hgeneration'⟩ := hkeeps _ j hj
      exact ⟨j', hj', hle.trans hle', hattempt, hmax.trans hmax'.symm,
        hgeneration.trans hgeneration'.symm⟩
  · intro x hx y hy hid hfencing
    rcases List.mem_append.mp hx with hx | hx <;> rcases List.mem_append.mp hy with hy | hy
    · exact List.inj_on_of_nodup_map hc.nodup hx hy hid
    · have := hnew x hx y hy hid
      omega
    · have := hnew y hy x hx hid.symm
      omega
    · exact h.unique x hx y hy hid hfencing
  · intro id j hj hleased
    rcases hc.leased id j hj hleased with hold | ⟨x, hx, rfl⟩
    · obtain ⟨x, hx, hholder⟩ := h.holder id j hold hleased
      exact ⟨x, List.mem_append_right _ hx, hholder⟩
    · obtain ⟨j₀, hj₀, hlease, ht⟩ := hc.issued x hx
      obtain rfl := Option.some.inj (ht.symm.trans hj)
      exact ⟨x, List.mem_append_left _ hx, rfl, congrArg Lease.fencing hlease, rfl, rfl⟩
  · intro a ha
    rcases hc.attempts a ha with ha | ⟨j, hj, hfencing, hstate⟩
    · obtain ⟨j, hj, hle, hstate⟩ := h.written a ha
      obtain ⟨j', hj', hle', -⟩ := hkeeps _ j hj
      refine ⟨j', hj', hle.trans hle', fun hfencing houtcome hleased => ?_⟩
      have heq : a.fencing = j.fencing := le_antisymm hle (hfencing ▸ hle')
      have hrow := hc.row a.jobId
      rw [Option.mem_def.mp hj, Option.mem_def.mp hj'] at hrow
      rcases hrow.leased hleased with hsame | ⟨j₁, owner, e, hj₁, rfl⟩
      · obtain rfl := Option.some.inj hsame
        exact hstate heq houtcome hleased
      · obtain rfl := Option.some.inj hj₁
        have : j.fencing = j.fencing + 1 := heq.symm.trans hfencing
        omega
    · exact ⟨j, hj, hfencing.le, fun _ => hstate⟩

/-! ### The statements -/

theorem mem_select {p : Job → Bool} {key : Job → Timestamp} {locked : List ℕ} {limit : ℕ}
    {jobs : Table ℕ Job} {x : ℕ × Job} (h : x ∈ select p key locked limit jobs) :
    jobs.lookup x.1 = some x.2 ∧ p x.2 = true := by
  have hmem := List.mem_of_mem_take h
  rw [List.mem_insertionSort, List.mem_filter, Bool.and_eq_true] at hmem
  exact ⟨Table.mem_rows.mp hmem.1, hmem.2.1⟩

theorem nodup_select (p : Job → Bool) (key : Job → Timestamp) (locked : List ℕ) (limit : ℕ)
    (jobs : Table ℕ Job) : ((select p key locked limit jobs).map Prod.fst).Nodup := by
  have hrows := Table.nodup_rows id jobs
  refine List.Nodup.sublist ((List.take_sublist _ _).map _) ?_
  rw [((List.perm_insertionSort _ _).map Prod.fst).nodup_iff]
  exact hrows.sublist (List.filter_sublist.map _)

/-- An update writes the selected rows, and no others. -/
theorem lookup_update (f : Job → Job) (selected : List (ℕ × Job)) (jobs : Table ℕ Job) (id : ℕ) :
    (update f selected jobs).lookup id
      = (jobs.lookup id).map fun j => if id ∈ selected.map Prod.fst then f j else j := by
  rw [update, Table.lookup_map]

/-- What is inserted is there. -/
theorem mem_insertAttempts {rows attempts attempts' : List JobAttempt}
    (h : rows.foldlM insertAttempt attempts = .ok attempts') {a : JobAttempt} :
    a ∈ attempts' ↔ a ∈ rows ∨ a ∈ attempts := by
  induction rows generalizing attempts with
  | nil =>
    obtain rfl : attempts = attempts' := by simpa using h
    simp
  | cons r rows ih =>
    rw [List.foldlM_cons] at h
    obtain ⟨_, hr, h⟩ := bind_eq_ok.mp h
    simp only [insertAttempt, bind_eq_ok, revertIf_eq_ok, pure_eq_ok, Except.ok.injEq] at hr
    obtain ⟨_, -, rfl⟩ := hr
    rw [ih h, List.mem_cons, List.mem_cons]
    tauto

section Selected

variable {s : Store} {selected : List (ℕ × Job)} {f : Job → Job}

/-- The row of a selected job. -/
theorem lookup_update_mem (hmem : ∀ x ∈ selected, s.jobs.lookup x.1 = some x.2) {x : ℕ × Job}
    (hx : x ∈ selected) : (update f selected s.jobs).lookup x.1 = some (f x.2) := by
  rw [lookup_update, hmem x hx, Option.map_some, if_pos (List.mem_map_of_mem hx)]

/-- An update of selected rows does to every row what it does to these. -/
theorem rowStep_update (hmem : ∀ x ∈ selected, s.jobs.lookup x.1 = some x.2)
    (hstep : ∀ x ∈ selected, RowStep (some x.2) (some (f x.2))) (id : ℕ) :
    RowStep (s.jobs.lookup id) ((update f selected s.jobs).lookup id) := by
  by_cases hid : id ∈ selected.map Prod.fst
  · obtain ⟨x, hx, rfl⟩ := List.mem_map.mp hid
    rw [lookup_update_mem hmem hx, hmem x hx]
    exact hstep x hx
  · rw [lookup_update]
    simp only [hid, if_false, Option.map_id']
    exact .same _

theorem fresh_update (h : ∀ id ∈ s.jobs, id < s.nextJobId) :
    ∀ id ∈ update f selected s.jobs, id < s.nextJobId := by
  intro id hid
  refine h id (AList.lookup_isSome.mp ?_)
  have hsome := AList.lookup_isSome.mpr hid
  rwa [lookup_update, Option.isSome_map] at hsome

/-- A job that is leased after an update is one of the selected ones, or was not touched. -/
theorem leased_update {id : ℕ} {j : Job} (hj : (update f selected s.jobs).lookup id = some j) :
    s.jobs.lookup id = some j ∨ ∃ x ∈ selected, x.1 = id := by
  by_cases hid : id ∈ selected.map Prod.fst
  · exact .inr (List.mem_map.mp hid)
  · rw [lookup_update] at hj
    simp only [hid, if_false, Option.map_id'] at hj
    exact .inl hj

end Selected

/-! ### What each call does -/

/-- A call that does not touch the tables of jobs. -/
theorem Change.same {s t : Store} (hjobs : t.jobs = s.jobs) (hattempts : t.attempts = s.attempts)
    (hnext : t.nextJobId = s.nextJobId) : Change s t [] where
  row id := hjobs ▸ .same _
  issued := by simp
  nodup := List.nodup_nil
  leased id j hj _ := .inl (hjobs ▸ hj)
  attempts a ha := .inl (hattempts ▸ ha)
  fresh h := by rwa [hjobs, hnext]

/-- A call that ends the attempt of one job. -/
theorem Change.write {s : Store} {id : ℕ} {j j' : Job} {a : JobAttempt}
    (hj : s.jobs.lookup id = some j) (hstep : RowStep (some j) (some j'))
    (hstate : j'.state ≠ .leased) (hid : a.jobId = id) (hfencing : a.fencing = j'.fencing) :
    Change s { s with jobs := s.jobs.insert id j', attempts := a :: s.attempts } [] where
  row i := by
    rcases eq_or_ne i id with rfl | hne
    · rw [AList.lookup_insert, hj]
      exact hstep
    · rw [AList.lookup_insert_ne hne]
      exact .same _
  issued := by simp
  nodup := List.nodup_nil
  leased i k hk hleased := by
    rcases eq_or_ne i id with rfl | hne
    · rw [Option.mem_def, AList.lookup_insert] at hk
      exact absurd (Option.some.inj hk ▸ hleased) hstate
    · rw [Option.mem_def, AList.lookup_insert_ne hne] at hk
      exact .inl hk
  attempts b hb := by
    rcases List.mem_cons.mp hb with rfl | hb
    · refine .inr ⟨j', ?_, hfencing, fun _ => hstate⟩
      rw [hid]
      exact AList.lookup_insert _
    · exact .inl hb
  fresh h i hi := by
    rcases (AList.mem_insert _).mp hi with rfl | hi
    · exact h _ (AList.lookup_isSome.mp (by rw [hj]; rfl))
    · exact h i hi

/-- **A claim** leases the selected jobs, each under a new token. -/
theorem lease_change {now : Timestamp} {owner : String} {leaseMs : ℕ} {selected : List (ℕ × Job)}
    {s t : Store} {ls : List Lease} (h : lease now owner leaseMs selected s = .ok (ls, t))
    (hmem : ∀ x ∈ selected, s.jobs.lookup x.1 = some x.2)
    (hdue : ∀ x ∈ selected, x.2.state = .pending ∨ x.2.state = .retry)
    (hnodup : (selected.map Prod.fst).Nodup) : Change s t (ls.map fun l => (l, owner)) := by
  simp only [lease, bind_eq_ok, pure_eq_ok, Except.ok.injEq, Prod.mk.injEq] at h
  obtain ⟨attempts, hattempts, rfl, rfl⟩ := h
  refine ⟨rowStep_update hmem fun x hx => .claimed _ _ (hdue x hx), ?_, ?_, ?_, ?_,
    fresh_update⟩
  · simp only [List.mem_map]
    rintro _ ⟨_, ⟨x, hx, rfl⟩, rfl⟩
    exact ⟨x.2, hmem x hx, rfl, lookup_update_mem hmem hx⟩
  · rw [List.map_map, List.map_map]
    exact hnodup
  · intro id j hj _
    rcases leased_update hj with hold | ⟨x, hx, rfl⟩
    · exact .inl hold
    · exact .inr ⟨_, List.mem_map_of_mem (List.mem_map_of_mem hx), rfl⟩
  · intro a ha
    rcases (mem_insertAttempts hattempts).mp ha with ha | ha
    · simp only [List.mem_map] at ha
      obtain ⟨_, ⟨x, hx, rfl⟩, rfl⟩ := ha
      exact .inr ⟨_, lookup_update_mem hmem hx, rfl, fun hne => absurd rfl hne⟩
    · exact .inl ha

theorem claimJobs_change {now : Timestamp} {locked : List ℕ} {queue : QueueName} {owner : String}
    {limit leaseMs generation : ℕ} {mode : ExecutionMode} {s t : Store} {ls : List Lease}
    (h : claimJobs now locked queue owner limit leaseMs generation mode s = .ok (ls, t)) :
    Change s t (ls.map fun l => (l, owner)) := by
  simp only [claimJobs, bind_eq_ok] at h
  obtain ⟨_, -, _, -, _, -, _, -, h⟩ := h
  split_ifs at h
  · exact lease_change h (fun x hx => (mem_select hx).1)
      (fun x hx => (of_decide_eq_true (mem_select hx).2).2.1) (nodup_select ..)
  · obtain ⟨rfl, rfl⟩ := Prod.mk.inj (Except.ok.inj h)
    exact .same rfl rfl rfl

theorem claimJobByOperation_change {now : Timestamp} {queue : QueueName}
    {operationId owner : String} {leaseMs generation : ℕ} {s t : Store} {ls : List Lease}
    (h : claimJobByOperation now queue operationId owner leaseMs generation s = .ok (ls, t)) :
    Change s t (ls.map fun l => (l, owner)) := by
  simp only [claimJobByOperation, bind_eq_ok] at h
  obtain ⟨_, -, _, -, _, -, _, -, h⟩ := h
  split_ifs at h
  · exact lease_change h (fun x hx => (mem_select hx).1)
      (fun x hx => (of_decide_eq_true (mem_select hx).2).2.2.1) (nodup_select ..)
  · obtain ⟨rfl, rfl⟩ := Prod.mk.inj (Except.ok.inj h)
    exact .same rfl rfl rfl

/-- **A completion** finds the job leased to the owner, under the token of the lease, and the
lease not run out; or it changes nothing. -/
theorem completeJob_cases {now : Timestamp} {l : Lease} {owner digest : String} {s t : Store}
    {done : Bool} (h : completeJob now l owner digest s = .ok (done, t)) :
    (done = false ∧ t = s) ∨ (done = true ∧ ∃ j, s.jobs.lookup l.id = some j ∧
      j.HeldBy owner l ∧ j.Unexpired now ∧ t = { s with
        jobs := s.jobs.insert l.id (j.complete digest)
        attempts := l.attemptRow .succeeded none :: s.attempts }) := by
  simp only [completeJob, bind_eq_ok] at h
  obtain ⟨_, -, _, -, h⟩ := h
  split at h
  · obtain ⟨rfl, rfl⟩ := Prod.mk.inj (Except.ok.inj h)
    exact .inl ⟨rfl, rfl⟩
  · rename_i j hj
    obtain ⟨hlookup, hheld⟩ := Option.filter_eq_some_iff.mp hj
    obtain ⟨hheld, hunexpired⟩ := of_decide_eq_true hheld
    simp only [insertAttempt, bind_eq_ok, revertIf_eq_ok, pure_eq_ok, Except.ok.injEq,
      Prod.mk.injEq] at h
    obtain ⟨_, ⟨_, -, rfl⟩, rfl, rfl⟩ := h
    exact .inr ⟨rfl, j, hlookup, hheld, hunexpired, rfl⟩

/-- **A failure** finds the job leased to the owner, under the token of the lease; or it changes
nothing. -/
theorem failJob_cases {now : Timestamp} {l : Lease} {owner code : String} {s t : Store}
    {outcome : Option FailOutcome} (h : failJob now l owner code s = .ok (outcome, t)) :
    (outcome = none ∧ t = s) ∨ (outcome = some l.failOutcome ∧ ∃ j retryAt,
      s.jobs.lookup l.id = some j ∧ j.HeldBy owner l ∧ t = { s with
        jobs := s.jobs.insert l.id (j.fail l.failOutcome code retryAt)
        attempts := l.attemptRow l.failOutcome.outcome (some code) :: s.attempts }) := by
  simp only [failJob, bind_eq_ok] at h
  obtain ⟨_, -, _, -, delay, -, h⟩ := h
  split at h
  · obtain ⟨rfl, rfl⟩ := Prod.mk.inj (Except.ok.inj h)
    exact .inl ⟨rfl, rfl⟩
  · rename_i j hj
    obtain ⟨hlookup, hheld⟩ := Option.filter_eq_some_iff.mp hj
    simp only [insertAttempt, bind_eq_ok, revertIf_eq_ok, pure_eq_ok, Except.ok.injEq,
      Prod.mk.injEq] at h
    obtain ⟨_, ⟨_, -, rfl⟩, rfl, rfl⟩ := h
    exact .inr ⟨rfl, j, _, hlookup, of_decide_eq_true hheld, rfl⟩

theorem completeJob_change {now : Timestamp} {l : Lease} {owner digest : String} {s t : Store}
    {done : Bool} (h : completeJob now l owner digest s = .ok (done, t)) : Change s t [] := by
  rcases completeJob_cases h with ⟨-, rfl⟩ | ⟨-, j, hj, hheld, -, rfl⟩
  · exact .same rfl rfl rfl
  · refine .write hj (.completed digest hheld.1) ?_ rfl hheld.2.2.1.symm
    rintro ⟨⟩

/-- A lease that was issued tells how many attempts the job has left. -/
theorem failJob_change {now : Timestamp} {l : Lease} {owner code : String} {s : System}
    {t : Store} {outcome : Option FailOutcome} (hinv : Inv s)
    (hl : l ∈ s.issued.map Prod.fst) (h : failJob now l owner code s.store = .ok (outcome, t)) :
    Change s.store t [] := by
  rcases failJob_cases h with ⟨-, rfl⟩ | ⟨-, j, retryAt, hj, hheld, rfl⟩
  · exact .same rfl rfl rfl
  · obtain ⟨x, hx, rfl⟩ := List.mem_map.mp hl
    obtain ⟨j', hj', -, hattempt, hmax, -⟩ := hinv.authentic x hx
    obtain rfl := Option.some.inj (hj.symm.trans hj')
    refine .write hj (.failed code retryAt hheld.1 fun hretry => ?_) ?_ rfl hheld.2.2.1.symm
    · have hlt : ¬ x.1.attempt ≥ x.1.maxAttempts := by
        intro hge
        rw [Lease.failOutcome, if_pos hge] at hretry
        cases hretry
      have hfencing := (hinv.counted _ j hj).fencing_eq
      have heq := hheld.2.2.1
      omega
    · show x.1.failOutcome.state ≠ .leased
      cases x.1.failOutcome <;> rintro ⟨⟩

theorem recoverExpiredLeases_change {now : Timestamp} {locked : List ℕ} {queue : QueueName}
    {limit generation n : ℕ} {s t : Store}
    (h : recoverExpiredLeases now locked queue limit generation s = .ok (n, t)) :
    Change s t [] := by
  simp only [recoverExpiredLeases, bind_eq_ok, pure_eq_ok, Except.ok.injEq, Prod.mk.injEq] at h
  obtain ⟨_, -, _, -, attempts, hattempts, -, rfl⟩ := h
  have hstate : ∀ j : Job, (j.expire now).state ≠ .leased := by
    intro j
    show (if j.attempt ≥ j.maxAttempts then JobState.dead else .retry) ≠ .leased
    split_ifs <;> rintro ⟨⟩
  refine ⟨rowStep_update (fun x hx => (mem_select hx).1)
    fun x hx => .expired now (of_decide_eq_true (mem_select hx).2).2.1, by simp, List.nodup_nil,
    ?_, ?_, fresh_update⟩
  · intro id j hj hleased
    rcases leased_update hj with hold | ⟨x, hx, rfl⟩
    · exact .inl hold
    · rw [Option.mem_def, lookup_update_mem (fun x hx => (mem_select hx).1) hx] at hj
      exact absurd (Option.some.inj hj ▸ hleased) (hstate x.2)
  · intro a ha
    rcases (mem_insertAttempts hattempts).mp ha with ha | ha
    · obtain ⟨x, hx, rfl⟩ := List.mem_map.mp ha
      exact .inr ⟨_, lookup_update_mem (fun x hx => (mem_select hx).1) hx, rfl,
        fun _ => hstate x.2⟩
    · exact .inl ha

theorem enqueue_change {now : Timestamp} {queue : QueueName} {operationId kind payload : String}
    {payloadDigest : Bytes32} {maxAttempts generation id : ℕ} {s t : Store}
    (hfresh : ∀ id ∈ s.jobs, id < s.nextJobId)
    (h : enqueue now queue operationId kind payloadDigest payload maxAttempts generation s
      = .ok (id, t)) : Change s t [] := by
  simp only [enqueue, bind_eq_ok] at h
  obtain ⟨_, -, _, -, h⟩ := h
  split_ifs at h with hmax
  swap
  · cases h
  simp only [bind_eq_ok, pure_eq_ok, Except.ok.injEq, Prod.mk.injEq] at h
  obtain ⟨_, -, _, -, rfl, rfl⟩ := h
  have hnew : s.jobs.lookup s.nextJobId = none :=
    AList.lookup_eq_none.mpr fun hmem => lt_irrefl _ (hfresh _ hmem)
  refine ⟨fun i => ?_, by simp, List.nodup_nil, fun i j hj hleased => ?_, fun a ha => .inl ha,
    fun _ i hi => ?_⟩
  · dsimp only
    rcases eq_or_ne i s.nextJobId with rfl | hne
    · rw [AList.lookup_insert, hnew]
      exact .enqueued rfl rfl rfl
    · rw [AList.lookup_insert_ne hne]
      exact .same _
  · rw [Option.mem_def] at hj
    dsimp only at hj
    rcases eq_or_ne i s.nextJobId with rfl | hne
    · rw [AList.lookup_insert] at hj
      obtain rfl := Option.some.inj hj
      cases hleased
    · rw [AList.lookup_insert_ne hne] at hj
      exact .inl hj
  · rcases (AList.mem_insert _).mp hi with rfl | hi
    · exact Nat.lt_succ_self _
    · exact Nat.lt_succ_of_lt (hfresh i hi)

/-! ### Runs -/

theorem map_eq_ok {α β : Type} {f : α → β} {x : Except JsError α} {b : β} :
    x.map f = .ok b ↔ ∃ a, x = .ok a ∧ f a = b := by
  cases x <;> simp [Except.map]

/-- What a claim returns is issued to who has made it. -/
theorem flatMap_claimer (ls : List Lease) (owner : String) :
    (ls.flatMap fun l => (some owner).toList.map fun owner => (l, owner))
      = ls.map fun l => (l, owner) := by
  simp [← List.map_eq_flatMap]

theorem exec_change {s : System} {c : Call} {r : Reply} {t : Store} (hinv : Inv s)
    (hl : ∀ l ∈ c.lease?, l ∈ s.issued.map Prod.fst) (h : s.store.exec c = .ok (r, t)) :
    Change s.store t (c.issues r) := by
  cases c <;> simp only [Store.exec, map_eq_ok, Prod.exists, Prod.map_apply, Prod.mk.injEq, id] at h
  case enqueue =>
    obtain ⟨_, _, h, rfl, rfl⟩ := h
    exact enqueue_change hinv.fresh h
  case claimJobByOperation =>
    obtain ⟨ls, _, h, rfl, rfl⟩ := h
    rw [Call.issues, Call.claimer?, flatMap_claimer]
    exact claimJobByOperation_change h
  case claimJobs =>
    obtain ⟨ls, _, h, rfl, rfl⟩ := h
    rw [Call.issues, Call.claimer?, flatMap_claimer]
    exact claimJobs_change h
  case completeJob =>
    obtain ⟨_, _, h, rfl, rfl⟩ := h
    exact completeJob_change h
  case failJob =>
    obtain ⟨_, _, h, rfl, rfl⟩ := h
    exact failJob_change hinv (hl _ rfl) h
  case recoverExpiredLeases =>
    obtain ⟨_, _, h, rfl, rfl⟩ := h
    exact recoverExpiredLeases_change h
  case advanceQueueGeneration =>
    obtain ⟨_, h, rfl, rfl⟩ := h
    simp only [advanceQueueGeneration, bind_eq_ok, pure_eq_ok, Except.ok.injEq] at h
    obtain ⟨_, -, _, -, _, -, rfl⟩ := h
    exact .same rfl rfl rfl
  case setQueueExecutionMode =>
    obtain ⟨_, h, rfl, rfl⟩ := h
    simp only [setQueueExecutionMode, bind_eq_ok, pure_eq_ok, Except.ok.injEq] at h
    obtain ⟨_, -, _, -, rfl⟩ := h
    exact .same rfl rfl rfl

theorem Inv.step {s t : System} {e : Call × Reply} (h : Inv s) (hstep : Step s e t) : Inv t := by
  cases hstep with
  | returned hl hexec => exact h.change (exec_change h hl hexec)
  | thrown => exact h

theorem Step.row {s t : System} {e : Call × Reply} (hinv : Inv s) (h : Step s e t) (id : ℕ) :
    RowStep (s.store.jobs.lookup id) (t.store.jobs.lookup id) := by
  cases h with
  | returned hl hexec => exact (exec_change hinv hl hexec).row id
  | thrown => exact .same _

/-- A completion that succeeds: what it has found, and what it leaves. -/
theorem Step.completed {s t : System} {now : Timestamp} {l : Lease} {owner digest : String}
    (h : Step s (.completeJob now l owner digest, .completed true) t) :
    ∃ j, s.store.jobs.lookup l.id = some j ∧ j.HeldBy owner l ∧ j.Unexpired now ∧
      t.store.jobs.lookup l.id = some (j.complete digest) := by
  cases h with
  | returned hl hexec =>
    simp only [Store.exec, map_eq_ok, Prod.exists, Prod.map_apply, Prod.mk.injEq,
      Reply.completed.injEq, id] at hexec
    obtain ⟨_, _, hexec, rfl, rfl⟩ := hexec
    rcases completeJob_cases hexec with ⟨⟨⟩, -⟩ | ⟨-, j, hj, hheld, hunexpired, rfl⟩
    exact ⟨j, hj, hheld, hunexpired, AList.lookup_insert _⟩

/-- **A call with a stale token changes nothing.** -/
theorem Step.stale {s t : System} {c : Call} {r : Reply} {l : Lease} (h : Step s (c, r) t)
    (hl : l ∈ c.lease?) (hstale : ¬ Current s l) : t = s := by
  cases h with
  | thrown => rfl
  | returned _ hexec =>
    have hnot : ∀ {j owner}, s.store.jobs.lookup l.id = some j → ¬ j.HeldBy owner l :=
      fun hj hheld => hstale ⟨_, hj, hheld.1, hheld.2.2.1⟩
    cases c with
    | completeJob now l' owner digest =>
      obtain rfl : l' = l := Option.some.inj hl
      simp only [Store.exec, map_eq_ok, Prod.exists, Prod.map_apply, Prod.mk.injEq, id] at hexec
      obtain ⟨_, _, hexec, rfl, rfl⟩ := hexec
      rcases completeJob_cases hexec with ⟨-, rfl⟩ | ⟨-, j, hj, hheld, -⟩
      · rfl
      · exact absurd hheld (hnot hj)
    | failJob now l' owner code =>
      obtain rfl : l' = l := Option.some.inj hl
      simp only [Store.exec, map_eq_ok, Prod.exists, Prod.map_apply, Prod.mk.injEq, id] at hexec
      obtain ⟨_, _, hexec, rfl, rfl⟩ := hexec
      rcases failJob_cases hexec with ⟨-, rfl⟩ | ⟨-, j, _, hj, hheld, -⟩
      · rfl
      · exact absurd hheld (hnot hj)
    | _ => cases hl

/-- A token that is stale stays so. -/
theorem Step.stale_stays {s t : System} {e : Call × Reply} {x : Lease × String} (hinv : Inv s)
    (h : Step s e t) (hx : x ∈ s.issued) (hstale : ¬ Current s x.1) : ¬ Current t x.1 := by
  rintro ⟨j', hj', hleased, hfencing⟩
  obtain ⟨j, hj, hle, -⟩ := hinv.authentic x hx
  have hrow := h.row hinv x.1.id
  rw [Option.mem_def.mp hj, Option.mem_def.mp hj'] at hrow
  rcases hrow.leased hleased with hsame | ⟨j₁, owner, e, hj₁, rfl⟩
  · obtain rfl := Option.some.inj hsame
    exact hstale ⟨j, hj, hleased, hfencing⟩
  · obtain rfl := Option.some.inj hj₁
    have : j.fencing + 1 = x.1.fencing := hfencing
    omega

theorem Step.issued {s t : System} {e : Call × Reply} (h : Step s e t) :
    ∀ x ∈ s.issued, x ∈ t.issued := by
  cases h with
  | returned => exact fun x hx => List.mem_append_right _ hx
  | thrown => exact fun x hx => hx

theorem Inv.run {s t : System} {es : List (Call × Reply)} (hinv : Inv s) (h : Run Step s es t) :
    Inv t :=
  h.invariant (fun _ _ _ hy hstep => hy.step hstep) hinv

/-- **The holder of the current token can complete the job** as long as its lease lasts: no
constraint of the tables is in its way. -/
theorem Inv.completes {s : System} (hinv : Inv s) {x : Lease × String} {now : Timestamp}
    {digest : String} (hx : x ∈ s.issued) (hcurrent : Current s x.1)
    (hnow : now < x.1.leaseExpiresAt) (howner : isToken x.2 = true)
    (hdigest : isDigest digest = true) :
    ∃ t, completeJob now x.1 x.2 digest s.store = .ok (true, t) := by
  obtain ⟨j, hj, hleased, hfencing⟩ := hcurrent
  obtain ⟨y, hy, hid, hyfencing, hyowner, hyexpires⟩ := hinv.holder _ j hj hleased
  obtain rfl := hinv.unique y hy x hx hid (hyfencing.trans hfencing)
  obtain ⟨j', hj', -, -, -, hgeneration⟩ := hinv.authentic y hy
  obtain rfl := Option.some.inj (hj.symm.trans hj')
  have hheld : j.HeldBy y.2 y.1 ∧ j.Unexpired now :=
    ⟨⟨hleased, hyowner, hfencing, hgeneration.symm⟩, _, hyexpires, hnow⟩
  have hnew : ¬ ∃ b ∈ s.store.attempts, b.jobId = y.1.id ∧ b.fencing = y.1.fencing ∧
      b.outcome = .succeeded := by
    rintro ⟨b, hb, hbid, hbfencing, houtcome⟩
    obtain ⟨j', hj', -, hstate⟩ := hinv.written b hb
    rw [hbid] at hj'
    obtain rfl := Option.some.inj (hj.symm.trans hj')
    exact hstate (hbfencing.trans hfencing.symm) (by rw [houtcome]; rintro ⟨⟩) hleased
  rw [completeJob, assertToken, throwIf, revertIf_neg (by simp [howner]), ok_bind, throwIf,
    revertIf_neg (by simp [hdigest]), ok_bind, Option.mem_def.mp hj, Option.filter_some,
    if_pos (decide_eq_true hheld)]
  dsimp only
  rw [insertAttempt, throwIf, revertIf_neg (by exact hnew), ok_bind]
  exact ⟨_, rfl⟩

/-! ### Fencing -/

/-- The call completes the job. -/
def Completes (id : ℕ) : Call × Reply → Prop
  | (.completeJob _ lease _ _, .completed true) => lease.id = id
  | _ => False

instance (id : ℕ) : DecidablePred (Completes id) := fun e => by
  unfold Completes
  split <;> infer_instance

/-- **What fencing is for**, in a state and the history of calls that has led to it. -/
structure Fenced (es : List (Call × Reply)) (s : System) : Prop where
  /-- A job is completed once at most. -/
  completed_once : ∀ id, es.countP (fun e => decide (Completes id e)) ≤ 1
  /-- Who completes a job holds its current token and a lease that has not run out: the lease was
  issued to this worker, and it is the last one of the job. -/
  completed_by_holder : ∀ now lease owner digest t,
    Step s (.completeJob now lease owner digest, .completed true) t →
    Current s lease ∧ now < lease.leaseExpiresAt ∧ (lease, owner) ∈ s.issued ∧
      ∀ x ∈ s.issued, x.1.id = lease.id → x ≠ (lease, owner) → x.1.fencing < lease.fencing
  /-- A call with a stale token changes nothing. -/
  stale_unchanged : ∀ c r t, ∀ lease ∈ c.lease?, Step s (c, r) t → ¬ Current s lease → t = s
  /-- A stale token does not become current again. -/
  stale_forever : ∀ x ∈ s.issued, ¬ Current s x.1 → ∀ fs t, Run Step s fs t → ¬ Current t x.1
  attempt_le : ∀ id, ∀ j ∈ s.store.jobs.lookup id, j.attempt ≤ j.maxAttempts
  /-- A job that has succeeded or is dead stays as it is. -/
  terminal : ∀ id, ∀ j ∈ s.store.jobs.lookup id, j.state = .succeeded ∨ j.state = .dead →
    ∀ fs t, Run Step s fs t → t.store.jobs.lookup id = some j

/-- A job that is over stays as it is, whatever is called. -/
theorem Inv.terminal {s t : System} {fs : List (Call × Reply)} (hinv : Inv s)
    (h : Run Step s fs t) {id : ℕ} {j : Job} (hj : s.store.jobs.lookup id = some j)
    (hterminal : j.Terminal) : t.store.jobs.lookup id = some j := by
  induction h with
  | refl => exact hj
  | snoc hrun hlast ih =>
    have hrow := hlast.row (hinv.run hrun) id
    rw [ih] at hrow
    exact hrow.terminal hterminal

/-- A token that is stale stays so, whatever is called. -/
theorem Inv.stale_stays {s t : System} {fs : List (Call × Reply)} (hinv : Inv s)
    (h : Run Step s fs t) {x : Lease × String} (hx : x ∈ s.issued) (hstale : ¬ Current s x.1) :
    x ∈ t.issued ∧ ¬ Current t x.1 := by
  induction h with
  | refl => exact ⟨hx, hstale⟩
  | snoc hrun hlast ih =>
    exact ⟨hlast.issued x ih.1, hlast.stale_stays (hinv.run hrun) ih.1 ih.2⟩

/-- A job is completed once at most: after that it has succeeded, and stays so. -/
theorem completed_once {s : System} {es : List (Call × Reply)} (h : Run Step .empty es s)
    (id : ℕ) : es.countP (fun e => decide (Completes id e)) = 0 ∨
      (es.countP (fun e => decide (Completes id e)) = 1 ∧
        ∃ j ∈ s.store.jobs.lookup id, j.state = .succeeded) := by
  induction h with
  | refl => exact .inl rfl
  | @snoc t u es e hrun hlast ih =>
    have hinv := inv_empty.run hrun
    rw [List.countP_append, List.countP_singleton]
    by_cases hcompletes : Completes id e
    · -- the job was leased, so that no call had completed it
      obtain ⟨now, l, owner, digest, rfl, rfl⟩ : ∃ now l owner digest,
          e = (.completeJob now l owner digest, .completed true) ∧ l.id = id := by
        unfold Completes at hcompletes
        split at hcompletes
        · exact ⟨_, _, _, _, rfl, hcompletes⟩
        · cases hcompletes
      obtain ⟨j, hj, hheld, -, hu⟩ := hlast.completed
      rcases ih with hzero | ⟨-, j', hj', hstate⟩
      · refine .inr ⟨?_, _, hu, rfl⟩
        rw [hzero, decide_eq_true hcompletes]
        rfl
      · obtain rfl := Option.some.inj (hj.symm.trans hj')
        cases hheld.1.symm.trans hstate
    · rw [decide_eq_false hcompletes]
      refine ih.imp (fun hzero => by simpa using hzero) fun ⟨hone, j, hj, hstate⟩ => ?_
      refine ⟨by simpa using hone, j, ?_, hstate⟩
      have hrow := hlast.row hinv id
      rw [Option.mem_def.mp hj] at hrow
      exact hrow.terminal (.inl hstate)

/-- **The queue is fenced**, after every run of any workers. -/
theorem fenced {s : System} {es : List (Call × Reply)} (h : Run Step .empty es s) :
    Fenced es s := by
  have hinv := inv_empty.run h
  refine ⟨fun id => ?_, ?_, fun c r t l hl hstep => hstep.stale hl,
    fun x hx hstale fs t hrun => (hinv.stale_stays hrun hx hstale).2,
    fun id j hj => (hinv.counted id j hj).attempt_le,
    fun id j hj hstate fs t hrun => hinv.terminal hrun hj hstate⟩
  · rcases completed_once h id with hzero | ⟨hone, -⟩ <;> omega
  · intro now l owner digest t hstep
    obtain ⟨j, hj, ⟨hleased, howner, hfencing, -⟩, ⟨e, he, hlt⟩, -⟩ := hstep.completed
    obtain ⟨x, hx, hid, hxfencing, hxowner, hxexpires⟩ := hinv.holder _ j hj hleased
    -- the lease of the call was issued, and no other has this token
    have hl : l ∈ s.issued.map Prod.fst := by
      cases hstep with
      | returned hl => exact hl l rfl
    obtain ⟨y, hy, rfl⟩ := List.mem_map.mp hl
    obtain rfl := hinv.unique x hx y hy hid (hxfencing.trans hfencing)
    obtain rfl := Option.some.inj (howner.symm.trans hxowner)
    obtain rfl := Option.some.inj (he.symm.trans hxexpires)
    refine ⟨⟨j, hj, hleased, hfencing⟩, hlt, hx, fun z hz hzid hne => ?_⟩
    obtain ⟨j', hj', hle, -⟩ := hinv.authentic z hz
    rw [hzid] at hj'
    obtain rfl := Option.some.inj (hj.symm.trans hj')
    refine lt_of_le_of_ne (hle.trans hfencing.le) fun heq => hne ?_
    exact hinv.unique z hz x hx hzid heq

/-- Whoever completes a job under a lease that was issued to it holds the current token, and
the lease has not run out. -/
theorem Inv.current_of_completes {s : System} (hinv : Inv s) {x : Lease × String} {now : Timestamp}
    {digest : String} {t : Store} (hx : x ∈ s.issued)
    (h : completeJob now x.1 x.2 digest s.store = .ok (true, t)) :
    Current s x.1 ∧ now < x.1.leaseExpiresAt := by
  rcases completeJob_cases h with ⟨hfalse, -⟩ | ⟨-, j, hj, ⟨hleased, -, hfencing, -⟩, ⟨e, he, hlt⟩, -⟩
  · cases hfalse
  · obtain ⟨y, hy, hid, hyfencing, -, hyexpires⟩ := hinv.holder _ j hj hleased
    obtain rfl := hinv.unique y hy x hx hid (hyfencing.trans hfencing)
    obtain rfl := Option.some.inj (he.symm.trans hyexpires)
    exact ⟨⟨j, hj, hleased, hfencing⟩, hlt⟩

/-- **Who can complete a job.** After every run, a worker that asks to complete a job under a
lease that was issued to it succeeds exactly if its token is the current one and the lease has
not run out; otherwise it is told so, and nothing changes. -/
theorem completes_iff {s : System} {es : List (Call × Reply)} (h : Run Step .empty es s)
    {x : Lease × String} {now : Timestamp} {digest : String} (hx : x ∈ s.issued)
    (howner : isToken x.2 = true) (hdigest : isDigest digest = true) :
    ((∃ t, completeJob now x.1 x.2 digest s.store = .ok (true, t)) ↔
      Current s x.1 ∧ now < x.1.leaseExpiresAt) ∧
    (¬ (Current s x.1 ∧ now < x.1.leaseExpiresAt) →
      completeJob now x.1 x.2 digest s.store = .ok (false, s.store)) := by
  have hinv := inv_empty.run h
  have hholds : ∀ {t}, completeJob now x.1 x.2 digest s.store = .ok (true, t) →
      Current s x.1 ∧ now < x.1.leaseExpiresAt := fun h => hinv.current_of_completes hx h
  have hiff : (∃ t, completeJob now x.1 x.2 digest s.store = .ok (true, t)) ↔
      Current s x.1 ∧ now < x.1.leaseExpiresAt :=
    ⟨fun h => hholds h.choose_spec, fun h => hinv.completes hx h.1 h.2 howner hdigest⟩
  refine ⟨hiff, fun hnot => ?_⟩
  -- the two checks of the arguments pass, so only the row can be missing
  have hrow : (s.store.jobs.lookup x.1.id).filter
      (fun j => decide (j.HeldBy x.2 x.1 ∧ j.Unexpired now)) = none := by
    rw [Option.filter_eq_none_iff]
    intro j hj hheld
    obtain ⟨⟨hleased, -, hfencing, -⟩, e, he, hlt⟩ := of_decide_eq_true hheld
    obtain ⟨y, hy, hid, hyfencing, -, hyexpires⟩ := hinv.holder _ j hj hleased
    obtain rfl := hinv.unique y hy x hx hid (hyfencing.trans hfencing)
    obtain rfl := Option.some.inj (he.symm.trans hyexpires)
    exact hnot ⟨⟨j, hj, hleased, hfencing⟩, hlt⟩
  rw [completeJob, assertToken, throwIf, revertIf_neg (by simp [howner]), ok_bind, throwIf,
    revertIf_neg (by simp [hdigest]), ok_bind, hrow]
  rfl

/-! ### A run -/

section Sample

/-- What a call returns, and what it leaves. -/
def System.call (s : System) (c : Call) : (Call × Reply) × System :=
  match s.store.exec c with
  | .ok (r, t) => ((c, r), ⟨t, c.issues r ++ s.issued⟩)
  | .error e => ((c, .thrown e), s)

theorem Step.of_call {s : System} {c : Call} (hl : ∀ l ∈ c.lease?, l ∈ s.issued.map Prod.fst) :
    Step s (s.call c).1 (s.call c).2 := by
  unfold System.call
  split
  · exact .returned hl ‹_›
  · exact .thrown hl ‹_›

/-- Calls one after the other, each with a lease that was issued. -/
def System.calls (s : System) : List Call → Option (List (Call × Reply) × System)
  | [] => some ([], s)
  | c :: cs => (s.calls cs).bind fun (es, t) =>
      if ∀ l ∈ c.lease?, l ∈ t.issued.map Prod.fst then some (es ++ [(t.call c).1], (t.call c).2)
      else none

theorem run_of_calls {s : System} {cs : List Call} :
    ∀ x ∈ s.calls cs, Run Step s x.1 x.2 := by
  induction cs with
  | nil =>
    rintro _ ⟨⟩
    exact .refl s
  | cons c cs ih =>
    intro x hx
    obtain ⟨⟨es, t⟩, ht, hx⟩ := Option.bind_eq_some_iff.mp hx
    dsimp only at hx
    split_ifs at hx with hl
    obtain rfl := Option.some.inj hx
    exact (ih _ ht).snoc (.of_call hl)

/-- The lease of a job, by the number of its attempt. -/
def sampleLease (attempt : ℕ) (leaseExpiresAt : Timestamp) : Lease :=
  ⟨1, "op", .chain, "scan", "{}", 0, 0, attempt, attempt, 2, leaseExpiresAt⟩

/-- The digest of a result. -/
def sampleDigest : String := "0x" ++ String.ofList (List.replicate 64 'a')

/-- The worker `a` claims a job and stalls; its lease runs out and is recovered, and the worker
`b` claims the job; then both complete it. The last call comes first. -/
def sampleCalls : List Call :=
  [.completeJob 2000003 (sampleLease 2 3000001) "b" sampleDigest,
    .completeJob 2000002 (sampleLease 1 1000010) "a" sampleDigest,
    .claimJobs 2000001 [] .chain "b" 1 1000 0 .qstash,
    .recoverExpiredLeases 2000000 [] .chain 100 0,
    .claimJobs 10 [] .chain "a" 1 1000 0 .qstash,
    .enqueue 0 .chain "op" "scan" 0 "{}" 2 0]

theorem sampleCalls_replies :
    (System.empty.calls sampleCalls).map (fun x => x.1.map Prod.snd)
      = some [.enqueued 1, .leases [sampleLease 1 1000010], .recovered 1,
          .leases [sampleLease 2 3000001], .completed false, .completed true] := by
  decide +kernel

/-- The stale worker is refused, the other one is not. -/
theorem fenced_sample : ∃ es s, es.map Prod.snd = [.enqueued 1, .leases [sampleLease 1 1000010],
    .recovered 1, .leases [sampleLease 2 3000001], .completed false, .completed true] ∧
    Fenced es s := by
  obtain ⟨⟨es, s⟩, hx, hreplies⟩ := Option.map_eq_some_iff.mp sampleCalls_replies
  exact ⟨es, s, hreplies, fenced (run_of_calls _ hx)⟩

/-- The state before the last call. -/
def sampleBefore : List (Call × Reply) × System :=
  (System.empty.calls (sampleCalls.drop 1)).get (by decide +kernel)

/-- There the worker `b` can complete the job until its lease runs out, and the worker `a`
cannot. -/
theorem completes_iff_sample :
    (∃ t, completeJob 2000003 (sampleLease 2 3000001) "b" sampleDigest sampleBefore.2.store
      = .ok (true, t)) ∧
    completeJob 3000001 (sampleLease 2 3000001) "b" sampleDigest sampleBefore.2.store
      = .ok (false, sampleBefore.2.store) := by
  have hrun := run_of_calls sampleBefore (Option.get_mem _)
  have hissued : (sampleLease 2 3000001, "b") ∈ sampleBefore.2.issued := by decide +kernel
  have howner : isToken "b" = true := by decide +kernel
  have hdigest : isDigest sampleDigest = true := by decide +kernel
  have hcurrent : Current sampleBefore.2 (sampleLease 2 3000001) :=
    ⟨(sampleBefore.2.store.jobs.lookup 1).get (by decide +kernel), Option.get_mem _,
      by decide +kernel, by decide +kernel⟩
  exact ⟨(completes_iff hrun hissued howner hdigest).1.mpr ⟨hcurrent, by decide⟩,
    (completes_iff hrun hissued howner hdigest).2 fun h => absurd h.2 (by decide)⟩

end Sample

end JobQueue

end Backend

end TickerGarden
