import TickerGarden.Backend.MaintenanceEffects

/-!
# The tables of maintenance transactions over whole runs

What every reachable database satisfies, whoever calls what in which order and wherever a process
stops, in three parts, each about some of the tables:

* `Fenced`: the leases of a job are numbered, its reservation is of the latest one, and the nonces
  that are reserved for an account are different;
* `Traced`: an intent is of the job's reservation, a signature of the job's intent, a submission of
  the job's signature;
* `Budgeted`: what an account has allocated is the sum of its charges, one for each submission.

`Commits.sound` is the step and `sound_of_reachable` the run. `Kept` says what a transaction never
takes back: a reservation, an intent and a signature are fixed once they are made.
-/

namespace TickerGarden

open Checked Relation Table

namespace Backend

namespace Maintenance

variable {platform : Platform} {chainId : ℕ} {owner : String} {token : Bytes32}
  {checked : List Time} {s s' : Store}

/-! ### Leases and nonces -/

/-- The leases of a job, in a table. -/
def leasesIn (leases : Table Bytes32 (List Lease)) (key : Bytes32) : List Lease :=
  (leases.lookup key).getD []

variable (chainId) in
/-- **One generation and one job for each nonce.** -/
structure Fenced (leases : Table Bytes32 (List Lease)) (roles : Table Account Role)
    (nonceAccounts : Table Account ℕ) (reservations : Table Bytes32 Reservation) : Prop where
  descending : ∀ key, (leasesIn leases key).Pairwise fun x y => y.generation < x.generation
  tokens : ∀ key, ((leasesIn leases key).map Lease.token).Nodup
  reserved : Every (fun key r => r.jobKey = key ∧ r.chainId = chainId ∧
    (∃ l ∈ (leasesIn leases key).head?, l.generation = r.generation) ∧
    roles.lookup r.account = some .maintenance ∧
    ∃ next ∈ nonceAccounts.lookup r.account, r.nonce < next) reservations
  /-- A nonce of an account is reserved for one job. -/
  unique : ∀ key key' r r', reservations.lookup key = some r → reservations.lookup key' = some r' →
    r.account = r'.account → r.nonce = r'.nonce → key = key'

namespace Fenced

variable {leases : Table Bytes32 (List Lease)} {roles : Table Account Role}
  {nonceAccounts : Table Account ℕ} {reservations : Table Bytes32 Reservation}

theorem leasesIn_insert (leases : Table Bytes32 (List Lease)) (key j : Bytes32) (ls : List Lease) :
    leasesIn (leases.insert key ls) j = if j = key then ls else leasesIn leases j := by
  rw [leasesIn]
  rcases eq_or_ne j key with rfl | hne
  · rw [AList.lookup_insert, if_pos rfl, Option.getD_some]
  · rw [AList.lookup_insert_ne hne, if_neg hne, leasesIn]

/-- **A lease is issued** for a job without a nonce. -/
theorem issue {key : Bytes32} {l : Lease} (h : Fenced chainId leases roles nonceAccounts reservations)
    (hnone : reservations.lookup key = none)
    (hnew : ∀ x ∈ leasesIn leases key, x.token ≠ l.token)
    (hgeneration : l.generation = (leasesIn leases key).head?.elim 0 Lease.generation + 1) :
    Fenced chainId (leases.insert key (l :: leasesIn leases key)) roles nonceAccounts
      reservations where
  descending j := by
    rw [leasesIn_insert]
    split
    · refine List.pairwise_cons.mpr ⟨fun x hx => ?_, h.descending key⟩
      have hdescending := h.descending key
      cases hls : leasesIn leases key with
      | nil =>
        rw [hls] at hx
        cases hx
      | cons head tail =>
        rw [hls] at hx hgeneration hdescending
        rw [hgeneration]
        rcases List.mem_cons.mp hx with rfl | htail
        · exact Nat.lt_succ_self _
        · exact Nat.lt_succ_of_lt ((List.pairwise_cons.mp hdescending).1 x htail)
    · exact h.descending j
  tokens j := by
    rw [leasesIn_insert]
    split
    · refine List.nodup_cons.mpr ⟨fun hmem => ?_, h.tokens key⟩
      obtain ⟨x, hx, htoken⟩ := List.mem_map.mp hmem
      exact hnew x hx htoken
    · exact h.tokens j
  reserved := by
    intro j r hr
    obtain ⟨hkey, hchain, hlease, hrest⟩ := h.reserved j r hr
    refine ⟨hkey, hchain, ?_, hrest⟩
    rw [leasesIn_insert, if_neg]
    · exact hlease
    · rintro rfl
      rw [hnone] at hr
      cases hr
  unique := h.unique

/-- **The latest lease is changed**, but for its generation and its token. -/
theorem extend {key : Bytes32} {l l' : Lease}
    (h : Fenced chainId leases roles nonceAccounts reservations)
    (hlatest : (leasesIn leases key).head? = some l) (hgeneration : l'.generation = l.generation)
    (htoken : l'.token = l.token) :
    Fenced chainId (leases.insert key (l' :: (leasesIn leases key).tail)) roles nonceAccounts
      reservations := by
  obtain ⟨tail, hls⟩ := List.head?_eq_some_iff.mp hlatest
  have hdescending := h.descending key
  have htokens := h.tokens key
  rw [hls] at hdescending htokens
  refine ⟨fun j => ?_, fun j => ?_, fun j r hr => ?_, h.unique⟩
  · rw [leasesIn_insert, hls]
    split
    · rw [List.tail_cons, List.pairwise_cons, hgeneration]
      exact List.pairwise_cons.mp hdescending
    · exact h.descending j
  · rw [leasesIn_insert, hls]
    split
    · rw [List.tail_cons, List.map_cons, htoken]
      exact htokens
    · exact h.tokens j
  · obtain ⟨hkey, hchain, ⟨x, hx, hsame⟩, hrest⟩ := h.reserved j r hr
    refine ⟨hkey, hchain, ?_, hrest⟩
    rw [leasesIn_insert]
    split
    · rename_i hj
      rw [hj, hlatest] at hx
      cases hx
      exact ⟨l', rfl, hgeneration.trans hsame⟩
    · exact ⟨x, hx, hsame⟩

/-- **An account that is another role's, or nobody's, is claimed**: no nonce of it is reserved. -/
theorem claim {a : Account} (h : Fenced chainId leases roles nonceAccounts reservations)
    (hrole : ∀ role ∈ roles.lookup a, role = .settlement) :
    Fenced chainId leases (roles.insert a .settlement) nonceAccounts reservations where
  descending := h.descending
  tokens := h.tokens
  reserved := by
    intro j r hr
    obtain ⟨hkey, hchain, hlease, hmaintenance, hnext⟩ := h.reserved j r hr
    have hne : r.account ≠ a := by
      rintro rfl
      cases hrole _ hmaintenance
    exact ⟨hkey, hchain, hlease, (AList.lookup_insert_ne hne).trans hmaintenance, hnext⟩
  unique := h.unique

/-- **A nonce is reserved**, at or above all that were. -/
theorem reserve {r : Reservation} (h : Fenced chainId leases roles nonceAccounts reservations)
    (hnone : reservations.lookup r.jobKey = none)
    (hlease : ∃ l ∈ (leasesIn leases r.jobKey).head?, l.generation = r.generation)
    (hchain : r.chainId = chainId)
    (hnext : ∀ next ∈ nonceAccounts.lookup r.account, next ≤ r.nonce) :
    Fenced chainId leases (roles.insert r.account .maintenance)
      (nonceAccounts.insert r.account (r.nonce + 1)) (reservations.insert r.jobKey r) := by
  have hbelow : ∀ key x, reservations.lookup key = some x → x.account = r.account →
      x.nonce < r.nonce := by
    intro key x hx haccount
    obtain ⟨-, -, -, -, next, hstored, hlt⟩ := h.reserved key x hx
    exact hlt.trans_le (hnext next (haccount ▸ hstored))
  refine ⟨h.descending, h.tokens, ?_, ?_⟩
  · refine Every.insert ?_ ⟨rfl, hchain, hlease, AList.lookup_insert _, r.nonce + 1,
      AList.lookup_insert _, Nat.lt_succ_self _⟩
    intro key x hx
    obtain ⟨hkey, hon, hof, hrole, next, hstored, hlt⟩ := h.reserved key x hx
    refine ⟨hkey, hon, hof, ?_⟩
    rcases eq_or_ne x.account r.account with haccount | hne
    · rw [haccount, AList.lookup_insert, AList.lookup_insert]
      exact ⟨rfl, r.nonce + 1, rfl, (hbelow key x hx haccount).trans (Nat.lt_succ_self _)⟩
    · rw [AList.lookup_insert_ne hne, AList.lookup_insert_ne hne]
      exact ⟨hrole, next, hstored, hlt⟩
  · intro key key' x x' hx hx' haccount hnonce
    rcases of_lookup_insert hx with ⟨rfl, rfl⟩ | ⟨-, hold⟩ <;>
      rcases of_lookup_insert hx' with ⟨rfl, rfl⟩ | ⟨-, hold'⟩
    · rfl
    · exact absurd hnonce.symm (hbelow key' x' hold' haccount.symm).ne
    · exact absurd hnonce (hbelow key x hold haccount).ne
    · exact h.unique key key' x x' hold hold' haccount hnonce

end Fenced

/-! ### From the reservation to the submission -/

variable (platform) in
/-- **Each stage is of the one before.** -/
structure Traced (reservations : Table Bytes32 Reservation) (intents : Table Bytes32 IntentRecord)
    (signRequests : Table Bytes32 SignRequest) (signed : Table Bytes32 SignedRow)
    (submissions : Table Bytes32 Submission)
    (rebroadcasts : Table (Bytes32 × Bytes32) Rebroadcast) : Prop where
  intended : Every (fun key i => reservations.lookup key = some i.intent.reservation ∧
    i.digest = platform.hash (.intent i.intent) ∧
    i.intent.maximumGasCost = i.intent.call.gas * i.intent.call.maxFeePerGas) intents
  requested : Every (fun key q => ∃ i ∈ intents.lookup key, q.intentDigest = i.digest ∧
    q.generation = i.intent.reservation.generation ∧
    ∀ raw ∈ q.rawTransaction, ∃ tx, validateSigned platform i raw = .ok tx) signRequests
  attached : Every (fun key row => ∃ i ∈ intents.lookup key, row.intentDigest = i.digest ∧
    ∃ tx, validateSigned platform i row.rawTransaction = .ok tx ∧
      tx.transactionHash = row.transactionHash) signed
  submitted : Every (fun key x => x.jobKey = key ∧ ∃ row ∈ signed.lookup key,
    x.intentDigest = row.intentDigest ∧ x.transactionHash = row.transactionHash) submissions
  resent : Every (fun k x => x.jobKey = k.1 ∧ x.attemptId = k.2 ∧
    ∃ y ∈ submissions.lookup k.1, x.transactionHash = y.transactionHash) rebroadcasts

namespace Traced

variable {reservations : Table Bytes32 Reservation} {intents : Table Bytes32 IntentRecord}
  {signRequests : Table Bytes32 SignRequest} {signed : Table Bytes32 SignedRow}
  {submissions : Table Bytes32 Submission} {rebroadcasts : Table (Bytes32 × Bytes32) Rebroadcast}
  {key : Bytes32} {record : IntentRecord}

theorem reserve {r : Reservation} (hnone : reservations.lookup key = none)
    (h : Traced platform reservations intents signRequests signed submissions rebroadcasts) :
    Traced platform (reservations.insert key r) intents signRequests signed submissions
      rebroadcasts where
  intended := h.intended.mono fun _ _ hi => ⟨lookup_insert_of_none hnone hi.1, hi.2⟩
  requested := h.requested
  attached := h.attached
  submitted := h.submitted
  resent := h.resent

theorem intend (hnone : intents.lookup key = none)
    (hreserved : reservations.lookup key = some record.intent.reservation)
    (hdigest : record.digest = platform.hash (.intent record.intent))
    (hcost : record.intent.maximumGasCost
      = record.intent.call.gas * record.intent.call.maxFeePerGas)
    (h : Traced platform reservations intents signRequests signed submissions rebroadcasts) :
    Traced platform reservations (intents.insert key record) signRequests signed submissions
      rebroadcasts where
  intended := h.intended.insert ⟨hreserved, hdigest, hcost⟩
  requested := h.requested.mono fun k q hq => by
    obtain ⟨i, hi, hrest⟩ := hq
    exact ⟨i, lookup_insert_of_none hnone hi, hrest⟩
  attached := h.attached.mono fun k row hrow => by
    obtain ⟨i, hi, hrest⟩ := hrow
    exact ⟨i, lookup_insert_of_none hnone hi, hrest⟩
  submitted := h.submitted
  resent := h.resent

theorem attach {raw : Hex} {tx : SignedTransaction} (hnone : signed.lookup key = none)
    (hi : intents.lookup key = some record) (hvalid : validateSigned platform record raw = .ok tx)
    (h : Traced platform reservations intents signRequests signed submissions rebroadcasts) :
    Traced platform reservations intents signRequests
      (signed.insert key ⟨record.digest, tx.transactionHash, raw⟩) submissions rebroadcasts where
  intended := h.intended
  requested := h.requested
  attached := h.attached.insert ⟨record, hi, rfl, tx, hvalid, rfl⟩
  submitted := h.submitted.mono fun k x hx => by
    obtain ⟨hkey, row, hrow, hrest⟩ := hx
    exact ⟨hkey, row, lookup_insert_of_none hnone hrow, hrest⟩
  resent := h.resent

theorem request (hi : intents.lookup key = some record)
    (h : Traced platform reservations intents signRequests signed submissions rebroadcasts) :
    Traced platform reservations intents (signRequests.insert key
      ⟨record.digest, record.intent.reservation.generation, none⟩) signed submissions
      rebroadcasts :=
  { h with
    requested := h.requested.insert ⟨record, hi, rfl, rfl, by
      rintro raw hraw
      cases hraw⟩ }

theorem answer {q : SignRequest} {raw : Hex} {tx : SignedTransaction}
    (hq : signRequests.lookup key = some q) (hi : intents.lookup key = some record)
    (hvalid : validateSigned platform record raw = .ok tx)
    (h : Traced platform reservations intents signRequests signed submissions rebroadcasts) :
    Traced platform reservations intents
      (signRequests.insert key { q with rawTransaction := raw }) signed submissions rebroadcasts :=
  { h with
    requested := h.requested.insert (by
      obtain ⟨i, hi', hdigest, hgeneration, -⟩ := h.requested key q hq
      obtain rfl : record = i := Option.some.inj (hi.symm.trans hi')
      refine ⟨record, hi, hdigest, hgeneration, ?_⟩
      rintro raw' hraw
      cases hraw
      exact ⟨tx, hvalid⟩) }

/-- A submission is written, under its key, with the hash that an earlier one has. -/
theorem submit {x : Submission} {row : SignedRow} (hkey : x.jobKey = key)
    (hrow : signed.lookup key = some row) (hdigest : x.intentDigest = row.intentDigest)
    (hhash : x.transactionHash = row.transactionHash)
    (hsame : ∀ y ∈ submissions.lookup key, y.transactionHash = x.transactionHash)
    (h : Traced platform reservations intents signRequests signed submissions rebroadcasts) :
    Traced platform reservations intents signRequests signed (submissions.insert key x)
      rebroadcasts :=
  { h with
    submitted := h.submitted.insert ⟨hkey, row, hrow, hdigest, hhash⟩
    resent := h.resent.mono fun k z hz => by
      obtain ⟨hjob, hattempt, y, hy, hof⟩ := hz
      refine ⟨hjob, hattempt, ?_⟩
      rcases eq_or_ne k.1 key with heq | hne
      · rw [heq] at hy ⊢
        exact ⟨x, AList.lookup_insert _, hof.trans (hsame y hy)⟩
      · exact ⟨y, by rwa [AList.lookup_insert_ne hne], hof⟩ }

theorem resend {z : Rebroadcast} {x : Submission} (hx : submissions.lookup z.jobKey = some x)
    (hhash : z.transactionHash = x.transactionHash)
    (h : Traced platform reservations intents signRequests signed submissions rebroadcasts) :
    Traced platform reservations intents signRequests signed submissions
      (rebroadcasts.insert (z.jobKey, z.attemptId) z) :=
  { h with resent := h.resent.insert ⟨rfl, rfl, x, hx, hhash⟩ }

end Traced

/-! ### Budgets -/

/-- What a charge takes from the budget of an account. -/
def Charge.amountOf (a : Account) (c : Charge) : ℤ := if c.account = a then c.maximumGasCost else 0

/-- **What is allocated is what was charged.** -/
structure Budgeted (intents : Table Bytes32 IntentRecord) (submissions : Table Bytes32 Submission)
    (budgets : Table Account GasBudget) (budgetChanges : Table (Account × Bytes32) GasBudget)
    (charges : Table Bytes32 Charge) : Prop where
  /-- A charge is of a submission, and a submission is charged. -/
  charged : ∀ key, (charges.lookup key).isSome = (submissions.lookup key).isSome
  limited : Every (fun key c => (∃ i ∈ intents.lookup key,
      c.account = i.intent.reservation.account ∧ c.maximumGasCost = i.intent.maximumGasCost) ∧
    (∃ id, ∃ b ∈ budgetChanges.lookup (c.account, id), b.revision = c.revision ∧
      c.maximumGasCost ≤ b.maxTransaction) ∧
    (budgets.lookup c.account).isSome = true) charges
  allocated : Every (fun a b => (b.allocated : ℤ) = total (fun _ c => c.amountOf a) charges ∧
    b.allocated ≤ b.maximumTotal ∧
    (1 ≤ b.revision → ∃ id, ∃ c ∈ budgetChanges.lookup (a, id),
      c.revision = b.revision ∧ c.maxTransaction = b.maxTransaction)) budgets
  revised : Every (fun k c => ∃ b ∈ budgets.lookup k.1, c.revision ≤ b.revision) budgetChanges
  /-- A revision of a budget is of one request. -/
  revisions : ∀ a id id' c c', budgetChanges.lookup (a, id) = some c →
    budgetChanges.lookup (a, id') = some c' → c.revision = c'.revision → id = id'

namespace Budgeted

variable {intents : Table Bytes32 IntentRecord} {submissions : Table Bytes32 Submission}
  {budgets : Table Account GasBudget} {budgetChanges : Table (Account × Bytes32) GasBudget}
  {charges : Table Bytes32 Charge} {key : Bytes32} {record : IntentRecord} {a : Account}
  {b : GasBudget}

theorem intend (hnone : intents.lookup key = none)
    (h : Budgeted intents submissions budgets budgetChanges charges) :
    Budgeted (intents.insert key record) submissions budgets budgetChanges charges :=
  { h with
    limited := h.limited.mono fun k c hc => by
      obtain ⟨⟨i, hi, hof⟩, hrest⟩ := hc
      exact ⟨⟨i, lookup_insert_of_none hnone hi, hof⟩, hrest⟩ }

/-- A submission that was charged is written again. -/
theorem acknowledge {x : Submission} (hx : (submissions.lookup key).isSome = true)
    (h : Budgeted intents submissions budgets budgetChanges charges) :
    Budgeted intents (submissions.insert key x) budgets budgetChanges charges :=
  { h with
    charged := fun k => by
      rw [h.charged]
      rcases eq_or_ne k key with rfl | hne
      · rw [hx, AList.lookup_insert, Option.isSome_some]
      · rw [AList.lookup_insert_ne hne] }

/-- A budget is written again as it is. -/
theorem keep (hb : budgets.lookup a = some b)
    (h : Budgeted intents submissions budgets budgetChanges charges) :
    Budgeted intents submissions (budgets.insert a b) budgetChanges charges := by
  have hsame : ∀ a', (budgets.insert a b).lookup a' = budgets.lookup a' := by
    intro a'
    rcases eq_or_ne a' a with rfl | hne
    · rw [AList.lookup_insert, hb]
    · rw [AList.lookup_insert_ne hne]
  refine { h with limited := ?_, allocated := h.allocated.insert (h.allocated a b hb), revised := ?_ }
  · exact h.limited.mono fun k c hc => by rwa [hsame]
  · exact h.revised.mono fun k c hc => by rwa [hsame]

/-- Nothing is charged to an account without a budget. -/
theorem total_eq_zero (hnone : budgets.lookup a = none)
    (h : Budgeted intents submissions budgets budgetChanges charges) :
    total (fun _ c => c.amountOf a) charges = 0 := by
  have hzero : total (fun _ c => c.amountOf a) charges = total (fun _ _ => 0) charges := by
    refine total_congr_left fun k c hc => if_neg ?_
    rintro rfl
    have hsome := (h.limited k c hc).2.2
    rw [hnone] at hsome
    cases hsome
  rw [hzero, total]
  exact List.sum_eq_zero fun x hx => by
    obtain ⟨_, -, rfl⟩ := List.mem_map.mp hx
    rfl

/-- **A budget is set**, with the next revision, and what it has allocated stays. -/
theorem set {changed : GasBudget} {id : Bytes32}
    (hnone : budgetChanges.lookup (a, id) = none)
    (hb : budgets.lookup a = some b ∨
      budgets.lookup a = none ∧ b.revision = 0 ∧ b.allocated = 0)
    (hrevision : changed.revision = b.revision + 1) (hallocated : changed.allocated = b.allocated)
    (htotal : changed.allocated ≤ changed.maximumTotal)
    (h : Budgeted intents submissions budgets budgetChanges charges) :
    Budgeted intents submissions (budgets.insert a changed)
      (budgetChanges.insert (a, id) changed) charges := by
  have hbelow : ∀ id' c, budgetChanges.lookup (a, id') = some c → c.revision < changed.revision := by
    intro id' c hc
    obtain ⟨b', hb', hle⟩ := h.revised (a, id') c hc
    rcases hb with hsome | ⟨hmissing, -⟩
    · rw [hsome] at hb'
      cases hb'
      omega
    · rw [hmissing] at hb'
      cases hb'
  refine ⟨h.charged, ?_, ?_, ?_, ?_⟩
  · refine h.limited.mono fun k c hc => ?_
    obtain ⟨hof, ⟨id', b', hb', hwithin⟩, hsome⟩ := hc
    refine ⟨hof, ⟨id', b', lookup_insert_of_none hnone hb', hwithin⟩, ?_⟩
    rcases eq_or_ne c.account a with heq | hne
    · rw [heq, AList.lookup_insert]
      rfl
    · rwa [AList.lookup_insert_ne hne]
  · refine Every.insert (h.allocated.mono fun a' b' hb' => ?_) ⟨?_, htotal, fun _ =>
      ⟨id, changed, AList.lookup_insert _, rfl, rfl⟩⟩
    · refine ⟨hb'.1, hb'.2.1, fun hpos => ?_⟩
      obtain ⟨id', c, hc, hof⟩ := hb'.2.2 hpos
      exact ⟨id', c, lookup_insert_of_none hnone hc, hof⟩
    · rw [hallocated]
      rcases hb with hsome | ⟨hmissing, -, hzero⟩
      · exact (h.allocated a b hsome).1
      · rw [h.total_eq_zero hmissing, hzero]
        rfl
  · refine Every.insert (h.revised.mono fun k c hc => ?_)
      ⟨changed, AList.lookup_insert _, le_rfl⟩
    obtain ⟨b', hb', hle⟩ := hc
    rcases eq_or_ne k.1 a with heq | hne
    · rw [heq, AList.lookup_insert]
      rw [heq] at hb'
      refine ⟨changed, rfl, ?_⟩
      rcases hb with hsome | ⟨hmissing, -⟩
      · rw [hsome] at hb'
        cases hb'
        omega
      · rw [hmissing] at hb'
        cases hb'
    · exact ⟨b', by rwa [AList.lookup_insert_ne hne], hle⟩
  · intro a' x x' c c' hc hc' hsame
    rcases of_lookup_insert hc with ⟨hk, rfl⟩ | ⟨-, hold⟩ <;>
      rcases of_lookup_insert hc' with ⟨hk', rfl⟩ | ⟨-, hold'⟩
    · rw [(Prod.mk.inj hk).2, (Prod.mk.inj hk').2]
    · rw [(Prod.mk.inj hk).1] at hold'
      exact absurd hsame.symm (hbelow x' c' hold').ne
    · rw [(Prod.mk.inj hk').1] at hold
      exact absurd hsame (hbelow x c hold).ne
    · exact h.revisions a' x x' c c' hold hold' hsame

/-- **A submission is charged**, within the limits of the account's budget. -/
theorem charge {x : Submission} (hnone : submissions.lookup key = none)
    (hi : intents.lookup key = some record)
    (ha : a = record.intent.reservation.account) (hb : budgets.lookup a = some b)
    (hrevision : 1 ≤ b.revision) (hmax : record.intent.maximumGasCost ≤ b.maxTransaction)
    (htotal : b.allocated + record.intent.maximumGasCost ≤ b.maximumTotal)
    (h : Budgeted intents submissions budgets budgetChanges charges) :
    Budgeted intents (submissions.insert key x)
      (budgets.insert a { b with allocated := b.allocated + record.intent.maximumGasCost })
      budgetChanges (charges.insert key ⟨a, b.revision, record.intent.maximumGasCost⟩) := by
  have huncharged : charges.lookup key = none := by
    have hcharged := h.charged key
    rw [hnone] at hcharged
    exact Option.isNone_iff_eq_none.mp (by rw [← Option.not_isSome, hcharged]; rfl)
  have htotals : ∀ a', total (fun _ c => c.amountOf a')
      (charges.insert key ⟨a, b.revision, record.intent.maximumGasCost⟩)
      = total (fun _ c => c.amountOf a') charges
        + if a = a' then (record.intent.maximumGasCost : ℤ) else 0 := by
    intro a'
    rw [total_insert, huncharged]
    exact sub_zero _
  refine ⟨fun k => ?_, ?_, ?_, ?_, h.revisions⟩
  · rcases eq_or_ne k key with rfl | hne
    · rw [AList.lookup_insert, AList.lookup_insert]
      rfl
    · rw [AList.lookup_insert_ne hne, AList.lookup_insert_ne hne, h.charged]
  · refine Every.insert (h.limited.mono fun k c hc => ?_) ⟨⟨record, hi, ha, rfl⟩, ?_, ?_⟩
    · obtain ⟨hof, hwithin, hsome⟩ := hc
      refine ⟨hof, hwithin, ?_⟩
      rcases eq_or_ne c.account a with heq | hne
      · rw [heq, AList.lookup_insert]
        rfl
      · rwa [AList.lookup_insert_ne hne]
    · obtain ⟨id, c, hc, hsame, hlimit⟩ := (h.allocated a b hb).2.2 hrevision
      exact ⟨id, c, hc, hsame, hlimit ▸ hmax⟩
    · rw [AList.lookup_insert]
      rfl
  · intro a' b' hb'
    rcases of_lookup_insert hb' with ⟨rfl, rfl⟩ | ⟨hne, hold⟩
    · obtain ⟨hsum, -, hchange⟩ := h.allocated a' b hb
      refine ⟨?_, htotal, hchange⟩
      rw [htotals, if_pos rfl, ← hsum]
      exact Nat.cast_add _ _
    · obtain ⟨hsum, hrest⟩ := h.allocated a' b' hold
      exact ⟨by rw [htotals, if_neg hne.symm, add_zero, hsum], hrest⟩
  · refine h.revised.mono fun k c hc => ?_
    obtain ⟨b', hb', hle⟩ := hc
    rcases eq_or_ne k.1 a with heq | hne
    · rw [heq, hb] at hb'
      cases hb'
      rw [heq, AList.lookup_insert]
      exact ⟨_, rfl, hle⟩
    · exact ⟨b', by rwa [AList.lookup_insert_ne hne], hle⟩

end Budgeted

/-! ### One transaction -/

variable (platform chainId) in
/-- **The tables agree.** -/
structure Sound (s : Store) : Prop where
  fenced : Fenced chainId s.leases s.roles s.nonceAccounts s.reservations
  traced : Traced platform s.reservations s.intents s.signRequests s.signed s.submissions
    s.rebroadcasts
  budgeted : Budgeted s.intents s.submissions s.budgets s.budgetChanges s.charges

/-- The reservation of an intent is that of its job. -/
theorem Sound.keyed (hs : Sound platform chainId s) : s.Keyed := by
  intro key record hi
  have hr := (hs.traced.intended key record hi).1
  exact ⟨hr, (hs.fenced.reserved key _ hr).1⟩

/-- The account of an intent is on the chain. -/
theorem Sound.account_eq (hs : Sound platform chainId s) {key : Bytes32} {record : IntentRecord}
    (hi : s.intents.lookup key = some record) :
    (⟨chainId, record.intent.reservation.genesisHash, record.intent.reservation.sender⟩ : Account)
      = record.intent.reservation.account := by
  rw [Reservation.account,
    (hs.fenced.reserved key _ (hs.traced.intended key record hi).1).2.1]

/-- **A change keeps the tables in agreement.** -/
theorem Change.sound (h : Change platform chainId owner token checked s s')
    (hs : Sound platform chainId s) : Sound platform chainId s' := by
  cases h with
  | recorded => exact ⟨hs.fenced, hs.traced, hs.budgeted⟩
  | claimed hrole => exact ⟨hs.fenced.claim hrole, hs.traced, hs.budgeted⟩
  | issued hnone hnew hgeneration =>
    exact ⟨hs.fenced.issue hnone hnew hgeneration, hs.traced, hs.budgeted⟩
  | reserved _ hnone hlease hchain _ hnext =>
    exact ⟨hs.fenced.reserve hnone hlease hchain hnext, hs.traced.reserve hnone, hs.budgeted⟩
  | intended _ hnone hreserved hdigest hcost =>
    exact ⟨hs.fenced, hs.traced.intend hnone hreserved hdigest hcost, hs.budgeted.intend hnone⟩
  | attached _ hnone hi hvalid => exact ⟨hs.fenced, hs.traced.attach hnone hi hvalid, hs.budgeted⟩
  | requested _ _ hi => exact ⟨hs.fenced, hs.traced.request hi, hs.budgeted⟩
  | answered _ hq _ hi hvalid => exact ⟨hs.fenced, hs.traced.answer hq hi hvalid, hs.budgeted⟩
  | @rewritten a b id hid hsame =>
    obtain ⟨c, hc⟩ := Option.isSome_iff_exists.mp (AList.lookup_isSome.mpr hid)
    obtain ⟨b', hb', -⟩ := hs.budgeted.revised (a, id) c hc
    obtain rfl := hsame b' hb'
    exact ⟨hs.fenced, hs.traced, hs.budgeted.keep hb'⟩
  | budgeted hnone hb hrevision hallocated htotal _ =>
    exact ⟨hs.fenced, hs.traced, hs.budgeted.set hnone hb hrevision hallocated htotal⟩
  | @submitted key record row out b _ hnone hi hrow hkey hdigest hhash hb hrevision _ hmax htotal =>
    rw [(hs.keyed key record hi).2]
    refine ⟨hs.fenced, hs.traced.submit hkey hrow hdigest hhash ?_,
      hs.budgeted.charge hnone hi (hs.account_eq hi) hb hrevision hmax htotal⟩
    rintro y hy
    rw [hnone] at hy
    cases hy
  | resent _ hx hhash => exact ⟨hs.fenced, hs.traced.resend hx hhash, hs.budgeted⟩
  | @acknowledged x status hx =>
    obtain ⟨-, row, hrow, hdigest, hhash⟩ := hs.traced.submitted x.jobKey x hx
    refine ⟨hs.fenced, hs.traced.submit rfl hrow hdigest hhash ?_,
      hs.budgeted.acknowledge (by rw [hx]; rfl)⟩
    rintro y hy
    rw [hx] at hy
    cases hy
    rfl
  | @acknowledgedAgain x status hx =>
    obtain ⟨-, -, y, hy, hhash⟩ := hs.traced.resent (x.jobKey, x.attemptId) x hx
    exact ⟨hs.fenced, hs.traced.resend (z := { x with status := status }) hy hhash, hs.budgeted⟩

/-- Changes, one after the other. -/
theorem sound_of_changes
    (h : ReflTransGen (Change platform chainId owner token checked) s s')
    (hs : Sound platform chainId s) : Sound platform chainId s' := by
  induction h with
  | refl => exact hs
  | tail _ hchange ih => exact hchange.sound ih

/-- **A transaction keeps the tables in agreement.** -/
theorem Commits.sound {errand : Option Errand}
    (h : Commits platform chainId owner token checked s errand s')
    (hs : Sound platform chainId s) : Sound platform chainId s' := by
  cases h with
  | changes h => exact sound_of_changes h hs
  | prolongs jobs simulations recoveries hlatest hgeneration htoken =>
    exact ⟨hs.fenced.extend hlatest hgeneration htoken, hs.traced, hs.budgeted⟩
  | asks hchange | submits hchange | resends hchange => exact hchange.sound hs

/-! ### What stays -/

/-- **What a transaction never takes back.** -/
structure Kept (s s' : Store) : Prop where
  roles : ∀ a role, s.roles.lookup a = some role → s'.roles.lookup a = some role
  reservations : ∀ key r, s.reservations.lookup key = some r → s'.reservations.lookup key = some r
  intents : ∀ key i, s.intents.lookup key = some i → s'.intents.lookup key = some i
  signed : ∀ key row, s.signed.lookup key = some row → s'.signed.lookup key = some row
  requested : ∀ key, (s.signRequests.lookup key).isSome = true →
    (s'.signRequests.lookup key).isSome = true
  submissions : ∀ key x, s.submissions.lookup key = some x →
    ∃ status, s'.submissions.lookup key = some { x with status := status }
  rebroadcasts : ∀ k x, s.rebroadcasts.lookup k = some x →
    ∃ status, s'.rebroadcasts.lookup k = some { x with status := status }
  /-- A job with a nonce is leased to nobody else. -/
  generations : ∀ key, (s.reservations.lookup key).isSome = true →
    (s'.leasesOf key).map Lease.generation = (s.leasesOf key).map Lease.generation ∧
      (s'.leasesOf key).map Lease.token = (s.leasesOf key).map Lease.token

namespace Kept

theorem refl (s : Store) : Kept s s :=
  ⟨fun _ _ h => h, fun _ _ h => h, fun _ _ h => h, fun _ _ h => h, fun _ h => h,
    fun _ x h => ⟨x.status, h⟩, fun _ x h => ⟨x.status, h⟩, fun _ _ => ⟨rfl, rfl⟩⟩

theorem trans {s'' : Store} (h : Kept s s') (h' : Kept s' s'') : Kept s s'' where
  roles a role hrole := h'.roles a role (h.roles a role hrole)
  reservations key r hr := h'.reservations key r (h.reservations key r hr)
  intents key i hi := h'.intents key i (h.intents key i hi)
  signed key row hrow := h'.signed key row (h.signed key row hrow)
  requested key hq := h'.requested key (h.requested key hq)
  submissions key x hx := by
    obtain ⟨status, hx'⟩ := h.submissions key x hx
    obtain ⟨status', hx''⟩ := h'.submissions key _ hx'
    exact ⟨status', hx''⟩
  rebroadcasts k x hx := by
    obtain ⟨status, hx'⟩ := h.rebroadcasts k x hx
    obtain ⟨status', hx''⟩ := h'.rebroadcasts k _ hx'
    exact ⟨status', hx''⟩
  generations key hr := by
    obtain ⟨r, hr'⟩ := Option.isSome_iff_exists.mp hr
    have hsome : (s'.reservations.lookup key).isSome = true := by
      rw [h.reservations key r hr']
      rfl
    obtain ⟨hgeneration, htoken⟩ := h.generations key hr
    obtain ⟨hgeneration', htoken'⟩ := h'.generations key hsome
    exact ⟨hgeneration'.trans hgeneration, htoken'.trans htoken⟩

end Kept

/-- A row that was there is still there after a row was written. -/
theorem isSome_lookup_insert {κ β : Type} [DecidableEq κ] {m : Table κ β} {k j : κ} {b : β}
    (h : (m.lookup j).isSome = true) : ((m.insert k b).lookup j).isSome = true := by
  rcases eq_or_ne j k with rfl | hne
  · rw [AList.lookup_insert]
    rfl
  · rwa [AList.lookup_insert_ne hne]

theorem Change.keeps (h : Change platform chainId owner token checked s s') : Kept s s' := by
  cases h with
  | recorded => exact { Kept.refl s with }
  | @claimed account hrole =>
    refine { Kept.refl s with roles := fun a role ha => ?_ }
    change (s.roles.insert _ _).lookup a = some role
    rcases eq_or_ne a account with rfl | hne
    · rw [AList.lookup_insert, hrole role ha]
    · rw [AList.lookup_insert_ne hne, ha]
  | @issued key l hnone =>
    refine { Kept.refl s with generations := fun j hj => ?_ }
    have hne : j ≠ key := by
      rintro rfl
      rw [hnone] at hj
      cases hj
    have hsame : (s.leases.insert key (l :: s.leasesOf key)).lookup j = s.leases.lookup j :=
      AList.lookup_insert_ne hne
    rw [Store.leasesOf, hsame]
    exact ⟨rfl, rfl⟩
  | @reserved r _ hnone _ _ hrole =>
    refine { Kept.refl s with
      roles := fun a role ha => ?_
      reservations := fun _ _ hr => lookup_insert_of_none hnone hr }
    change (s.roles.insert _ _).lookup a = some role
    rcases eq_or_ne a r.account with rfl | hne
    · rw [AList.lookup_insert, hrole role ha]
    · rw [AList.lookup_insert_ne hne, ha]
  | intended _ hnone =>
    exact { Kept.refl s with intents := fun _ _ hi => lookup_insert_of_none hnone hi }
  | attached _ hnone =>
    exact { Kept.refl s with signed := fun _ _ hrow => lookup_insert_of_none hnone hrow }
  | requested =>
    exact { Kept.refl s with requested := fun _ hq => isSome_lookup_insert hq }
  | answered =>
    exact { Kept.refl s with requested := fun _ hq => isSome_lookup_insert hq }
  | rewritten => exact { Kept.refl s with }
  | budgeted => exact { Kept.refl s with }
  | submitted _ hnone =>
    exact { Kept.refl s with
      submissions := fun _ x hx => ⟨x.status, lookup_insert_of_none hnone hx⟩ }
  | resent hnone =>
    exact { Kept.refl s with
      rebroadcasts := fun _ x hx => ⟨x.status, lookup_insert_of_none hnone hx⟩ }
  | @acknowledged x status hx =>
    refine { Kept.refl s with submissions := fun key y hy => ?_ }
    rcases eq_or_ne key x.jobKey with rfl | hne
    · rw [hx] at hy
      cases hy
      exact ⟨status, AList.lookup_insert _⟩
    · exact ⟨y.status, (AList.lookup_insert_ne hne).trans hy⟩
  | @acknowledgedAgain x status hx =>
    refine { Kept.refl s with rebroadcasts := fun k y hy => ?_ }
    rcases eq_or_ne k (x.jobKey, x.attemptId) with rfl | hne
    · rw [hx] at hy
      cases hy
      exact ⟨status, AList.lookup_insert _⟩
    · exact ⟨y.status, (AList.lookup_insert_ne hne).trans hy⟩

theorem kept_of_changes (h : ReflTransGen (Change platform chainId owner token checked) s s') :
    Kept s s' := by
  induction h with
  | refl => exact Kept.refl s
  | tail _ hchange ih => exact ih.trans hchange.keeps

/-- **A transaction takes nothing back.** -/
theorem Commits.keeps {errand : Option Errand}
    (h : Commits platform chainId owner token checked s errand s') : Kept s s' := by
  cases h with
  | changes h => exact kept_of_changes h
  | @prolongs key l l' _ _ _ hlatest hgeneration htoken =>
    refine { Kept.refl s with generations := fun j hj => ?_ }
    obtain ⟨tail, hls⟩ := List.head?_eq_some_iff.mp hlatest
    have hchanged : (s.setLease key l').leasesOf j
        = if j = key then l' :: (s.leasesOf key).tail else s.leasesOf j :=
      Fenced.leasesIn_insert s.leases key j _
    change ((s.setLease key l').leasesOf j).map Lease.generation = _ ∧
      ((s.setLease key l').leasesOf j).map Lease.token = _
    rw [hchanged]
    split
    · rename_i hj
      rw [hj, hls, List.tail_cons, List.map_cons, List.map_cons, List.map_cons, List.map_cons,
        hgeneration, htoken]
      exact ⟨rfl, rfl⟩
    · exact ⟨rfl, rfl⟩
  | asks hchange | submits hchange | resends hchange => exact hchange.keeps

end Maintenance

end Backend

end TickerGarden
