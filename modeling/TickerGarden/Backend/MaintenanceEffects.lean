import TickerGarden.Backend.Maintenance
import Mathlib.Logic.Relation

/-!
# What a maintenance transaction does to the tables

Every transaction of `Backend/Maintenance` is read here once, and never again: what it does to the
tables is a sequence of `Change`s, each the insertion or the update of the rows of one stage, with
the conditions under which it is made. A change that creates something on behalf of a lease says
whose lease it is (`Authorized`).

`Commits` is what one transaction does, with the errand that it leaves behind, and
`Store.exec_commits` is the one result that the invariants need of the code.
-/

namespace TickerGarden

open Checked Relation

namespace Backend

namespace Maintenance

variable {platform : Platform} {chainId : ℕ}

/-- The latest lease of a job is the caller's, and lasts at one of the times that the call read
from the clock after its last wait. -/
def Authorized (s : Store) (key : Bytes32) (owner : String) (token : Bytes32)
    (checked : List Time) : Prop :=
  ∃ l ∈ latestLease s key, l.owner = owner ∧ l.token = token ∧ l.released = false ∧
    ∃ now ∈ checked, now < l.expiresAt

section Change

variable (platform chainId) (owner : String) (token : Bytes32) (checked : List Time)

/-- **A change of the tables**, made for the lease of an owner's token. -/
inductive Change : Store → Store → Prop
  | recorded {s : Store} (jobs : List JobRow) (simulations : List SimulationRow) :
      Change s { s with jobs := jobs, simulations := simulations }
  | claimed {s : Store} {account : Account} :
      (∀ role ∈ s.roles.lookup account, role = .settlement) →
      Change s { s with roles := s.roles.insert account .settlement }
  | issued {s : Store} {key : Bytes32} {l : Lease} :
      s.reservations.lookup key = none → (∀ x ∈ s.leasesOf key, x.token ≠ l.token) →
      l.generation = (latestLease s key).elim 0 Lease.generation + 1 →
      Change s { s with leases := s.leases.insert key (l :: s.leasesOf key) }
  | reserved {s : Store} {r : Reservation} : Authorized s r.jobKey owner token checked →
      s.reservations.lookup r.jobKey = none →
      (∃ l ∈ latestLease s r.jobKey, l.generation = r.generation) → r.chainId = chainId →
      (∀ role ∈ s.roles.lookup r.account, role = .maintenance) →
      (∀ next ∈ s.nonceAccounts.lookup r.account, next ≤ r.nonce) →
      Change s { s with
        roles := s.roles.insert r.account .maintenance
        reservations := s.reservations.insert r.jobKey r
        nonceAccounts := s.nonceAccounts.insert r.account (r.nonce + 1) }
  | intended {s : Store} {key : Bytes32} {record : IntentRecord} :
      Authorized s key owner token checked → s.intents.lookup key = none →
      s.reservations.lookup key = some record.intent.reservation →
      record.digest = platform.hash (.intent record.intent) →
      record.intent.maximumGasCost = record.intent.call.gas * record.intent.call.maxFeePerGas →
      Change s { s with intents := s.intents.insert key record }
  | attached {s : Store} {key : Bytes32} {record : IntentRecord} {raw : Hex}
      {tx : SignedTransaction} : Authorized s key owner token checked →
      s.signed.lookup key = none → s.intents.lookup key = some record →
      validateSigned platform record raw = .ok tx →
      Change s { s with
        signed := s.signed.insert key ⟨record.digest, tx.transactionHash, raw⟩ }
  | requested {s : Store} {key : Bytes32} {record : IntentRecord} :
      Authorized s key owner token checked →
      s.signRequests.lookup key = none → s.intents.lookup key = some record →
      Change s { s with signRequests :=
        s.signRequests.insert key ⟨record.digest, record.intent.reservation.generation, none⟩ }
  | answered {s : Store} {key : Bytes32} {record : IntentRecord} {request : SignRequest} {raw : Hex}
      {tx : SignedTransaction} (imports : Table Bytes32 SignatureImport) :
      s.signRequests.lookup key = some request → request.intentDigest = record.digest →
      s.intents.lookup key = some record → validateSigned platform record raw = .ok tx →
      (∀ previous ∈ request.rawTransaction, previous = raw) →
      Change s { s with
        signRequests := s.signRequests.insert key { request with rawTransaction := raw }
        signatureImports := imports }
  | rewritten {s : Store} {account : Account} {b : GasBudget} {id : Bytes32} :
      (account, id) ∈ s.budgetChanges →
      (∀ b' ∈ s.budgets.lookup account, b = b') →
      Change s { s with budgets := s.budgets.insert account b }
  | budgeted {s : Store} {account : Account} {b changed : GasBudget} {id : Bytes32} :
      s.budgetChanges.lookup (account, id) = none →
      (s.budgets.lookup account = some b ∨
        s.budgets.lookup account = none ∧ b.revision = 0 ∧ b.allocated = 0) →
      changed.revision = b.revision + 1 → changed.allocated = b.allocated →
      changed.allocated ≤ changed.maximumTotal → changed.maxTransaction ≤ changed.maximumTotal →
      Change s { s with
        budgets := s.budgets.insert account changed
        budgetChanges := s.budgetChanges.insert (account, id) changed }
  | submitted {s : Store} {key : Bytes32} {record : IntentRecord} {row : SignedRow}
      {out : Submission} {b : GasBudget} : Authorized s key owner token checked →
      s.submissions.lookup key = none → s.intents.lookup key = some record →
      s.signed.lookup key = some row → out.jobKey = key → out.intentDigest = row.intentDigest →
      out.transactionHash = row.transactionHash →
      s.budgets.lookup ⟨chainId, record.intent.reservation.genesisHash,
        record.intent.reservation.sender⟩ = some b → 1 ≤ b.revision →
      0 < record.intent.maximumGasCost → record.intent.maximumGasCost ≤ b.maxTransaction →
      b.allocated + record.intent.maximumGasCost ≤ b.maximumTotal →
      Change s { s with
        submissions := s.submissions.insert key out
        budgets := s.budgets.insert ⟨chainId, record.intent.reservation.genesisHash,
          record.intent.reservation.sender⟩
          { b with allocated := b.allocated + record.intent.maximumGasCost }
        charges := s.charges.insert record.intent.reservation.jobKey
          ⟨⟨chainId, record.intent.reservation.genesisHash, record.intent.reservation.sender⟩,
            b.revision, record.intent.maximumGasCost⟩ }
  | resent {s : Store} {out : Rebroadcast} {x : Submission} :
      s.rebroadcasts.lookup (out.jobKey, out.attemptId) = none →
      s.submissions.lookup out.jobKey = some x → out.transactionHash = x.transactionHash →
      Change s { s with
        rebroadcasts := s.rebroadcasts.insert (out.jobKey, out.attemptId) out }
  | acknowledged {s : Store} {x : Submission} (status : SubmissionStatus) :
      s.submissions.lookup x.jobKey = some x →
      Change s { s with
        submissions := s.submissions.insert x.jobKey { x with status := status } }
  | acknowledgedAgain {s : Store} {x : Rebroadcast} (status : SubmissionStatus) :
      s.rebroadcasts.lookup (x.jobKey, x.attemptId) = some x →
      Change s { s with rebroadcasts :=
        s.rebroadcasts.insert (x.jobKey, x.attemptId) { x with status := status } }

/-- **What a transaction does**, and what it leaves to do outside the database. -/
inductive Commits : Store → Option Errand → Store → Prop
  | changes {s s' : Store} : ReflTransGen (Change platform chainId owner token checked) s s' →
      Commits s none s'
  | prolongs {s : Store} {key : Bytes32} {l l' : Lease} (jobs : List JobRow)
      (simulations : List SimulationRow)
      (recoveries : Table (Bytes32 × Bytes32) AuthorizationRecovery) :
      latestLease s key = some l → l'.generation = l.generation → l'.token = l.token →
      Commits s none
        { s.setLease key l' with jobs := jobs, simulations := simulations, recoveries := recoveries }
  | asks {s s' : Store} {key : Bytes32} {record : IntentRecord} :
      Change platform chainId owner token checked s s' → s.intents.lookup key = some record →
      s.signRequests.lookup key = none → (s'.signRequests.lookup key).isSome = true →
      Commits s (some (.sign key record)) s'
  | submits {s s' : Store} {out : Submission} {row : SignedRow} :
      Change platform chainId owner token checked s s' →
      s.signed.lookup out.jobKey = some row →
      s.submissions.lookup out.jobKey = none → s'.submissions.lookup out.jobKey = some out →
      Commits s (some (.send (.submission out row.rawTransaction))) s'
  | resends {s s' : Store} {out : Rebroadcast} {row : SignedRow} :
      Change platform chainId owner token checked s s' →
      s.signed.lookup out.jobKey = some row →
      s.rebroadcasts.lookup (out.jobKey, out.attemptId) = none →
      s'.rebroadcasts.lookup (out.jobKey, out.attemptId) = some out →
      Commits s (some (.send (.rebroadcast out row.rawTransaction))) s'

end Change

/-! ### What the checks say -/

variable {s s' : Store} {key : Bytes32} {record : IntentRecord} {raw : Hex}

/-- **Signed bytes are those of the intent**: its nonce, from its sender. -/
theorem validateSigned_ok {tx : SignedTransaction}
    (h : validateSigned platform record raw = .ok tx) :
    tx.jobKey = record.intent.reservation.jobKey ∧ tx.intentDigest = record.digest ∧
      tx.rawTransaction = raw ∧ tx.transactionHash = platform.transactionHash raw ∧
      (∃ d ∈ platform.unmarshalBinary raw, d.chainId = record.intent.reservation.chainId ∧
        d.nonce = record.intent.reservation.nonce ∧ d.gas = record.intent.call.gas ∧
        d.gasFeeCap = record.intent.call.maxFeePerGas) ∧
      platform.sender record.intent.reservation.chainId raw =
        some record.intent.reservation.sender := by
  rw [validateSigned] at h
  obtain ⟨_, -, h⟩ := bind_eq_ok.mp h
  obtain ⟨_, -, h⟩ := bind_eq_ok.mp h
  obtain ⟨d, hd, h⟩ := bind_eq_ok.mp h
  obtain ⟨_, -, h⟩ := bind_eq_ok.mp h
  obtain ⟨_, -, h⟩ := bind_eq_ok.mp h
  obtain ⟨_, -, h⟩ := bind_eq_ok.mp h
  obtain ⟨_, hnonce, h⟩ := bind_eq_ok.mp h
  obtain ⟨_, hfields, h⟩ := bind_eq_ok.mp h
  obtain ⟨sender, hsender, h⟩ := bind_eq_ok.mp h
  obtain ⟨_, hfrom, h⟩ := bind_eq_ok.mp h
  have hnonce := not_ne_iff.mp (revertIf_eq_ok.mp hnonce)
  have hfields := revertIf_eq_ok.mp hfields
  have hfrom := revertIf_eq_ok.mp hfrom
  simp only [not_or, not_not, ne_eq] at hfields hfrom
  cases h
  refine ⟨rfl, rfl, rfl, rfl, ⟨d, orRevert_eq_ok.mp hd, hfields.1, ?_, hfields.2.2.1,
    hfields.2.2.2.1⟩, ?_⟩
  · rw [hfields.2.1, hnonce]
  · rw [← hfrom.2, ← hfrom.1]
    exact orRevert_eq_ok.mp hsender

/-- The intent that is read is the stored one. -/
theorem intentIn_some {found : Option IntentRecord} (h : intentIn platform key s = .ok found) :
    found = s.intents.lookup key := by
  rw [intentIn] at h
  split at h
  · rename_i hnone
    cases h
    exact hnone.symm
  · rename_i stored hsome
    obtain ⟨_, -, h⟩ := bind_eq_ok.mp h
    cases h
    exact hsome.symm

/-- A valid intent is of the reservation it was checked against. -/
theorem validateIntent_ok {r : Reservation} {u : Unit}
    (h : validateIntent platform r record s = .ok u) : record.intent.reservation = r := by
  rw [validateIntent] at h
  obtain ⟨_, hsame, -⟩ := bind_eq_ok.mp h
  exact not_ne_iff.mp (not_or.mp (revertIf_eq_ok.mp hsame)).1

/-- The signed transaction that is read is that of the stored bytes. -/
theorem signedIn_some {tx : SignedTransaction}
    (h : signedIn platform key record s = .ok (some tx)) :
    ∃ row ∈ s.signed.lookup key, validateSigned platform record row.rawTransaction = .ok tx ∧
      row.intentDigest = record.digest ∧ tx.transactionHash = row.transactionHash := by
  rw [signedIn] at h
  split at h
  · cases h
  · rename_i row hrow
    split at h
    · cases h
    · rename_i stored hvalid
      obtain ⟨_, hchecked, h⟩ := bind_eq_ok.mp h
      have hchecked := revertIf_eq_ok.mp hchecked
      simp only [not_or, not_not, ne_eq] at hchecked
      cases h
      exact ⟨row, hrow, hvalid, hchecked.1, hchecked.2⟩

theorem signedIn_none (h : signedIn platform key record s = .ok none) :
    s.signed.lookup key = none := by
  rw [signedIn] at h
  split at h
  · assumption
  · split at h
    · cases h
    · obtain ⟨_, -, h⟩ := bind_eq_ok.mp h
      cases h

/-! ### The transactions -/

variable {owner : String} {token : Bytes32} {generation : ℕ} {p : MaintenancePreview}

theorem recordIn_ok {saved : Record} (h : recordIn platform chainId p s = .ok (saved, s')) :
    ∃ jobs simulations, s' = { s with jobs := jobs, simulations := simulations } := by
  rw [recordIn] at h
  obtain ⟨_, -, h⟩ := bind_eq_ok.mp h
  dsimp only [envelopes] at h
  obtain ⟨_, -, h⟩ := bind_eq_ok.mp h
  obtain ⟨_, -, h⟩ := bind_eq_ok.mp h
  obtain ⟨_, -, h⟩ := bind_eq_ok.mp h
  obtain ⟨_, -, h⟩ := bind_eq_ok.mp h
  cases h
  rw [Store.addSimulation, Store.addJob]
  split <;> split <;> exact ⟨_, _, rfl⟩

/-- A lease that is issued is of the next generation, with a token that is new, and of a job that
has no nonce yet. -/
theorem issueLease_ok {previous : Option Lease} {ttl : ℕ} {now : Time} {l : Lease}
    (h : issueLease previous key owner token ttl now s = .ok (l, s')) :
    s.reservations.lookup key = none ∧ (∀ x ∈ s.leasesOf key, x.token ≠ l.token) ∧
      l.generation = previous.elim 0 Lease.generation + 1 ∧
      s' = { s with leases := s.leases.insert key (l :: s.leasesOf key) } := by
  rw [issueLease] at h
  obtain ⟨_, hreserved, h⟩ := bind_eq_ok.mp h
  obtain ⟨_, hused, h⟩ := bind_eq_ok.mp h
  obtain ⟨_, -, h⟩ := bind_eq_ok.mp h
  obtain ⟨_, -, h⟩ := bind_eq_ok.mp h
  have hreserved := revertIf_eq_ok.mp hreserved
  have hused := revertIf_eq_ok.mp hused
  simp only [not_exists, not_and] at hused
  cases h
  exact ⟨Option.not_isSome_iff_eq_none.mp hreserved, hused, rfl, rfl⟩

theorem acquireLeaseIn_ok {ttl : ℕ} {clock : Option Time} {l : Lease}
    (h : acquireLeaseIn platform chainId key owner token ttl clock s = .ok (l, s')) :
    s' = s ∨ s.reservations.lookup key = none ∧ (∀ x ∈ s.leasesOf key, x.token ≠ l.token) ∧
      l.generation = (latestLease s key).elim 0 Lease.generation + 1 ∧
      s' = { s with leases := s.leases.insert key (l :: s.leasesOf key) } := by
  rw [acquireLeaseIn] at h
  obtain ⟨_, -, h⟩ := bind_eq_ok.mp h
  obtain ⟨_, -, h⟩ := bind_eq_ok.mp h
  obtain ⟨now, -, h⟩ := bind_eq_ok.mp h
  split at h
  · rename_i hnone
    rw [hnone]
    exact .inr (issueLease_ok h)
  · rename_i latest hsome
    split at h
    · obtain ⟨_, -, h⟩ := bind_eq_ok.mp h
      cases h
      exact .inl rfl
    · rw [hsome]
      exact .inr (issueLease_ok h)

theorem changeLease_ok {release : Bool} {clock : Option Time} {l : Lease}
    (h : changeLease platform chainId key owner token generation release clock s = .ok (l, s')) :
    s' = s ∨ ∃ previous, latestLease s key = some previous ∧
      l.generation = previous.generation ∧ l.token = previous.token ∧ s' = s.setLease key l := by
  rw [changeLease] at h
  obtain ⟨_, -, h⟩ := bind_eq_ok.mp h
  obtain ⟨_, -, h⟩ := bind_eq_ok.mp h
  obtain ⟨previous, hlatest, h⟩ := bind_eq_ok.mp h
  obtain ⟨_, -, h⟩ := bind_eq_ok.mp h
  have hlatest := orRevert_eq_ok.mp hlatest
  split at h
  · cases h
    exact .inl rfl
  · obtain ⟨now, -, h⟩ := bind_eq_ok.mp h
    obtain ⟨_, -, h⟩ := bind_eq_ok.mp h
    cases h
    refine .inr ⟨previous, hlatest, ?_, ?_, rfl⟩ <;> split <;> rfl

/-- Claiming an account leaves it, or makes it, one of the role. -/
theorem claim_ok {account : Account} {role : Role} (h : claim account role s = .ok s') :
    (∀ saved ∈ s.roles.lookup account, saved = role) ∧
      s' = { s with roles := s.roles.insert account role } := by
  rw [claim] at h
  obtain ⟨_, hsaved, h⟩ := bind_eq_ok.mp h
  have hsaved := not_ne_iff.mp (revertIf_eq_ok.mp hsaved)
  cases h
  constructor
  · rintro saved hrole
    rwa [Option.mem_def.mp hrole] at hsaved
  · rw [hsaved]

variable {rpc : Answers}

/-- **A nonce is reserved** under the caller's lease, at or above the next one of the account. The
lease is looked at again after the last wait; who looks at it later may say so too. -/
theorem reserveNonceIn_ok {r : Reservation}
    (h : reserveNonceIn platform chainId rpc p owner token generation s = .ok (r, s')) :
    s' = s ∨ s.reservations.lookup p.key = none ∧ s'.leases = s.leases ∧ s'.intents = s.intents ∧
      Authorized s p.key owner token rpc.recheck.toList ∧
      ∀ checked, Authorized s p.key owner token checked →
        Change platform chainId owner token checked s s' := by
  rw [reserveNonceIn] at h
  obtain ⟨_, hinput, h⟩ := bind_eq_ok.mp h
  obtain ⟨_, -, h⟩ := bind_eq_ok.mp h
  obtain ⟨l, hlatest, h⟩ := bind_eq_ok.mp h
  obtain ⟨now, -, h⟩ := bind_eq_ok.mp h
  obtain ⟨_, hlive, h⟩ := bind_eq_ok.mp h
  have hlatest := orRevert_eq_ok.mp hlatest
  obtain ⟨howner, htoken, hgeneration, hreleased, -⟩ := not_not.mp (revertIf_eq_ok.mp hlive)
  split at h
  · obtain ⟨_, -, h⟩ := bind_eq_ok.mp h
    obtain ⟨_, -, h⟩ := bind_eq_ok.mp h
    cases h
    exact .inl rfl
  · rename_i hnone
    have hchain : p.chainId = chainId := by
      have hinput := revertIf_eq_ok.mp hinput
      simp only [not_or, not_not, ne_eq] at hinput
      exact hinput.2.2.1
    obtain ⟨_, -, h⟩ := bind_eq_ok.mp h
    obtain ⟨_, -, h⟩ := bind_eq_ok.mp h
    obtain ⟨claimed, hclaim, h⟩ := bind_eq_ok.mp h
    obtain ⟨_, -, h⟩ := bind_eq_ok.mp h
    obtain ⟨pending, -, h⟩ := bind_eq_ok.mp h
    obtain ⟨_, -, h⟩ := bind_eq_ok.mp h
    obtain ⟨again, hagain, h⟩ := bind_eq_ok.mp h
    obtain ⟨_, hlasts, h⟩ := bind_eq_ok.mp h
    obtain ⟨_, -, h⟩ := bind_eq_ok.mp h
    obtain ⟨hrole, rfl⟩ := claim_ok hclaim
    have hagain := orRevert_eq_ok.mp hagain
    have hlasts := (not_or.mp (revertIf_eq_ok.mp hlasts)).1
    have hauthorized : Authorized s p.key owner token rpc.recheck.toList :=
      ⟨l, hlatest, howner, htoken, hreleased, again, by rw [hagain]; exact List.mem_singleton_self _,
        not_le.mp hlasts⟩
    have hnext : ∀ next ∈ s.nonceAccounts.lookup ⟨p.chainId, p.genesisHash, p.fromAddress⟩,
        next ≤ max ((s.nonceAccounts.lookup ⟨p.chainId, p.genesisHash, p.fromAddress⟩).getD 0)
          pending := by
      rintro next hnext
      rw [Option.mem_def.mp hnext]
      exact le_max_left _ _
    obtain ⟨rfl, rfl⟩ := Prod.mk.inj (Except.ok.inj h)
    refine .inr ⟨hnone, rfl, rfl, hauthorized, fun checked hchecked => ?_⟩
    exact .reserved (r := ⟨p.key, generation, p.chainId, p.genesisHash, p.fromAddress, _,
      platform.hash (.preview p), "nonce_reserved"⟩) hchecked hnone ⟨l, hlatest, hgeneration⟩ hchain
      hrole hnext

/-- The call of an intent costs at most its gas at its greatest price. -/
theorem intentCall_ok {nonce : ℕ} {f : Fees} {call : IntentCall} {cost : ℕ}
    (h : intentCall p nonce f = .ok (call, cost)) :
    call.nonce = nonce ∧ cost = call.gas * call.maxFeePerGas ∧ 0 < cost ∧ cost < 2 ^ 256 := by
  rw [intentCall] at h
  obtain ⟨gas, -, h⟩ := bind_eq_ok.mp h
  obtain ⟨fee, -, h⟩ := bind_eq_ok.mp h
  obtain ⟨tip, -, h⟩ := bind_eq_ok.mp h
  obtain ⟨_, -, h⟩ := bind_eq_ok.mp h
  obtain ⟨_, hbounds, h⟩ := bind_eq_ok.mp h
  obtain ⟨_, -, h⟩ := bind_eq_ok.mp h
  obtain ⟨_, hcost, h⟩ := bind_eq_ok.mp h
  have hbounds := revertIf_eq_ok.mp hbounds
  have hcost := not_le.mp (revertIf_eq_ok.mp hcost)
  simp only [not_or, not_le, not_lt] at hbounds
  cases h
  exact ⟨rfl, rfl, Nat.mul_pos (by omega) (Nat.pos_of_ne_zero hbounds.2.2.1), hcost⟩

/-- **An intent is fixed** under the caller's lease, for the nonce that is reserved. -/
theorem prepareIntentIn_ok {fees : Fees}
    (h : prepareIntentIn platform chainId rpc p fees owner token generation s = .ok (record, s')) :
    s' = s ∧ s.intents.lookup p.key = some record ∨
    s.intents.lookup p.key = none ∧ Authorized s p.key owner token rpc.recheck.toList ∧
      Change platform chainId owner token rpc.recheck.toList s s' := by
  rw [prepareIntentIn] at h
  obtain ⟨_, -, h⟩ := bind_eq_ok.mp h
  obtain ⟨_, -, h⟩ := bind_eq_ok.mp h
  obtain ⟨r, hreserved, h⟩ := bind_eq_ok.mp h
  obtain ⟨_, -, h⟩ := bind_eq_ok.mp h
  obtain ⟨_, -, h⟩ := bind_eq_ok.mp h
  obtain ⟨l, hlatest, h⟩ := bind_eq_ok.mp h
  obtain ⟨now, -, h⟩ := bind_eq_ok.mp h
  obtain ⟨_, hlive, h⟩ := bind_eq_ok.mp h
  obtain ⟨⟨call, cost⟩, hcall, h⟩ := bind_eq_ok.mp h
  obtain ⟨found, hfound, h⟩ := bind_eq_ok.mp h
  have hlatest := orRevert_eq_ok.mp hlatest
  obtain ⟨howner, htoken, -, hreleased, -⟩ := not_not.mp (revertIf_eq_ok.mp hlive)
  have hfound := intentIn_some hfound
  obtain ⟨-, hcost, -, -⟩ := intentCall_ok hcall
  cases found with
  | some old =>
    dsimp only at h
    split at h
    · cases h
    · obtain ⟨_, -, h⟩ := bind_eq_ok.mp h
      cases h
      exact .inl ⟨rfl, hfound.symm⟩
  | none =>
    obtain ⟨_, -, h⟩ := bind_eq_ok.mp h
    obtain ⟨_, -, h⟩ := bind_eq_ok.mp h
    obtain ⟨_, -, h⟩ := bind_eq_ok.mp h
    obtain ⟨pending, -, h⟩ := bind_eq_ok.mp h
    obtain ⟨_, -, h⟩ := bind_eq_ok.mp h
    obtain ⟨_, -, h⟩ := bind_eq_ok.mp h
    obtain ⟨_, -, h⟩ := bind_eq_ok.mp h
    obtain ⟨again, hagain, h⟩ := bind_eq_ok.mp h
    obtain ⟨_, hlasts, h⟩ := bind_eq_ok.mp h
    have hagain := orRevert_eq_ok.mp hagain
    have hlasts := (not_or.mp (revertIf_eq_ok.mp hlasts)).1
    cases h
    have hauthorized : Authorized s p.key owner token rpc.recheck.toList :=
      ⟨l, hlatest, howner, htoken, hreleased, again, by rw [hagain]; exact List.mem_singleton_self _,
        not_le.mp hlasts⟩
    exact .inr ⟨hfound.symm, hauthorized,
      .intended hauthorized hfound.symm (orRevert_eq_ok.mp hreserved) rfl hcost⟩

/-- **Signed bytes are attached** to the intent under the caller's lease. -/
theorem attachSigned_ok {digest : Bytes32} {tx : SignedTransaction}
    (h : attachSigned platform chainId rpc key digest owner token generation raw s
      = .ok (tx, s')) :
    s' = s ∨ Change platform chainId owner token rpc.recheck.toList s s' := by
  rw [attachSigned] at h
  obtain ⟨_, -, h⟩ := bind_eq_ok.mp h
  obtain ⟨_, -, h⟩ := bind_eq_ok.mp h
  obtain ⟨r, -, h⟩ := bind_eq_ok.mp h
  obtain ⟨_, -, h⟩ := bind_eq_ok.mp h
  obtain ⟨_, -, h⟩ := bind_eq_ok.mp h
  obtain ⟨l, hlatest, h⟩ := bind_eq_ok.mp h
  obtain ⟨now, -, h⟩ := bind_eq_ok.mp h
  obtain ⟨_, hlive, h⟩ := bind_eq_ok.mp h
  obtain ⟨found, hfound, h⟩ := bind_eq_ok.mp h
  obtain ⟨record, hrecord, h⟩ := bind_eq_ok.mp h
  obtain ⟨_, hdigest, h⟩ := bind_eq_ok.mp h
  obtain ⟨_, -, h⟩ := bind_eq_ok.mp h
  obtain ⟨signed, hsigned, h⟩ := bind_eq_ok.mp h
  obtain ⟨existing, hexisting, h⟩ := bind_eq_ok.mp h
  have hlatest := orRevert_eq_ok.mp hlatest
  obtain ⟨howner, htoken, -, hreleased, -⟩ := not_not.mp (revertIf_eq_ok.mp hlive)
  have hstored : s.intents.lookup key = some record :=
    (intentIn_some hfound).symm.trans (orRevert_eq_ok.mp hrecord)
  cases existing with
  | some old =>
    obtain ⟨_, -, h⟩ := bind_eq_ok.mp h
    cases h
    exact .inl rfl
  | none =>
    obtain ⟨again, hagain, h⟩ := bind_eq_ok.mp h
    obtain ⟨_, hlasts, h⟩ := bind_eq_ok.mp h
    have hagain := orRevert_eq_ok.mp hagain
    obtain rfl := not_ne_iff.mp (revertIf_eq_ok.mp hdigest)
    cases h
    have hauthorized : Authorized s key owner token rpc.recheck.toList :=
      ⟨l, hlatest, howner, htoken, hreleased, again, by rw [hagain]; exact List.mem_singleton_self _,
        not_le.mp (revertIf_eq_ok.mp hlasts)⟩
    exact .inr (.attached hauthorized (signedIn_none hexisting) hstored hsigned)

/-- **The signer is asked** under the caller's lease, and only if it was not asked before. -/
theorem sign_ok {clock : Option Time} {digest : Bytes32} {outcome : SignOutcome}
    (h : sign platform chainId clock key digest owner token generation s = .ok (outcome, s')) :
    s' = s ∧ outcome.errand key = none ∨
    ∃ record, outcome = .invoke record ∧ s.intents.lookup key = some record ∧
      s.signRequests.lookup key = none ∧ (s'.signRequests.lookup key).isSome = true ∧
      Change platform chainId owner token clock.toList s s' := by
  rw [sign] at h
  obtain ⟨_, -, h⟩ := bind_eq_ok.mp h
  obtain ⟨_, -, h⟩ := bind_eq_ok.mp h
  obtain ⟨r, -, h⟩ := bind_eq_ok.mp h
  obtain ⟨_, -, h⟩ := bind_eq_ok.mp h
  obtain ⟨_, hgeneration, h⟩ := bind_eq_ok.mp h
  obtain ⟨found, hfound, h⟩ := bind_eq_ok.mp h
  obtain ⟨record, hrecord, h⟩ := bind_eq_ok.mp h
  obtain ⟨_, hdigest, h⟩ := bind_eq_ok.mp h
  obtain ⟨_, hvalid, h⟩ := bind_eq_ok.mp h
  obtain ⟨l, hlatest, h⟩ := bind_eq_ok.mp h
  obtain ⟨_, hlease, h⟩ := bind_eq_ok.mp h
  obtain ⟨existing, -, h⟩ := bind_eq_ok.mp h
  have hstored : s.intents.lookup key = some record :=
    (intentIn_some hfound).symm.trans (orRevert_eq_ok.mp hrecord)
  have hlatest := orRevert_eq_ok.mp hlatest
  have hlease := revertIf_eq_ok.mp hlease
  simp only [not_or, not_not, ne_eq] at hlease
  cases existing with
  | some signed =>
    cases h
    exact .inl ⟨rfl, rfl⟩
  | none =>
    dsimp only at h
    split at h
    · obtain ⟨_, -, h⟩ := bind_eq_ok.mp h
      split at h
      · cases h
        exact .inl ⟨rfl, rfl⟩
      · obtain ⟨_, -, h⟩ := bind_eq_ok.mp h
        cases h
        exact .inl ⟨rfl, rfl⟩
    · rename_i hnone
      obtain ⟨now, hnow, h⟩ := bind_eq_ok.mp h
      obtain ⟨_, hlive, h⟩ := bind_eq_ok.mp h
      have hnow := orRevert_eq_ok.mp hnow
      have hlive := not_or.mp (revertIf_eq_ok.mp hlive)
      obtain rfl := not_ne_iff.mp (revertIf_eq_ok.mp hdigest)
      obtain rfl := not_ne_iff.mp (revertIf_eq_ok.mp hgeneration)
      obtain rfl := validateIntent_ok hvalid
      cases h
      refine .inr ⟨record, rfl, hstored, hnone, ?_, ?_⟩
      · rw [AList.lookup_insert]
        rfl
      · exact .requested ⟨l, hlatest, hlease.2.1, hlease.2.2, Bool.not_eq_true _ ▸ hlive.1, now,
          by rw [hnow]; exact List.mem_singleton_self _, not_le.mp hlive.2⟩ hnone hstored

/-- What the signer returned is kept if it is valid, and never replaced. -/
theorem saveSignature_ok (hstored : s.intents.lookup key = some record)
    (h : saveSignature platform record key raw s = .ok s') :
    Change platform chainId owner token [] s s' := by
  rw [saveSignature] at h
  obtain ⟨tx, hvalid, h⟩ := bind_eq_ok.mp h
  obtain ⟨request, hrequest, h⟩ := bind_eq_ok.mp h
  obtain ⟨_, hfirst, h⟩ := bind_eq_ok.mp h
  have hfirst := revertIf_eq_ok.mp hfirst
  simp only [not_or, not_not, ne_eq] at hfirst
  cases h
  refine .answered s.signatureImports (orRevert_eq_ok.mp hrequest) hfirst.1 hstored hvalid ?_
  rintro previous hprevious
  rw [hfirst.2] at hprevious
  cases hprevious

theorem importSignature_ok {digest expectedHash : Bytes32} {tx : SignedTransaction}
    (h : importSignature platform chainId key digest expectedHash owner token generation raw s
      = .ok (tx, s')) : Change platform chainId owner token [] s s' := by
  rw [importSignature] at h
  obtain ⟨_, -, h⟩ := bind_eq_ok.mp h
  obtain ⟨_, -, h⟩ := bind_eq_ok.mp h
  obtain ⟨r, -, h⟩ := bind_eq_ok.mp h
  obtain ⟨_, -, h⟩ := bind_eq_ok.mp h
  obtain ⟨_, -, h⟩ := bind_eq_ok.mp h
  obtain ⟨found, hfound, h⟩ := bind_eq_ok.mp h
  obtain ⟨record, hrecord, h⟩ := bind_eq_ok.mp h
  obtain ⟨_, hdigest, h⟩ := bind_eq_ok.mp h
  obtain ⟨_, -, h⟩ := bind_eq_ok.mp h
  obtain ⟨l, -, h⟩ := bind_eq_ok.mp h
  obtain ⟨_, -, h⟩ := bind_eq_ok.mp h
  obtain ⟨request, hrequest, h⟩ := bind_eq_ok.mp h
  obtain ⟨_, hsame, h⟩ := bind_eq_ok.mp h
  have hstored : s.intents.lookup key = some record :=
    (intentIn_some hfound).symm.trans (orRevert_eq_ok.mp hrecord)
  split at h
  · cases h
  · rename_i signed hvalid
    obtain ⟨_, -, h⟩ := bind_eq_ok.mp h
    obtain ⟨_, hfixed, h⟩ := bind_eq_ok.mp h
    obtain ⟨existing, -, h⟩ := bind_eq_ok.mp h
    obtain ⟨status, -, h⟩ := bind_eq_ok.mp h
    obtain ⟨_, -, h⟩ := bind_eq_ok.mp h
    have hsame := revertIf_eq_ok.mp hsame
    have hfixed := revertIf_eq_ok.mp hfixed
    simp only [not_or, not_not, ne_eq] at hsame
    simp only [not_exists, not_and, not_not, ne_eq] at hfixed
    have hdigest := not_ne_iff.mp (revertIf_eq_ok.mp hdigest)
    cases h
    exact .answered _ (orRevert_eq_ok.mp hrequest) (hsame.1.trans hdigest.symm) hstored hvalid
      hfixed

/-- **A budget is set** without what it has allocated, which the new limit covers. -/
theorem setGasBudget_ok {genesisHash : Bytes32} {sender : Address}
    {maxTransaction maximumTotal : Decimal} {requestId : Bytes32} {b : GasBudget}
    (h : setGasBudget chainId genesisHash sender maxTransaction maximumTotal requestId s
      = .ok (b, s')) : Change platform chainId owner token [] s s' := by
  rw [setGasBudget] at h
  obtain ⟨limit, -, h⟩ := bind_eq_ok.mp h
  obtain ⟨total, -, h⟩ := bind_eq_ok.mp h
  obtain ⟨_, hinput, h⟩ := bind_eq_ok.mp h
  have hinput := revertIf_eq_ok.mp hinput
  simp only [not_or, not_lt] at hinput
  dsimp only at h
  split at h
  · rename_i old hold
    obtain ⟨_, -, h⟩ := bind_eq_ok.mp h
    cases h
    refine .rewritten (AList.lookup_isSome.mp (Option.isSome_iff_exists.mpr ⟨_, hold⟩)) ?_
    rintro b' hb'
    rw [Option.mem_def.mp hb']
    rfl
  · rename_i hnone
    obtain ⟨_, hallocated, h⟩ := bind_eq_ok.mp h
    obtain ⟨_, -, h⟩ := bind_eq_ok.mp h
    have hallocated := not_lt.mp (revertIf_eq_ok.mp hallocated)
    cases h
    refine .budgeted (b := (s.budgets.lookup ⟨chainId, genesisHash, sender⟩).getD
      ⟨0, limit, total, 0⟩) hnone ?_ rfl rfl hallocated hinput.2.2.2.2.2.2
    cases hbudget : s.budgets.lookup ⟨chainId, genesisHash, sender⟩ with
    | none => exact .inr ⟨rfl, rfl, rfl⟩
    | some b => exact .inl rfl

/-- What is to be submitted: a signed transaction of a stored intent. -/
theorem submissionMaterial_ok {signed : SignedTransaction}
    (h : submissionMaterial platform chainId key s = .ok (record, signed)) :
    s.intents.lookup key = some record ∧ ∃ row, s.signed.lookup key = some row ∧
      row.intentDigest = record.digest ∧ signed.transactionHash = row.transactionHash ∧
      signed.rawTransaction = row.rawTransaction ∧ signed.intentDigest = record.digest ∧
      signed.jobKey = record.intent.reservation.jobKey := by
  rw [submissionMaterial] at h
  obtain ⟨⟨r, _⟩, hmaterial, h⟩ := bind_eq_ok.mp h
  obtain ⟨existing, hexisting, h⟩ := bind_eq_ok.mp h
  obtain ⟨_, hsome, h⟩ := bind_eq_ok.mp h
  cases h
  obtain rfl := orRevert_eq_ok.mp hsome
  rw [intentMaterial] at hmaterial
  obtain ⟨_, -, h⟩ := bind_eq_ok.mp hmaterial
  obtain ⟨_, -, h⟩ := bind_eq_ok.mp h
  obtain ⟨_, -, h⟩ := bind_eq_ok.mp h
  obtain ⟨found, hfound, h⟩ := bind_eq_ok.mp h
  obtain ⟨_, hrecord, h⟩ := bind_eq_ok.mp h
  obtain ⟨_, -, h⟩ := bind_eq_ok.mp h
  cases h
  obtain ⟨row, hrow, hvalid, hdigest, hhash⟩ := signedIn_some hexisting
  obtain ⟨hjob, hintent, hraw, -⟩ := validateSigned_ok hvalid
  exact ⟨(intentIn_some hfound).symm.trans (orRevert_eq_ok.mp hrecord), row, hrow, hdigest, hhash,
    hraw, hintent, hjob⟩

/-- **A charge fits** into the budget of the account. -/
theorem chargeGasBudgetIn_ok (h : chargeGasBudgetIn chainId record s = .ok s') :
    ∃ b, s.budgets.lookup ⟨chainId, record.intent.reservation.genesisHash,
        record.intent.reservation.sender⟩ = some b ∧ 1 ≤ b.revision ∧
      0 < record.intent.maximumGasCost ∧ record.intent.maximumGasCost ≤ b.maxTransaction ∧
      b.allocated + record.intent.maximumGasCost ≤ b.maximumTotal ∧
      s' = { s with
        budgets := s.budgets.insert ⟨chainId, record.intent.reservation.genesisHash,
          record.intent.reservation.sender⟩
          { b with allocated := b.allocated + record.intent.maximumGasCost }
        charges := s.charges.insert record.intent.reservation.jobKey
          ⟨⟨chainId, record.intent.reservation.genesisHash, record.intent.reservation.sender⟩,
            b.revision, record.intent.maximumGasCost⟩ } := by
  rw [chargeGasBudgetIn] at h
  obtain ⟨b, hb, h⟩ := bind_eq_ok.mp h
  obtain ⟨_, hrevision, h⟩ := bind_eq_ok.mp h
  obtain ⟨_, hcost, h⟩ := bind_eq_ok.mp h
  obtain ⟨_, hfits, h⟩ := bind_eq_ok.mp h
  have hrevision := not_lt.mp (revertIf_eq_ok.mp hrevision)
  have hcost := (not_or.mp (revertIf_eq_ok.mp hcost)).1
  have hfits := not_or.mp (revertIf_eq_ok.mp hfits)
  cases h
  exact ⟨b, orRevert_eq_ok.mp hb, hrevision, Nat.pos_of_ne_zero hcost, not_lt.mp hfits.1,
    not_lt.mp hfits.2, rfl⟩

/-- **A transaction is submitted** under the caller's lease, once, at the cost of the budget. -/
theorem submit_ok {expectedHash : Bytes32} {out : Submission} {sending : Option Sending}
    (hkeyed : ∀ record ∈ s.intents.lookup p.key, record.intent.reservation.jobKey = p.key)
    (h : submit platform chainId rpc p expectedHash owner token generation s
      = .ok ((out, sending), s')) :
    s' = s ∧ sending = none ∨
    out.jobKey = p.key ∧ ∃ row, s.signed.lookup p.key = some row ∧
      sending = some (.submission out row.rawTransaction) ∧
      s.submissions.lookup p.key = none ∧ s'.submissions.lookup p.key = some out ∧
      Change platform chainId owner token rpc.last.toList s s' := by
  rw [submit] at h
  obtain ⟨_, -, h⟩ := bind_eq_ok.mp h
  obtain ⟨⟨record, signed⟩, hmaterial, h⟩ := bind_eq_ok.mp h
  obtain ⟨_, -, h⟩ := bind_eq_ok.mp h
  obtain ⟨l, hlatest, h⟩ := bind_eq_ok.mp h
  obtain ⟨_, hlease, h⟩ := bind_eq_ok.mp h
  obtain ⟨existing, hexisting, h⟩ := bind_eq_ok.mp h
  have hlatest := orRevert_eq_ok.mp hlatest
  have hlease := revertIf_eq_ok.mp hlease
  simp only [not_or, not_not, ne_eq] at hlease
  obtain ⟨hstored, row, hrow, hdigest, hhash, hraw, hintent, hjob⟩ :=
    submissionMaterial_ok hmaterial
  rw [hkeyed record hstored] at hjob
  cases existing with
  | some old =>
    cases h
    exact .inl ⟨rfl, rfl⟩
  | none =>
    obtain ⟨now, -, h⟩ := bind_eq_ok.mp h
    obtain ⟨_, hlive, h⟩ := bind_eq_ok.mp h
    obtain ⟨_, -, h⟩ := bind_eq_ok.mp h
    obtain ⟨_, -, h⟩ := bind_eq_ok.mp h
    obtain ⟨_, -, h⟩ := bind_eq_ok.mp h
    obtain ⟨pending, -, h⟩ := bind_eq_ok.mp h
    obtain ⟨_, -, h⟩ := bind_eq_ok.mp h
    obtain ⟨_, -, h⟩ := bind_eq_ok.mp h
    obtain ⟨_, -, h⟩ := bind_eq_ok.mp h
    obtain ⟨again, -, h⟩ := bind_eq_ok.mp h
    obtain ⟨_, -, h⟩ := bind_eq_ok.mp h
    obtain ⟨charged, hcharge, h⟩ := bind_eq_ok.mp h
    obtain ⟨last, hlast, h⟩ := bind_eq_ok.mp h
    obtain ⟨_, hlasts, h⟩ := bind_eq_ok.mp h
    have hreleased := (not_or.mp (revertIf_eq_ok.mp hlive)).1
    have hlast := orRevert_eq_ok.mp hlast
    have hlasts := (not_or.mp (revertIf_eq_ok.mp hlasts)).1
    have hnone : s.submissions.lookup p.key = none := by
      rw [submissionIn, hjob] at hexisting
      split at hexisting
      · assumption
      · obtain ⟨_, -, hfound⟩ := bind_eq_ok.mp hexisting
        obtain ⟨_, -, hfound⟩ := bind_eq_ok.mp hfound
        cases hfound
    obtain ⟨b, hb, hrevision, hpos, hmax, htotal, rfl⟩ := chargeGasBudgetIn_ok hcharge
    have hauthorized : Authorized s p.key owner token rpc.last.toList :=
      ⟨l, hlatest, hlease.1, hlease.2.1, Bool.not_eq_true _ ▸ hreleased, last,
        by rw [hlast]; exact List.mem_singleton_self _, not_le.mp hlasts⟩
    cases h
    refine .inr ⟨rfl, row, hrow, by rw [hraw], hnone, AList.lookup_insert _, ?_⟩
    exact .submitted hauthorized hnone hstored hrow rfl hdigest.symm hhash hb hrevision hpos hmax
      htotal

/-- **A transaction is sent again** only if it was submitted, and once for each attempt. -/
theorem rebroadcast_ok {expectedHash attempt : Bytes32} {out : Rebroadcast}
    {sending : Option Sending}
    (hkeyed : ∀ record ∈ s.intents.lookup p.key, record.intent.reservation.jobKey = p.key)
    (h : rebroadcast platform chainId rpc p expectedHash attempt s
      = .ok ((out, sending), s')) :
    s' = s ∧ sending = none ∨
    out.jobKey = p.key ∧ ∃ row, s.signed.lookup p.key = some row ∧
      sending = some (.rebroadcast out row.rawTransaction) ∧
      s.rebroadcasts.lookup (p.key, out.attemptId) = none ∧
      s'.rebroadcasts.lookup (p.key, out.attemptId) = some out ∧
      Change platform chainId owner token [] s s' := by
  rw [rebroadcast] at h
  obtain ⟨_, -, h⟩ := bind_eq_ok.mp h
  obtain ⟨⟨record, signed⟩, hmaterial, h⟩ := bind_eq_ok.mp h
  obtain ⟨_, -, h⟩ := bind_eq_ok.mp h
  obtain ⟨submitted, hsubmitted, h⟩ := bind_eq_ok.mp h
  obtain ⟨x, hx, h⟩ := bind_eq_ok.mp h
  obtain ⟨existing, hexisting, h⟩ := bind_eq_ok.mp h
  obtain ⟨hstored, row, hrow, hdigest, hhash, hraw, hintent, hjob⟩ :=
    submissionMaterial_ok hmaterial
  rw [hkeyed record hstored] at hjob
  obtain rfl := orRevert_eq_ok.mp hx
  have hsent : s.submissions.lookup p.key = some x ∧ signed.transactionHash = x.transactionHash := by
    rw [submissionIn, hjob] at hsubmitted
    split at hsubmitted
    · cases hsubmitted
    · rename_i stored hlookup
      obtain ⟨_, hsame, hfound⟩ := bind_eq_ok.mp hsubmitted
      obtain ⟨_, -, hfound⟩ := bind_eq_ok.mp hfound
      have hsame := revertIf_eq_ok.mp hsame
      simp only [not_or, not_not, ne_eq] at hsame
      cases hfound
      exact ⟨hlookup, hsame.2.symm⟩
  cases existing with
  | some old =>
    cases h
    exact .inl ⟨rfl, rfl⟩
  | none =>
    obtain ⟨_, -, h⟩ := bind_eq_ok.mp h
    obtain ⟨_, -, h⟩ := bind_eq_ok.mp h
    obtain ⟨now, -, h⟩ := bind_eq_ok.mp h
    obtain ⟨_, -, h⟩ := bind_eq_ok.mp h
    obtain ⟨_, -, h⟩ := bind_eq_ok.mp h
    obtain ⟨_, -, h⟩ := bind_eq_ok.mp h
    obtain ⟨confirmed, -, h⟩ := bind_eq_ok.mp h
    obtain ⟨_, -, h⟩ := bind_eq_ok.mp h
    obtain ⟨_, -, h⟩ := bind_eq_ok.mp h
    obtain ⟨_, -, h⟩ := bind_eq_ok.mp h
    obtain ⟨again, -, h⟩ := bind_eq_ok.mp h
    obtain ⟨_, -, h⟩ := bind_eq_ok.mp h
    have hnone : s.rebroadcasts.lookup (p.key, attempt) = none := by
      rw [rebroadcastIn, hjob] at hexisting
      split at hexisting
      · assumption
      · obtain ⟨_, -, hfound⟩ := bind_eq_ok.mp hexisting
        obtain ⟨_, -, hfound⟩ := bind_eq_ok.mp hfound
        cases hfound
    cases h
    refine .inr ⟨rfl, row, hrow, by rw [hraw], hnone, AList.lookup_insert _, ?_⟩
    let out : Rebroadcast :=
      ⟨p.key, attempt, signed.transactionHash, platform.hash (.preview p), .submissionUnknown⟩
    exact @Change.resent _ _ _ _ _ s out _ hnone hsent.1 hsent.2

/-- The network's answer is recorded, and changes nothing else. -/
theorem acknowledge_ok {sending : Sending} (h : acknowledge sending s = .ok s') :
    Change platform chainId owner token [] s s' := by
  cases sending with
  | submission row raw =>
    obtain ⟨_, hrow, h⟩ := bind_eq_ok.mp h
    cases h
    exact .acknowledged .acknowledged (not_ne_iff.mp (revertIf_eq_ok.mp hrow))
  | rebroadcast row raw =>
    obtain ⟨_, hrow, h⟩ := bind_eq_ok.mp h
    cases h
    exact .acknowledgedAgain .acknowledged (not_ne_iff.mp (revertIf_eq_ok.mp hrow))

/-- **A recovered authorization** is that of the same generation. -/
theorem recoverAuthorization_ok {digest recoveryId : Bytes32} {out : AuthorizationRecovery}
    (h : recoverAuthorization platform chainId rpc p digest owner token generation recoveryId s
      = .ok (out, s')) :
    s' = s ∨ Commits platform chainId owner token [] s none s' := by
  rw [recoverAuthorization] at h
  obtain ⟨_, -, h⟩ := bind_eq_ok.mp h
  obtain ⟨_, -, h⟩ := bind_eq_ok.mp h
  obtain ⟨r, -, h⟩ := bind_eq_ok.mp h
  obtain ⟨_, -, h⟩ := bind_eq_ok.mp h
  obtain ⟨_, -, h⟩ := bind_eq_ok.mp h
  obtain ⟨found, -, h⟩ := bind_eq_ok.mp h
  obtain ⟨record, -, h⟩ := bind_eq_ok.mp h
  obtain ⟨_, -, h⟩ := bind_eq_ok.mp h
  obtain ⟨_, -, h⟩ := bind_eq_ok.mp h
  obtain ⟨l, hlatest, h⟩ := bind_eq_ok.mp h
  obtain ⟨_, -, h⟩ := bind_eq_ok.mp h
  split at h
  · obtain ⟨_, -, h⟩ := bind_eq_ok.mp h
    cases h
    exact .inl rfl
  · obtain ⟨_, -, h⟩ := bind_eq_ok.mp h
    obtain ⟨_, -, h⟩ := bind_eq_ok.mp h
    obtain ⟨_, -, h⟩ := bind_eq_ok.mp h
    obtain ⟨now, -, h⟩ := bind_eq_ok.mp h
    obtain ⟨_, -, h⟩ := bind_eq_ok.mp h
    obtain ⟨_, -, h⟩ := bind_eq_ok.mp h
    obtain ⟨_, -, h⟩ := bind_eq_ok.mp h
    obtain ⟨_, -, h⟩ := bind_eq_ok.mp h
    obtain ⟨pending, -, h⟩ := bind_eq_ok.mp h
    obtain ⟨_, -, h⟩ := bind_eq_ok.mp h
    obtain ⟨_, -, h⟩ := bind_eq_ok.mp h
    obtain ⟨_, -, h⟩ := bind_eq_ok.mp h
    obtain ⟨again, -, h⟩ := bind_eq_ok.mp h
    obtain ⟨_, -, h⟩ := bind_eq_ok.mp h
    obtain ⟨⟨saved, recorded⟩, hrecord, h⟩ := bind_eq_ok.mp h
    obtain ⟨jobs, simulations, rfl⟩ := recordIn_ok hrecord
    cases h
    let extended : Lease := { l with expiresAt := again + seconds l.ttlSeconds }
    exact .inr (@Commits.prolongs _ _ _ _ _ s _ _ extended jobs simulations _
      (orRevert_eq_ok.mp hlatest) rfl rfl)

/-- The intents are those of the reservations of their jobs. -/
def Store.Keyed (s : Store) : Prop :=
  ∀ key, ∀ record ∈ s.intents.lookup key,
    s.reservations.lookup key = some record.intent.reservation ∧
      record.intent.reservation.jobKey = key

/-- Whose a job is, is read from the leases. -/
theorem Authorized.congr {checked : List Time} (hleases : s'.leases = s.leases)
    (h : Authorized s key owner token checked) : Authorized s' key owner token checked := by
  rwa [Authorized, latestLease, Store.leasesOf, hleases]

/-- **A preparation** records, leases, reserves and fixes, each only if it was not done before. The
lease that it reserves the nonce for lasts until the intent is fixed: a nonce that is new is that
of an intent that is new. -/
theorem prepare_ok {clock : Option Time} {reserving preparing : Answers} {fees : Fees} {ttl : ℕ}
    {out : Lease × IntentRecord} (hkeyed : s.Keyed)
    (h : prepare platform chainId clock reserving preparing p fees owner token ttl s
      = .ok (out, s')) :
    ReflTransGen (Change platform chainId owner token preparing.recheck.toList) s s' := by
  rw [prepare] at h
  obtain ⟨_, -, h⟩ := bind_eq_ok.mp h
  obtain ⟨_, -, h⟩ := bind_eq_ok.mp h
  obtain ⟨⟨saved, s₁⟩, hrecord, h⟩ := bind_eq_ok.mp h
  obtain ⟨⟨l, s₂⟩, hlease, h⟩ := bind_eq_ok.mp h
  obtain ⟨⟨r, s₃⟩, hreserve, h⟩ := bind_eq_ok.mp h
  obtain ⟨⟨record, s₄⟩, hintent, h⟩ := bind_eq_ok.mp h
  cases h
  have hrecorded : ReflTransGen (Change platform chainId owner token preparing.recheck.toList)
      s s₁ ∧ s₁.Keyed := by
    obtain ⟨jobs, simulations, rfl⟩ := recordIn_ok hrecord
    exact ⟨.single (.recorded jobs simulations), hkeyed⟩
  have hleased : ReflTransGen (Change platform chainId owner token preparing.recheck.toList)
      s₁ s₂ ∧ s₂.Keyed := by
    rcases acquireLeaseIn_ok hlease with rfl | ⟨hnone, hnew, hgeneration, rfl⟩
    · exact ⟨.refl, hrecorded.2⟩
    · exact ⟨.single (.issued hnone hnew hgeneration), hrecorded.2⟩
  refine (hrecorded.1.trans hleased.1).trans ?_
  rcases reserveNonceIn_ok hreserve with rfl | ⟨hnone, hleases, hintents, -, hreserved⟩
  · rcases prepareIntentIn_ok hintent with ⟨rfl, -⟩ | ⟨-, -, hchange⟩
    · exact .refl
    · exact .single hchange
  · have hnew : s₃.intents.lookup p.key = none := by
      rw [hintents]
      refine Option.eq_none_iff_forall_ne_some.mpr fun i hi => ?_
      exact Option.some_ne_none _ ((hleased.2 p.key i hi).1.symm.trans hnone)
    rcases prepareIntentIn_ok hintent with ⟨-, hold⟩ | ⟨-, hauthorized, hchange⟩
    · cases hnew.symm.trans hold
    · -- the lease is that of the reservation, and was looked at last for the intent
      exact .tail (.single (hreserved _ (hauthorized.congr hleases.symm))) hchange

/-! ### The calls -/

/-- The lease that a call is made for. -/
def Call.holder : Call → String × Bytes32
  | .acquireLease _ owner token .. => (owner, token)
  | .changeLease _ owner token .. => (owner, token)
  | .reserveNonce _ _ owner token _ => (owner, token)
  | .prepareIntent _ _ _ owner token _ => (owner, token)
  | .prepare _ _ _ _ _ owner token _ => (owner, token)
  | .attachSigned _ _ _ owner token .. => (owner, token)
  | .sign _ _ _ owner token _ => (owner, token)
  | .importSignature _ _ _ owner token .. => (owner, token)
  | .submit _ _ _ owner token _ => (owner, token)
  | .recoverAuthorization _ _ _ owner token .. => (owner, token)
  | .record _ | .setGasBudget .. | .rebroadcast .. | .claimSettlement _ => ("", 0)

/-- What a call reads from the clock last, after its waits, before it creates something. A preparation
reads it once more for the intent than for the nonce. -/
def Call.checked : Call → List Time
  | .reserveNonce rpc .. | .prepareIntent rpc .. | .attachSigned rpc .. => rpc.recheck.toList
  | .prepare _ _ preparing .. => preparing.recheck.toList
  | .sign clock .. => clock.toList
  | .submit rpc .. => rpc.last.toList
  | .record _ | .acquireLease .. | .changeLease .. | .importSignature .. | .setGasBudget ..
  | .rebroadcast .. | .recoverAuthorization .. | .claimSettlement _ => []

/-- **What a call does**, whatever it is. -/
theorem exec_commits {c : Call} {errand : Option Errand}
    (hkeyed : s.Keyed) (h : s.exec platform chainId c = .ok (s', errand)) :
    Commits platform chainId c.holder.1 c.holder.2 c.checked s errand s' := by
  cases c with
  | record p =>
    obtain ⟨⟨_, _⟩, hcall, h⟩ := bind_eq_ok.mp h
    cases h
    obtain ⟨jobs, simulations, rfl⟩ := recordIn_ok hcall
    exact .changes (.single (.recorded jobs simulations))
  | acquireLease key owner token ttl clock =>
    obtain ⟨⟨_, _⟩, hcall, h⟩ := bind_eq_ok.mp h
    cases h
    rcases acquireLeaseIn_ok hcall with rfl | ⟨hnone, hnew, hgeneration, rfl⟩
    · exact .changes .refl
    · exact .changes (.single (.issued hnone hnew hgeneration))
  | changeLease key owner token generation release clock =>
    obtain ⟨⟨_, _⟩, hcall, h⟩ := bind_eq_ok.mp h
    cases h
    rcases changeLease_ok hcall with rfl | ⟨previous, hlatest, hgeneration, htoken, rfl⟩
    · exact .changes .refl
    · exact .prolongs s.jobs s.simulations s.recoveries hlatest hgeneration htoken
  | reserveNonce rpc p owner token generation =>
    obtain ⟨⟨_, _⟩, hcall, h⟩ := bind_eq_ok.mp h
    cases h
    rcases reserveNonceIn_ok hcall with rfl | ⟨-, -, -, hauthorized, hchange⟩
    · exact .changes .refl
    · exact .changes (.single (hchange _ hauthorized))
  | prepareIntent rpc p fees owner token generation =>
    obtain ⟨⟨_, _⟩, hcall, h⟩ := bind_eq_ok.mp h
    cases h
    rcases prepareIntentIn_ok hcall with ⟨rfl, -⟩ | ⟨-, -, hchange⟩
    · exact .changes .refl
    · exact .changes (.single hchange)
  | prepare clock reserving preparing p fees owner token ttl =>
    obtain ⟨⟨_, _⟩, hcall, h⟩ := bind_eq_ok.mp h
    cases h
    exact .changes (prepare_ok hkeyed hcall)
  | attachSigned rpc key digest owner token generation raw =>
    obtain ⟨⟨_, _⟩, hcall, h⟩ := bind_eq_ok.mp h
    cases h
    rcases attachSigned_ok hcall with rfl | hchange
    · exact .changes .refl
    · exact .changes (.single hchange)
  | sign clock key digest owner token generation =>
    obtain ⟨⟨outcome, _⟩, hcall, h⟩ := bind_eq_ok.mp h
    cases h
    rcases sign_ok hcall with ⟨rfl, hquiet⟩ | ⟨record, rfl, hrecord, hnone, hsome, hchange⟩
    · rw [hquiet]
      exact .changes .refl
    · exact .asks hchange hrecord hnone hsome
  | importSignature key digest expectedHash owner token generation raw =>
    obtain ⟨⟨_, _⟩, hcall, h⟩ := bind_eq_ok.mp h
    cases h
    exact .changes (.single (importSignature_ok hcall))
  | setGasBudget genesisHash sender maxTransaction maximumTotal requestId =>
    obtain ⟨⟨_, _⟩, hcall, h⟩ := bind_eq_ok.mp h
    cases h
    exact .changes (.single (setGasBudget_ok hcall))
  | submit rpc p expectedHash owner token generation =>
    obtain ⟨⟨⟨out, sending⟩, _⟩, hcall, h⟩ := bind_eq_ok.mp h
    cases h
    rcases submit_ok (fun record hi => (hkeyed p.key record hi).2) hcall with
      ⟨rfl, rfl⟩ | ⟨hkey, row, hrow, rfl, hnone, hsome, hchange⟩
    · exact .changes .refl
    · rw [← hkey] at hrow hnone hsome
      exact .submits hchange hrow hnone hsome
  | rebroadcast rpc p expectedHash attempt =>
    obtain ⟨⟨⟨out, sending⟩, _⟩, hcall, h⟩ := bind_eq_ok.mp h
    cases h
    rcases rebroadcast_ok (fun record hi => (hkeyed p.key record hi).2) hcall with
      ⟨rfl, rfl⟩ | ⟨hkey, row, hrow, rfl, hnone, hsome, hchange⟩
    · exact .changes .refl
    · rw [← hkey] at hrow hnone hsome
      exact .resends hchange hrow hnone hsome
  | recoverAuthorization rpc p digest owner token generation recoveryId =>
    obtain ⟨⟨_, _⟩, hcall, h⟩ := bind_eq_ok.mp h
    cases h
    rcases recoverAuthorization_ok hcall with rfl | hcommits
    · exact .changes .refl
    · exact hcommits
  | claimSettlement account =>
    obtain ⟨_, hcall, h⟩ := bind_eq_ok.mp h
    cases h
    obtain ⟨hrole, rfl⟩ := claim_ok hcall
    exact .changes (.single (.claimed hrole))

end Maintenance

end Backend

end TickerGarden
