import Mathlib.Algebra.BigOperators.Ring.Finset
import TickerGarden.Backend.MaintenanceRuns

/-!
# What leaves the database of maintenance transactions

The workers and the network, in any order and with a process stopping anywhere: what was sent, and
what the signer was asked for, is backed by rows that were committed before, and nothing leaves
twice (`Delivered`). From this and from the tables (`Backend/MaintenanceRuns`):

* `single_generation`: what is stored of a job is of one lease, and stays;
* `distinct_nonces`: the nonces of an account are different;
* `sent_once`: the network gets the bytes that are stored and charged, once for each attempt;
* `no_conflicting_sends`: of two transactions with the nonce of one account, the network only ever
  gets one;
* `spent_within_budget`: what was sent for an account cannot cost more than its budget;
* `asked_once`: the signer is asked once for each job, for the intent that is fixed;
* `created_by_holder`: a worker whose lease has ended, or was taken over, creates nothing.
-/

namespace TickerGarden

open Checked Relation Table Transition

namespace Backend

namespace Maintenance

/-! ### Two jobs of one account -/

namespace Sample

/-- A hash that tells apart the documents below. -/
def hash : Document → Bytes32
  | .text _ => 0
  | .requestKey _ _ _ _ _ _ request => request.triggerId
  | .identity v => 10 + 2 * v.request.triggerId + if v.target = none then 0 else 1
  | .preview p => 100 + p.request.triggerId
  | .intent i => 1000 + BitVec.ofNat 256 i.reservation.nonce

/-- A transaction is its nonce, and everybody signs as the account 2. -/
def platform : Platform where
  hash := hash
  unmarshalBinary raw := raw.head?.map fun nonce =>
    ⟨2, some 3, 0, 4663, nonce.toNat, 21000, 2, 1, 0, [0, 0, 0, 0]⟩
  marshalBinary := some
  transactionHash raw := BitVec.ofNat 256 (2000 + (raw.headD 0).toNat)
  sender _ _ := some 2

/-- A sweep of the market 1, in block 7. -/
def preview (trigger : Bytes32) : MaintenancePreview where
  genesisHash := 9
  blockTimestamp := 1000
  request := ⟨.sweep, 1, trigger, none⟩
  key := trigger
  chainId := 4663
  blockNumber := 7
  blockHash := 8
  fromAddress := 2
  toAddress := 3
  data := [0, 0, 0, 0]
  value := "0x0"
  moduleName := "TickerGardenCurve"
  signature := "sweepCurveFees()"
  returnValues := some [("sweptAmount", .uint256 5)]
  status := "simulated"
  transactionSubmission := false
  executionComplete := false

/-- A node that agrees with the preview, one second later. -/
def answers : Answers where
  now := some 1001000000
  recheck := some 1001000000
  last := some 1001000000
  chainId := some 4663
  genesis := some ⟨0, 0, 9, 0⟩
  block := some ⟨1000, 7, 8, 0⟩
  pendingNonce := some 0
  nonceAtHash := some 0
  receipt := some false
  simulation := some (wordBytes 5)

/-- The fees that are offered for each job, as the caller writes them. -/
def fees : Fees := ⟨some 21000, some 2, some 1⟩

/-- The intent of a job with a nonce. -/
def record (trigger : Bytes32) (nonce : ℕ) : IntentRecord :=
  let r : Reservation := ⟨trigger, 1, 4663, 9, 2, nonce, 100 + trigger, "nonce_reserved"⟩
  ⟨1000 + BitVec.ofNat 256 nonce, ⟨r, ⟨2, 3, [0, 0, 0, 0], "0x0", 21000, nonce, 2, 1⟩,
    100 + trigger, 8, 7, 1000, 42000, "0x2", "intent_prepared"⟩⟩

/-- The first sending of a job, with its nonce as the bytes that were signed. -/
def sending (trigger : Bytes32) (nonce : UInt8) : Sending :=
  .submission ⟨trigger, (record trigger nonce.toNat).digest,
    BitVec.ofNat 256 (2000 + nonce.toNat), 100 + trigger, .submissionUnknown⟩ [nonce]

/-- The bytes of the first job, sent again. -/
def again : Sending := .rebroadcast ⟨1, 1000, 2000, 101, .submissionUnknown⟩ [0]

/-- The preparation of a job by the one worker of the sample. -/
def preparation (trigger : Bytes32) : Call :=
  .prepare answers.now answers answers (preview trigger) fees "worker" 5 60

/-- What follows a preparation, up to the first sending: the signer is asked and answers, and the
bytes are attached and sent. -/
def submitted (trigger : Bytes32) (nonce : UInt8) : List Event :=
  [.call (.sign answers.now trigger (record trigger nonce.toNat).digest "worker" 5 1),
   .askSigner trigger (record trigger nonce.toNat),
   .saveSignature trigger (record trigger nonce.toNat) [nonce],
   .call (.attachSigned answers trigger (record trigger nonce.toNat).digest "worker" 5 1 [nonce]),
   .call (.submit answers (preview trigger) (BitVec.ofNat 256 (2000 + nonce.toNat)) "worker" 5 1),
   .broadcast (sending trigger nonce)]

/-- The budget of the account, for two transactions and some more. -/
def budgeted : Event := .call (.setGasBudget 9 2 (some 50000) (some 100000) 1)

/-- The account of the settlements. -/
def settlements : Account := ⟨4663, 9, 7⟩

/-- The first job, which is sent twice, and then the second. -/
def events : List Event :=
  submitted 1 0 ++ [.acknowledge (sending 1 0),
    .call (.rebroadcast answers (preview 1) 2000 1000), .broadcast again,
    .call (preparation 2)] ++ submitted 2 1

/-- The first preparation. -/
def preparing : Except MaintenanceError (Store × Option Errand) :=
  (System.initial ∅).store.exec platform 4663 (preparation 1)

theorem preparing_isOk : preparing.isOk = true := by decide +kernel

/-- The store after the first preparation. -/
def prepared : Store := (value preparing preparing_isOk).1

/-- The events before the first sending. -/
def starting : List Event :=
  [budgeted, .call (.claimSettlement settlements), .call (preparation 1)]

/-- The system before the first sending. -/
def started : System :=
  value ((System.initial ∅).acts platform 4663 starting) (by decide +kernel)

/-- The system after the last one: both jobs were sent, and the first one twice. -/
def sent : System := value (started.acts platform 4663 events) (by decide +kernel)

theorem started_reachable : Reachable platform 4663 started :=
  ⟨_, starting, ⟨∅, rfl⟩, run_of_acts (eq_ok_value _)⟩

theorem sent_run : Run (Step platform 4663) started events sent :=
  run_of_acts (eq_ok_value _)

theorem sent_reachable : Reachable platform 4663 sent :=
  Transition.Reachable.of_run started_reachable sent_run

end Sample

variable {platform : Platform} {chainId : ℕ} {s s' : Store} {t t' : System}

/-! ### What is sent -/

namespace Sending

/-- The job whose bytes are sent. -/
def jobKey : Sending → Bytes32
  | submission row _ => row.jobKey
  | rebroadcast row _ => row.jobKey

/-- The attempt, if the transaction was sent before. -/
def attempt : Sending → Option Bytes32
  | submission .. => none
  | rebroadcast row _ => some row.attemptId

/-- The bytes that are sent. -/
def raw : Sending → Hex
  | submission _ raw => raw
  | rebroadcast _ raw => raw

/-- The row of a sending is stored, whatever the network has answered. -/
def Stored (s : Store) : Sending → Prop
  | submission row _ => ∃ status, s.submissions.lookup row.jobKey = some { row with status := status }
  | rebroadcast row _ => ∃ status,
      s.rebroadcasts.lookup (row.jobKey, row.attemptId) = some { row with status := status }

/-- A sending is stored, with the bytes that were signed for its job. -/
def Backed (s : Store) (x : Sending) : Prop :=
  x.Stored s ∧ ∃ row ∈ s.signed.lookup x.jobKey, row.rawTransaction = x.raw

theorem Backed.keeps {x : Sending} (h : x.Backed s) (hk : Kept s s') : x.Backed s' := by
  obtain ⟨hstored, row, hrow, hraw⟩ := h
  refine ⟨?_, row, hk.signed _ row hrow, hraw⟩
  cases x with
  | submission x raw =>
    obtain ⟨status, hx⟩ := hstored
    obtain ⟨status', hx'⟩ := hk.submissions _ _ hx
    exact ⟨status', hx'⟩
  | rebroadcast x raw =>
    obtain ⟨status, hx⟩ := hstored
    obtain ⟨status', hx'⟩ := hk.rebroadcasts _ _ hx
    exact ⟨status', hx'⟩

end Sending

/-- What an errand is to send. -/
def Errand.sending? : Errand → Option Sending
  | send x => some x
  | sign .. => none

/-- What an errand is to ask the signer. -/
def Errand.request? : Errand → Option (Bytes32 × IntentRecord)
  | send _ => none
  | sign key record => some (key, record)

/-- What was sent, and what is about to be. -/
def System.sendings (t : System) : List Sending := t.errands.filterMap Errand.sending? ++ t.sent

/-- What the signer was asked, and is about to be. -/
def System.requests (t : System) : List (Bytes32 × IntentRecord) :=
  t.errands.filterMap Errand.request? ++ t.asked

variable (platform chainId) in
/-- **The tables agree, and what leaves the database is backed by them**, once. -/
structure Delivered (t : System) : Prop where
  sound : Sound platform chainId t.store
  backed : ∀ x ∈ t.sendings, x.Backed t.store
  sent_once : (t.sendings.map fun x => (x.jobKey, x.attempt)).Nodup
  requested : ∀ x ∈ t.requests, t.store.intents.lookup x.1 = some x.2 ∧
    (t.store.signRequests.lookup x.1).isSome = true
  asked_once : (t.requests.map Prod.fst).Nodup

/-- Doing an errand moves it. -/
theorem filterMap_erase_append {α β : Type} [DecidableEq α] {l : List α} {done : List β} {a : α}
    {b : β} (f : α → Option β) (ha : a ∈ l) (hf : f a = some b) :
    ((l.erase a).filterMap f ++ b :: done).Perm (l.filterMap f ++ done) := by
  have hmoved : (l.filterMap f).Perm (b :: (l.erase a).filterMap f) := by
    have hperm := (List.perm_cons_erase ha).filterMap f
    rwa [List.filterMap_cons_some hf] at hperm
  exact List.perm_middle.trans (hmoved.symm.append_right done)

namespace Delivered

/-- The tables move on, and nothing is left to do. -/
theorem quiet (h : Delivered platform chainId t) (hs : Sound platform chainId s)
    (hk : Kept t.store s) : Delivered platform chainId { t with store := s } where
  sound := hs
  backed x hx := (h.backed x hx).keeps hk
  sent_once := h.sent_once
  requested x hx := by
    obtain ⟨hi, hq⟩ := h.requested x hx
    exact ⟨hk.intents _ _ hi, hk.requested _ hq⟩
  asked_once := h.asked_once

/-- **There is something new to send.** -/
theorem sends {x : Sending} (h : Delivered platform chainId t) (hs : Sound platform chainId s)
    (hk : Kept t.store s) (hnew : ¬ x.Stored t.store) (hx : x.Backed s)
    (hid : ∀ y : Sending, y.Stored t.store → (y.jobKey, y.attempt) = (x.jobKey, x.attempt) →
      x.Stored t.store) :
    Delivered platform chainId { t with store := s, errands := .send x :: t.errands } where
  sound := hs
  backed y hy := by
    rcases List.mem_cons.mp hy with rfl | hy
    · exact hx
    · exact (h.backed y hy).keeps hk
  sent_once := by
    refine List.nodup_cons.mpr ⟨fun hmem => ?_, h.sent_once⟩
    obtain ⟨y, hy, hsame⟩ := List.mem_map.mp hmem
    exact hnew (hid y (h.backed y hy).1 hsame)
  requested y hy := by
    obtain ⟨hi, hq⟩ := h.requested y hy
    exact ⟨hk.intents _ _ hi, hk.requested _ hq⟩
  asked_once := h.asked_once

/-- **There is something new to ask the signer.** -/
theorem asks {key : Bytes32} {record : IntentRecord} (h : Delivered platform chainId t)
    (hs : Sound platform chainId s) (hk : Kept t.store s)
    (hi : t.store.intents.lookup key = some record)
    (hnew : t.store.signRequests.lookup key = none)
    (hq : (s.signRequests.lookup key).isSome = true) :
    Delivered platform chainId { t with store := s, errands := .sign key record :: t.errands } where
  sound := hs
  backed x hx := (h.backed x hx).keeps hk
  sent_once := h.sent_once
  requested x hx := by
    rcases List.mem_cons.mp hx with rfl | hx
    · exact ⟨hk.intents _ _ hi, hq⟩
    · obtain ⟨hi, hq⟩ := h.requested x hx
      exact ⟨hk.intents _ _ hi, hk.requested _ hq⟩
  asked_once := by
    refine List.nodup_cons.mpr ⟨fun hmem => ?_, h.asked_once⟩
    obtain ⟨x, hx, rfl⟩ := List.mem_map.mp hmem
    have hasked := (h.requested x hx).2
    rw [hnew] at hasked
    cases hasked

/-- **A transaction of any worker.** -/
theorem commit {owner : String} {token : Bytes32} {checked : List Time} {errand : Option Errand}
    (h : Delivered platform chainId t)
    (hc : Commits platform chainId owner token checked t.store errand s) :
    Delivered platform chainId { t with store := s, errands := errand.toList ++ t.errands } := by
  have hs := hc.sound h.sound
  have hk := hc.keeps
  cases hc with
  | changes => exact h.quiet hs hk
  | prolongs => exact h.quiet hs hk
  | asks _ hi hnew hq => exact h.asks hs hk hi hnew hq
  | @submits _ out row _ hrow hnone hsome =>
    refine h.sends hs hk ?_ ⟨⟨out.status, hsome⟩, row, hk.signed _ row hrow, rfl⟩ ?_
    · rintro ⟨status, hstored⟩
      rw [hnone] at hstored
      cases hstored
    · intro y hy hid
      cases y with
      | submission z raw =>
        obtain ⟨status, hz⟩ := hy
        rw [show z.jobKey = out.jobKey from (Prod.mk.inj hid).1, hnone] at hz
        cases hz
      | rebroadcast z raw => cases (Prod.mk.inj hid).2
  | @resends _ out row _ hrow hnone hsome =>
    refine h.sends hs hk ?_ ⟨⟨out.status, hsome⟩, row, hk.signed _ row hrow, rfl⟩ ?_
    · rintro ⟨status, hstored⟩
      rw [hnone] at hstored
      cases hstored
    · intro y hy hid
      cases y with
      | submission z raw => cases (Prod.mk.inj hid).2
      | rebroadcast z raw =>
        obtain ⟨status, hz⟩ := hy
        rw [show z.jobKey = out.jobKey from (Prod.mk.inj hid).1,
          show z.attemptId = out.attemptId from Option.some.inj (Prod.mk.inj hid).2, hnone] at hz
        cases hz

/-- **An errand is done**: what it sends or asks was counted before. -/
theorem move (h : Delivered platform chainId t) (hstore : t'.store = t.store)
    (hsendings : t'.sendings.Perm t.sendings) (hrequests : t'.requests.Perm t.requests) :
    Delivered platform chainId t' where
  sound := hstore ▸ h.sound
  backed x hx := hstore ▸ h.backed x (hsendings.mem_iff.mp hx)
  sent_once := (hsendings.map _).nodup_iff.mpr h.sent_once
  requested x hx := hstore ▸ h.requested x (hrequests.mem_iff.mp hx)
  asked_once := (hrequests.map _).nodup_iff.mpr h.asked_once

end Delivered

/-- The other lists are as they were. -/
theorem filterMap_erase_of_none {α β : Type} [DecidableEq α] {l : List α} {a : α}
    (f : α → Option β) (ha : a ∈ l) (hf : f a = none) :
    ((l.erase a).filterMap f).Perm (l.filterMap f) := by
  have hperm := (List.perm_cons_erase ha).filterMap f
  rw [List.filterMap_cons_none hf] at hperm
  exact hperm.symm

/-- **A step of the workers, the signer or the network.** -/
theorem Delivered.step {e : Event} (h : Delivered platform chainId t)
    (hstep : Step platform chainId t e t') : Delivered platform chainId t' := by
  cases hstep with
  | call hexec => exact h.commit (exec_commits h.sound.keyed hexec)
  | lost hexec =>
    have hc := exec_commits h.sound.keyed hexec
    exact h.quiet (hc.sound h.sound) hc.keeps
  | askSigner herrand =>
    refine h.move rfl ?_ (filterMap_erase_append Errand.request? herrand rfl)
    exact (filterMap_erase_of_none Errand.sending? herrand rfl).append_right _
  | saveSignature hasked hsave =>
    have hi := (h.requested _ (List.mem_append_right _ hasked)).1
    have hchange : Change platform chainId "" 0 [] t.store _ := saveSignature_ok hi hsave
    exact h.quiet (hchange.sound h.sound) hchange.keeps
  | broadcast herrand =>
    refine h.move rfl (filterMap_erase_append Errand.sending? herrand rfl) ?_
    exact (filterMap_erase_of_none Errand.request? herrand rfl).append_right _
  | acknowledge _ hacknowledge =>
    have hchange : Change platform chainId "" 0 [] t.store _ := acknowledge_ok hacknowledge
    exact h.quiet (hchange.sound h.sound) hchange.keeps

theorem delivered_initial (roles : Table Account Role) :
    Delivered platform chainId (System.initial roles) where
  sound := {
    fenced := ⟨fun _ => List.Pairwise.nil, fun _ => List.nodup_nil, every_empty _, by
      intro key key' r r' hr
      cases hr⟩
    traced := ⟨every_empty _, every_empty _, every_empty _, every_empty _, every_empty _⟩
    budgeted := ⟨fun _ => rfl, every_empty _, every_empty _, every_empty _, by
      intro a id id' c c' hc
      cases hc⟩ }
  backed x hx := by cases hx
  sent_once := List.nodup_nil
  requested x hx := by cases hx
  asked_once := List.nodup_nil

/-- **In every state that the workers can reach.** -/
theorem delivered_of_reachable (h : Reachable platform chainId t) :
    Delivered platform chainId t := by
  refine Transition.Reachable.invariant ?_ (fun _ _ _ hd hstep => hd.step hstep) h
  rintro _ ⟨roles, rfl⟩
  exact delivered_initial roles

/-- **Nothing is taken back by a step.** -/
theorem Step.keeps {e : Event} (h : Delivered platform chainId t)
    (hstep : Step platform chainId t e t') : Kept t.store t'.store := by
  cases hstep with
  | call hexec | lost hexec => exact (exec_commits h.sound.keyed hexec).keeps
  | askSigner | broadcast => exact Kept.refl _
  | saveSignature hasked hsave =>
    have hi := (h.requested _ (List.mem_append_right _ hasked)).1
    have hchange : Change platform chainId "" 0 [] t.store _ := saveSignature_ok hi hsave
    exact hchange.keeps
  | acknowledge _ hacknowledge =>
    have hchange : Change platform chainId "" 0 [] t.store _ := acknowledge_ok hacknowledge
    exact hchange.keeps

theorem kept_of_run {es : List Event} (h : Delivered platform chainId t)
    (hrun : Run (Step platform chainId) t es t') : Kept t.store t'.store := by
  have hboth : Delivered platform chainId t' ∧ Kept t.store t'.store :=
    Run.invariant (I := fun u => Delivered platform chainId u ∧ Kept t.store u.store)
      (fun u e u' hu hstep => ⟨hu.1.step hstep, hu.2.trans (hstep.keeps hu.1)⟩) hrun
      ⟨h, Kept.refl _⟩
  exact hboth.2

/-! ### What is fixed -/

/-- **What is stored of a job with a nonce is of one lease, and stays so**, whatever is done from
there on: the nonce, the intent and the signed bytes are never replaced, and nobody else is given
the job. -/
theorem single_generation (h : Reachable platform chainId t) {key : Bytes32} {r : Reservation}
    (hr : t.store.reservations.lookup key = some r) {es : List Event}
    (hrun : Run (Step platform chainId) t es t') :
    t'.store.reservations.lookup key = some r ∧
      (∃ l ∈ latestLease t'.store key, l.generation = r.generation) ∧
      (t'.store.leasesOf key).map Lease.token = (t.store.leasesOf key).map Lease.token ∧
      (∀ i ∈ t.store.intents.lookup key, t'.store.intents.lookup key = some i) ∧
      (∀ row ∈ t.store.signed.lookup key, t'.store.signed.lookup key = some row) ∧
      (∀ i ∈ t'.store.intents.lookup key, i.intent.reservation = r) ∧
      (∀ q ∈ t'.store.signRequests.lookup key, q.generation = r.generation ∧
        ∃ i ∈ t'.store.intents.lookup key, q.intentDigest = i.digest) ∧
      (∀ row ∈ t'.store.signed.lookup key, ∃ i ∈ t'.store.intents.lookup key,
        row.intentDigest = i.digest ∧ ∃ tx, validateSigned platform i row.rawTransaction = .ok tx) ∧
      ∀ x ∈ t'.store.submissions.lookup key, ∃ row ∈ t'.store.signed.lookup key,
        x.intentDigest = row.intentDigest ∧ x.transactionHash = row.transactionHash := by
  have hd := delivered_of_reachable h
  have hkept := kept_of_run hd hrun
  have hsound := (delivered_of_reachable (Transition.Reachable.of_run h hrun)).sound
  have hr' := hkept.reservations key r hr
  have hintent : ∀ i ∈ t'.store.intents.lookup key, i.intent.reservation = r := by
    intro i hi
    have hof := (hsound.traced.intended key i hi).1
    rw [hr'] at hof
    exact (Option.some.inj hof).symm
  refine ⟨hr', (hsound.fenced.reserved key r hr').2.2.1, (hkept.generations key ?_).2,
    fun i hi => hkept.intents key i hi, fun row hrow => hkept.signed key row hrow, hintent, ?_, ?_,
    ?_⟩
  · rw [hr]
    rfl
  · intro q hq
    obtain ⟨i, hi, hdigest, hgeneration, -⟩ := hsound.traced.requested key q hq
    exact ⟨by rw [hgeneration, hintent i hi], i, hi, hdigest⟩
  · intro row hrow
    obtain ⟨i, hi, hdigest, tx, hvalid, -⟩ := hsound.traced.attached key row hrow
    exact ⟨i, hi, hdigest, tx, hvalid⟩
  · intro x hx
    obtain ⟨-, row, hrow, hsame⟩ := hsound.traced.submitted key x hx
    exact ⟨row, hrow, hsame⟩

/-- The first job keeps its nonce while it is signed, sent twice, and another is sent. -/
theorem single_generation_sent :
    Sample.sent.store.reservations.lookup 1 = some (Sample.record 1 0).intent.reservation ∧
      (Sample.sent.store.signRequests.lookup 1).isSome = true ∧
      ∀ q ∈ Sample.sent.store.signRequests.lookup 1, q.generation = 1 ∧
        ∃ i ∈ Sample.sent.store.intents.lookup 1, q.intentDigest = i.digest :=
  have hreserved : Sample.started.store.reservations.lookup 1 =
      some (Sample.record 1 0).intent.reservation := by decide +kernel
  have hkept := single_generation Sample.started_reachable hreserved Sample.sent_run
  ⟨hkept.1, by decide +kernel, hkept.2.2.2.2.2.2.1⟩

/-- **The nonces of an account are different**, below the next one, and only a maintenance account
has any: one that has another role gets none from there on. -/
theorem distinct_nonces (h : Reachable platform chainId t) :
    (∀ key r, t.store.reservations.lookup key = some r → r.jobKey = key ∧ r.chainId = chainId ∧
      t.store.roles.lookup r.account = some .maintenance ∧
      ∃ next ∈ t.store.nonceAccounts.lookup r.account, r.nonce < next) ∧
    (∀ key key' r r', t.store.reservations.lookup key = some r →
      t.store.reservations.lookup key' = some r' → r.account = r'.account →
      r.nonce = r'.nonce → key = key') ∧
    ∀ a, t.store.roles.lookup a = some .settlement → ∀ es t',
      Run (Step platform chainId) t es t' →
      ∀ key, ∀ r ∈ t'.store.reservations.lookup key, r.account ≠ a := by
  have hd := delivered_of_reachable h
  refine ⟨fun key r hr => ?_, hd.sound.fenced.unique, ?_⟩
  · obtain ⟨hkey, hchain, -, hrest⟩ := hd.sound.fenced.reserved key r hr
    exact ⟨hkey, hchain, hrest⟩
  · rintro a ha es t' hrun key r hr rfl
    have hsound := (delivered_of_reachable (Transition.Reachable.of_run h hrun)).sound
    have hrole := (hsound.fenced.reserved key r hr).2.2.2.1
    rw [(kept_of_run hd hrun).roles _ _ ha] at hrole
    cases hrole

/-- The second job has the second nonce, and the account of the settlements none. -/
theorem distinct_nonces_sent :
    (∃ next ∈ Sample.sent.store.nonceAccounts.lookup ⟨4663, 9, 2⟩, 1 < next) ∧
      ∀ key, ∀ r ∈ Sample.sent.store.reservations.lookup key, r.account ≠ Sample.settlements :=
  ⟨((distinct_nonces Sample.sent_reachable).1 2 (Sample.record 2 1).intent.reservation
      (by decide +kernel)).2.2.2,
    (distinct_nonces Sample.started_reachable).2.2 Sample.settlements (by decide +kernel)
      Sample.events Sample.sent Sample.sent_run⟩

/-! ### What was sent -/

variable (platform chainId) in
/-- **Bytes that were sent are accounted for**: they are the stored ones, of the reservation's
nonce and sender, and what they can cost is charged. -/
structure Sending.Accounted (s : Store) (x : Sending) (r : Reservation) (c : Charge)
    (d : Transaction) : Prop where
  signed : ∃ row ∈ s.signed.lookup x.jobKey, row.rawTransaction = x.raw
  reserved : s.reservations.lookup x.jobKey = some r
  charged : s.charges.lookup x.jobKey = some c
  decoded : platform.unmarshalBinary x.raw = some d
  chain : d.chainId = chainId
  nonce : d.nonce = r.nonce
  sender : platform.sender chainId x.raw = some r.sender
  account : c.account = r.account
  cost : c.maximumGasCost = d.gas * d.gasFeeCap

/-- A sending is of a submission. -/
theorem Delivered.submission_of (h : Delivered platform chainId t) {x : Sending}
    (hx : x.Stored t.store) : (t.store.submissions.lookup x.jobKey).isSome = true := by
  cases x with
  | submission row raw =>
    obtain ⟨status, hrow⟩ := hx
    exact Option.isSome_iff_exists.mpr ⟨_, hrow⟩
  | rebroadcast row raw =>
    obtain ⟨status, hrow⟩ := hx
    obtain ⟨-, -, y, hy, -⟩ := h.sound.traced.resent _ _ hrow
    exact Option.isSome_iff_exists.mpr ⟨y, hy⟩

theorem Delivered.accounted (h : Delivered platform chainId t) {x : Sending} (hx : x ∈ t.sent) :
    ∃ r c d, x.Accounted platform chainId t.store r c d := by
  obtain ⟨hstored, row, hrow, hraw⟩ := h.backed x (List.mem_append_right _ hx)
  obtain ⟨i, hi, -, tx, hvalid, -⟩ := h.sound.traced.attached _ row hrow
  obtain ⟨hr, -, hcost⟩ := h.sound.traced.intended _ i hi
  have hchain := (h.sound.fenced.reserved _ _ hr).2.1
  obtain ⟨c, hc⟩ := Option.isSome_iff_exists.mp
    ((h.sound.budgeted.charged x.jobKey).trans (h.submission_of hstored))
  obtain ⟨⟨i', hi', haccount, hcharge⟩, -, -⟩ := h.sound.budgeted.limited _ c hc
  obtain rfl : i = i' := Option.some.inj (hi.symm.trans hi')
  obtain ⟨-, -, -, -, ⟨d, hd, hon, hnonce, hgas, hfee⟩, hsender⟩ := validateSigned_ok hvalid
  rw [hraw] at hd hsender
  rw [hchain] at hon hsender
  exact ⟨i.intent.reservation, c, d, {
    signed := ⟨row, hrow, hraw⟩
    reserved := hr
    charged := hc
    decoded := hd
    chain := hon
    nonce := hnonce
    sender := hsender
    account := haccount
    cost := by rw [hcharge, hcost, hgas, hfee] }⟩

/-- **Nothing is sent that is not stored and charged, and nothing is sent twice**: for one job the
network gets its submission once, and each attempt to send it again once, with the same bytes. -/
theorem sent_once (h : Reachable platform chainId t) :
    (∀ x ∈ t.sent, x.Stored t.store ∧ ∃ r c d, x.Accounted platform chainId t.store r c d) ∧
      (t.sent.map fun x => (x.jobKey, x.attempt)).Nodup ∧
      ∀ x ∈ t.sent, ∀ y ∈ t.sent, x.jobKey = y.jobKey → x.raw = y.raw := by
  have hd := delivered_of_reachable h
  refine ⟨fun x hx => ⟨(hd.backed x (List.mem_append_right _ hx)).1, hd.accounted hx⟩, ?_, ?_⟩
  · have hall := hd.sent_once
    rw [System.sendings, List.map_append] at hall
    exact hall.of_append_right
  · intro x hx y hy hjob
    obtain ⟨-, row, hrow, hraw⟩ := hd.backed x (List.mem_append_right _ hx)
    obtain ⟨-, row', hrow', hraw'⟩ := hd.backed y (List.mem_append_right _ hy)
    rw [← hjob, Option.mem_def.mp hrow] at hrow'
    cases hrow'
    exact hraw.symm.trans hraw'

theorem sent_once_sent :
    [(2, none), (1, some 1000), (1, none)] = Sample.sent.sent.map (fun x => (x.jobKey, x.attempt)) ∧
      (Sample.sent.sent.map fun x => (x.jobKey, x.attempt)).Nodup :=
  ⟨by decide +kernel, (sent_once Sample.sent_reachable).2.1⟩

/-- **The network never gets two different transactions with one nonce of an account.** -/
theorem no_conflicting_sends (h : Reachable platform chainId t) {x y : Sending} (hx : x ∈ t.sent)
    (hy : y ∈ t.sent) {r r' : Reservation} (hr : t.store.reservations.lookup x.jobKey = some r)
    (hr' : t.store.reservations.lookup y.jobKey = some r') (haccount : r.account = r'.account)
    {d d' : Transaction} (hd : platform.unmarshalBinary x.raw = some d)
    (hd' : platform.unmarshalBinary y.raw = some d') (hnonce : d.nonce = d'.nonce) :
    x.jobKey = y.jobKey ∧ x.raw = y.raw := by
  have hdelivered := delivered_of_reachable h
  obtain ⟨rx, cx, dx, hx'⟩ := hdelivered.accounted hx
  obtain ⟨ry, cy, dy, hy'⟩ := hdelivered.accounted hy
  obtain rfl : rx = r := Option.some.inj (hx'.reserved.symm.trans hr)
  obtain rfl : ry = r' := Option.some.inj (hy'.reserved.symm.trans hr')
  obtain rfl : dx = d := Option.some.inj (hx'.decoded.symm.trans hd)
  obtain rfl : dy = d' := Option.some.inj (hy'.decoded.symm.trans hd')
  have hsame : rx.nonce = ry.nonce := by rw [← hx'.nonce, hnonce, hy'.nonce]
  have hjob := hdelivered.sound.fenced.unique _ _ rx ry hr hr' haccount hsame
  obtain ⟨row, hrow, hraw⟩ := hx'.signed
  obtain ⟨row', hrow', hraw'⟩ := hy'.signed
  rw [← hjob, Option.mem_def.mp hrow] at hrow'
  cases hrow'
  exact ⟨hjob, hraw.symm.trans hraw'⟩

/-- The submission of the first job, and the attempt to send it again. -/
theorem no_conflicting_sends_sent : Sample.again.raw = (Sample.sending 1 0).raw :=
  have hd : Sample.platform.unmarshalBinary [0] =
      some ⟨2, some 3, 0, 4663, 0, 21000, 2, 1, 0, [0, 0, 0, 0]⟩ := by decide +kernel
  have hr : Sample.sent.store.reservations.lookup 1 =
      some (Sample.record 1 0).intent.reservation := by decide +kernel
  have hagain : Sample.again ∈ Sample.sent.sent := by decide +kernel
  have hsending : Sample.sending 1 0 ∈ Sample.sent.sent := by decide +kernel
  (no_conflicting_sends Sample.sent_reachable hagain hsending hr hr rfl hd hd rfl).2

variable (platform) in
/-- The most that the bytes of a sending can cost. -/
def Sending.cost (x : Sending) : ℕ :=
  (platform.unmarshalBinary x.raw).elim 0 fun d => d.gas * d.gasFeeCap

theorem Sending.Accounted.cost_eq {x : Sending} {r : Reservation} {c : Charge} {d : Transaction}
    (h : x.Accounted platform chainId s r c d) : x.cost platform = c.maximumGasCost := by
  rw [Sending.cost, h.decoded, Option.elim_some, h.cost]

/-- **What was sent for an account cannot cost more than its budget allows**, together, or each by
itself: of the transactions of a job at most one can be included. -/
theorem spent_within_budget (h : Reachable platform chainId t) {a : Account} {b : GasBudget}
    (hb : t.store.budgets.lookup a = some b) {xs : List Sending} (hsent : xs ⊆ t.sent)
    (hjobs : (xs.map Sending.jobKey).Nodup)
    (haccount : ∀ x ∈ xs, ∃ r ∈ t.store.reservations.lookup x.jobKey, r.account = a) :
    (xs.map (Sending.cost platform)).sum ≤ b.allocated ∧ b.allocated ≤ b.maximumTotal ∧
      ∀ x ∈ xs, ∃ id, ∃ c ∈ t.store.budgetChanges.lookup (a, id),
        x.cost platform ≤ c.maxTransaction := by
  have hd := delivered_of_reachable h
  obtain ⟨hallocated, hwithin, -⟩ := hd.sound.budgeted.allocated a b hb
  -- each sending, with the charge of its job
  have hcharge : ∀ x ∈ xs, ∃ c ∈ t.store.charges.lookup x.jobKey, c.account = a ∧
      x.cost platform = c.maximumGasCost := by
    intro x hx
    obtain ⟨r, c, d, hx'⟩ := hd.accounted (hsent hx)
    obtain ⟨r', hr', hof⟩ := haccount x hx
    obtain rfl : r = r' := Option.some.inj (hx'.reserved.symm.trans hr')
    exact ⟨c, hx'.charged, hx'.account.trans hof, hx'.cost_eq⟩
  refine ⟨?_, hwithin, fun x hx => ?_⟩
  · have hle := sum_le_total (f := fun _ c => c.amountOf a) (m := t.store.charges)
      (g := fun key => (t.store.charges.lookup key).elim 0 fun c => (c.maximumGasCost : ℤ)) hjobs
      (fun key c _ => by
        rw [Charge.amountOf]
        split <;> omega)
      (fun key hkey => by
        obtain ⟨x, hx, rfl⟩ := List.mem_map.mp hkey
        obtain ⟨c, hc, hof, -⟩ := hcharge x hx
        exact ⟨c, hc, by rw [Option.mem_def.mp hc, Option.elim_some, Charge.amountOf, if_pos hof]⟩)
    have hcosts : (xs.map Sending.jobKey).map
        (fun key => (t.store.charges.lookup key).elim 0 fun c => (c.maximumGasCost : ℤ))
          = (xs.map (Sending.cost platform)).map Nat.cast := by
      rw [List.map_map, List.map_map]
      refine List.map_congr_left fun x hx => ?_
      obtain ⟨c, hc, -, hcost⟩ := hcharge x hx
      dsimp only [Function.comp_apply]
      rw [Option.mem_def.mp hc, Option.elim_some, hcost]
    rw [hcosts, ← Nat.cast_list_sum, ← hallocated] at hle
    exact Nat.cast_le.mp hle
  · obtain ⟨c, hc, rfl, hcost⟩ := hcharge x hx
    obtain ⟨-, ⟨id, b', hb', -, hlimit⟩, -⟩ := hd.sound.budgeted.limited _ c hc
    exact ⟨id, b', hb', hcost ▸ hlimit⟩

/-- Both jobs together, at 42000 each. -/
theorem spent_within_budget_sent :
    ([Sample.sending 1 0, Sample.sending 2 1].map (Sending.cost Sample.platform)).sum ≤ 84000 :=
  (spent_within_budget Sample.sent_reachable (a := ⟨4663, 9, 2⟩) (b := ⟨1, 50000, 100000, 84000⟩)
    (by decide +kernel) (by decide +kernel) (by decide +kernel) (by decide +kernel)).1

/-! ### What the signer was asked -/

/-- **The signer is asked once for each job**, whatever the processes do and wherever they stop,
and only for the intent that is fixed; an answer that is kept is a signature of it. -/
theorem asked_once (h : Reachable platform chainId t) :
    (t.asked.map Prod.fst).Nodup ∧ ∀ x ∈ t.asked, t.store.intents.lookup x.1 = some x.2 ∧
      t.store.reservations.lookup x.1 = some x.2.intent.reservation ∧
      ∃ q ∈ t.store.signRequests.lookup x.1, q.intentDigest = x.2.digest ∧
        ∀ raw ∈ q.rawTransaction, ∃ tx, validateSigned platform x.2 raw = .ok tx := by
  have hd := delivered_of_reachable h
  constructor
  · have hall := hd.asked_once
    rw [System.requests, List.map_append] at hall
    exact hall.of_append_right
  · intro x hx
    obtain ⟨hi, hq⟩ := hd.requested x (List.mem_append_right _ hx)
    obtain ⟨q, hq⟩ := Option.isSome_iff_exists.mp hq
    obtain ⟨i, hi', hdigest, -, hvalid⟩ := hd.sound.traced.requested _ q hq
    obtain rfl : x.2 = i := Option.some.inj (hi.symm.trans hi')
    exact ⟨hi, (hd.sound.traced.intended _ _ hi).1, q, hq, hdigest, hvalid⟩

theorem asked_once_sent : (Sample.sent.asked.map Prod.fst).Nodup :=
  (asked_once Sample.sent_reachable).1

/-! ### Who creates -/

/-- A row of a stage of the job is there after, and was not before. -/
def Store.Creates (s s' : Store) (key : Bytes32) : Prop :=
  Appears s.reservations s'.reservations key ∨ Appears s.intents s'.intents key ∨
    Appears s.signRequests s'.signRequests key ∨ Appears s.signed s'.signed key ∨
    Appears s.submissions s'.submissions key

/-- What is created in two steps is created in one of them. -/
theorem Store.Creates.split {s'' : Store} {key : Bytes32} (h : s.Creates s'' key) :
    s.Creates s' key ∨ s'.Creates s'' key := by
  rcases h with h | h | h | h | h
  · exact h.split.imp .inl .inl
  · exact h.split.imp (.inr ∘ .inl) (.inr ∘ .inl)
  · exact h.split.imp (.inr ∘ .inr ∘ .inl) (.inr ∘ .inr ∘ .inl)
  · exact h.split.imp (.inr ∘ .inr ∘ .inr ∘ .inl) (.inr ∘ .inr ∘ .inr ∘ .inl)
  · exact h.split.imp (.inr ∘ .inr ∘ .inr ∘ .inr) (.inr ∘ .inr ∘ .inr ∘ .inr)

/-- A job of which something is stored has a nonce. -/
theorem Sound.reserved_of_creates {key : Bytes32} (hs : Sound platform chainId s')
    (h : s.Creates s' key) : (s'.reservations.lookup key).isSome = true := by
  have hintended : ∀ i, s'.intents.lookup key = some i →
      (s'.reservations.lookup key).isSome = true := fun i hi => by
    rw [(hs.traced.intended key i hi).1]
    rfl
  have hsigned : ∀ row, s'.signed.lookup key = some row →
      (s'.reservations.lookup key).isSome = true := fun row hrow => by
    obtain ⟨i, hi, -⟩ := hs.traced.attached key row hrow
    exact hintended i hi
  rcases h with h | h | h | h | h
  · exact h.2
  · obtain ⟨i, hi⟩ := Option.isSome_iff_exists.mp h.2
    exact hintended i hi
  · obtain ⟨q, hq⟩ := Option.isSome_iff_exists.mp h.2
    obtain ⟨i, hi, -⟩ := hs.traced.requested key q hq
    exact hintended i hi
  · obtain ⟨row, hrow⟩ := Option.isSome_iff_exists.mp h.2
    exact hsigned row hrow
  · obtain ⟨x, hx⟩ := Option.isSome_iff_exists.mp h.2
    obtain ⟨-, row, hrow, -⟩ := hs.traced.submitted key x hx
    exact hsigned row hrow

section Holder

variable {owner : String} {token : Bytes32} {checked : List Time} {key : Bytes32}

/-- The lease of a job with a nonce is not changed by what is created. -/
theorem Change.latest (h : Change platform chainId owner token checked s s')
    (hr : (s.reservations.lookup key).isSome = true) : latestLease s' key = latestLease s key := by
  cases h with
  | @issued j l hnone =>
    have hne : key ≠ j := by
      rintro rfl
      rw [hnone] at hr
      cases hr
    have hsame : (s.leases.insert j (l :: s.leasesOf j)).lookup key = s.leases.lookup key :=
      AList.lookup_insert_ne hne
    rw [latestLease, Store.leasesOf, hsame]
    rfl
  | _ => rfl

/-- **A change creates for the lease that it is made for.** -/
theorem Change.creates (h : Change platform chainId owner token checked s s')
    (hnew : s.Creates s' key) : Authorized s' key owner token checked := by
  cases h with
  | recorded | claimed | issued | rewritten | budgeted | resent | acknowledgedAgain =>
    rcases hnew with h | h | h | h | h <;> exact (not_appears_self h).elim
  | reserved ha =>
    rcases hnew with h | h | h | h | h
    · exact h.of_insert.1 ▸ ha
    all_goals exact (not_appears_self h).elim
  | intended ha =>
    rcases hnew with h | h | h | h | h
    rotate_left
    · exact h.of_insert.1 ▸ ha
    all_goals exact (not_appears_self h).elim
  | requested ha =>
    rcases hnew with h | h | h | h | h
    rotate_left 2
    · exact h.of_insert.1 ▸ ha
    all_goals exact (not_appears_self h).elim
  | answered imports hq =>
    rcases hnew with h | h | h | h | h
    rotate_left 2
    · exact (Option.some_ne_none _ (hq.symm.trans h.of_insert.2)).elim
    all_goals exact (not_appears_self h).elim
  | attached ha =>
    rcases hnew with h | h | h | h | h
    rotate_left 3
    · exact h.of_insert.1 ▸ ha
    all_goals exact (not_appears_self h).elim
  | submitted ha =>
    rcases hnew with h | h | h | h | h
    rotate_left 4
    · exact h.of_insert.1 ▸ ha
    all_goals exact (not_appears_self h).elim
  | acknowledged status hx =>
    rcases hnew with h | h | h | h | h
    rotate_left 4
    · exact (Option.some_ne_none _ (hx.symm.trans h.of_insert.2)).elim
    all_goals exact (not_appears_self h).elim

theorem creates_of_changes (h : ReflTransGen (Change platform chainId owner token checked) s s')
    (hs : Sound platform chainId s) (hnew : s.Creates s' key) :
    Authorized s' key owner token checked := by
  induction h with
  | refl => rcases hnew with h | h | h | h | h <;> exact (not_appears_self h).elim
  | @tail m s' hchanges hchange ih =>
    have hsplit : s.Creates m key ∨ m.Creates s' key := hnew.split
    rcases hsplit with hbefore | hlast
    · -- it was created before, and the lease is no longer changed
      have hreserved := (sound_of_changes hchanges hs).reserved_of_creates hbefore
      obtain ⟨l, hl, hrest⟩ := ih hbefore
      exact ⟨l, by rwa [hchange.latest hreserved], hrest⟩
    · exact hchange.creates hlast

/-- **A transaction creates for the lease that it is made for.** -/
theorem Commits.creates {errand : Option Errand}
    (h : Commits platform chainId owner token checked s errand s') (hs : Sound platform chainId s)
    (hnew : s.Creates s' key) : Authorized s' key owner token checked := by
  cases h with
  | changes h => exact creates_of_changes h hs hnew
  | prolongs => rcases hnew with h | h | h | h | h <;> exact (not_appears_self h).elim
  | asks hchange | submits hchange | resends hchange => exact hchange.creates hnew

end Holder

/-- **A worker whose lease has ended, or was taken over, creates nothing**: whatever any call
creates of a job is created while the latest lease of the job is the one the call was made with,
not released, and not expired when the call last looked at the clock. -/
theorem created_by_holder (h : Reachable platform chainId t) {c : Call} {errand : Option Errand}
    (hexec : t.store.exec platform chainId c = .ok (s, errand)) {key : Bytes32}
    (hnew : t.store.Creates s key) : Authorized s key c.holder.1 c.holder.2 c.checked := by
  have hsound := (delivered_of_reachable h).sound
  exact (exec_commits hsound.keyed hexec).creates hsound hnew

/-- A preparation leases the job, and creates its reservation and its intent for that lease. -/
theorem created_by_holder_prepared :
    Authorized Sample.prepared 1 "worker" 5 [1001000000] :=
  created_by_holder (Transition.Reachable.of_init ⟨∅, rfl⟩) (c := Sample.preparation 1)
    (eq_ok_value Sample.preparing_isOk) (.inl ⟨rfl, by decide +kernel⟩)

end Maintenance

end Backend

end TickerGarden
