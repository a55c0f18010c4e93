import TickerGarden.Backend.ChainRelay

/-!
# The relay loses no event

What a transaction of the relay does to the tables is one of three things (`Change`): an event is
added, a new batch is **sealed** with some of the events that have none, or a batch **advances**
and its events with it. So the rows of the events always repeat what the row of their batch says
(`Store.Sound`), and an event that is neither delivered nor given up is under a lease or has a
time at which it may be claimed.

A publisher may come back to a claim long after its lease has run out. The number of the attempt
tells whether the claim is still its own: attempts only grow, and no two publishers hold the same
attempt of a batch (`System.Sound`).
-/

namespace TickerGarden

open Checked Function

namespace Backend

namespace ChainRelay

open JobQueue (Timestamp)

/-! ### Groups -/

theorem Hash.length_toList (h : Hash) : h.text.toList.length = 66 := by
  have hvalid := h.valid
  rw [JobQueue.isDigest, Bool.and_eq_true, Bool.and_eq_true, beq_iff_eq] at hvalid
  exact hvalid.1.2

theorem Hash.ext_toList {h k : Hash} (heq : h.text.toList = k.text.toList) : h = k := by
  obtain ⟨h, _⟩ := h
  obtain ⟨k, _⟩ := k
  obtain rfl : h = k := String.toList_injective heq
  rfl

theorem toList_groupKey (t : Trigger) : t.groupKey.toList
    = t.log.blockHash.text.toList
      ++ (':' :: (toString t.log.removed).toList ++ ':' :: t.head.hash.text.toList) := by
  simp [Trigger.groupKey]

/-- The group of an event is the block of its log, its canonicity and the head. -/
theorem groupKey_inj {t u : Trigger} (h : t.groupKey = u.groupKey) :
    t.log.blockHash = u.log.blockHash ∧ t.log.removed = u.log.removed ∧
      t.head.hash = u.head.hash := by
  have hlist := congrArg String.toList h
  rw [toList_groupKey, toList_groupKey] at hlist
  obtain ⟨hblock, hrest⟩ := List.append_inj hlist
    (t.log.blockHash.length_toList.trans u.log.blockHash.length_toList.symm)
  -- the head has the length of a hash, so that the flag is what is before it
  obtain ⟨hflag, hhead⟩ := List.append_inj' hrest <| by
    rw [List.length_cons, List.length_cons, t.head.hash.length_toList, u.head.hash.length_toList]
  refine ⟨Hash.ext_toList hblock, ?_, Hash.ext_toList (List.cons.inj hhead).2⟩
  have htext : toString t.log.removed = toString u.log.removed :=
    String.toList_injective (List.cons.inj hflag).2
  cases ht : t.log.removed <;> cases hu : u.log.removed <;>
    first | rfl | (rw [ht, hu] at htext; exact absurd htext (by decide))

/-! ### What a transaction does -/

@[simp] theorem lookup_updateEvents (p : String → EventRow → Prop) [∀ k e, Decidable (p k e)]
    (f : EventRow → EventRow) (events : Table String EventRow) (k : String) :
    (updateEvents p f events).lookup k
      = (events.lookup k).map fun e => if p k e then f e else e :=
  Table.lookup_map _ _ _

theorem mem_unlocked {β : Type} {p : β → Prop} [DecidablePred p] {locked : List String}
    {m : Table String β} {k : String} {b : β} (h : (k, b) ∈ unlocked p locked m) :
    m.lookup k = some b ∧ p b := by
  rw [unlocked, List.mem_filter, Bool.and_eq_true, decide_eq_true_eq] at h
  obtain ⟨e, he, heq⟩ := List.mem_map.mp h.1
  obtain ⟨rfl, rfl⟩ := Prod.mk.inj heq
  exact ⟨Option.mem_def.mp (AList.mem_lookup_iff.mpr he), h.2.1⟩

theorem picked_eq_some {now : Timestamp} {locked : List String} {s : Store} {key : String}
    {b : BatchRow} (h : picked now locked s = some (key, b)) :
    s.batches.lookup key = some b ∧ b.Due now :=
  mem_unlocked (List.mem_mergeSort.mp (List.mem_of_mem_head? h))

theorem mem_members {now : Timestamp} {locked : List String} {groupKey : String} {s : Store}
    {k : String} {e : EventRow} (h : (k, e) ∈ members now locked groupKey s) :
    s.events.lookup k = some e ∧ e.payload.groupKey = groupKey ∧ e.Due now :=
  mem_unlocked (List.mem_mergeSort.mp (List.mem_of_mem_take h))

/-- What the row of an event repeats of the row of its batch. -/
structure EventRow.Follows (e : EventRow) (b : BatchRow) : Prop where
  state : e.state = b.state
  attempt : e.attempt = b.attempt
  leaseExpiresAt : e.leaseExpiresAt = b.leaseExpiresAt
  group : e.payload.groupKey = b.payload.groupKey

/-- The batch `key` goes from `b` to `b'`, and its events with it. -/
structure Advance (key : String) (b b' : BatchRow) (s t : Store) : Prop where
  before : s.batches.lookup key = some b
  after : t.batches = s.batches.insert key b'
  payload : b'.payload = b.payload
  eventCount : b'.eventCount = b.eventCount
  others : ∀ k e, s.events.lookup k = some e → e.batchKey ≠ some key → t.events.lookup k = some e
  own : ∀ k e, s.events.lookup k = some e → e.batchKey = some key → ∃ e',
    t.events.lookup k = some e' ∧ e'.payload = e.payload ∧ e'.batchKey = some key ∧
      (e.Follows b → e'.Follows b')
  no_other : ∀ k, s.events.lookup k = none → t.events.lookup k = none

/-- A new batch `key` is made of the events `keys`. -/
structure Seal (now : Timestamp) (key : String) (keys : List String) (payload : Trigger)
    (s t : Store) : Prop where
  fresh : s.batches.lookup key = none
  after : t.batches = s.batches.insert key (newBatch now payload keys.length)
  due : ∀ k ∈ keys, ∃ e, s.events.lookup k = some e ∧
    e.payload.groupKey = payload.groupKey ∧ e.Due now
  events : ∀ k, t.events.lookup k = (s.events.lookup k).map fun e =>
    if k ∈ keys then EventRow.lease now 1 { e with batchKey := some key }
    else if e.batchKey = some key then EventRow.lease now 1 e else e

theorem advance_updateEvents {key : String} {b b' : BatchRow} {s : Store}
    {p : String → EventRow → Prop} [∀ k e, Decidable (p k e)] {f : EventRow → EventRow}
    (hbefore : s.batches.lookup key = some b) (hpayload : b'.payload = b.payload)
    (hcount : b'.eventCount = b.eventCount) (hown : ∀ k e, p k e → e.batchKey = some key)
    (hf : ∀ e, (f e).payload = e.payload ∧ (f e).batchKey = e.batchKey)
    (hp : ∀ k e, e.batchKey = some key → e.Follows b → p k e ∧ (f e).Follows b') :
    Advance key b b' s ⟨updateEvents p f s.events, s.batches.insert key b'⟩ where
  before := hbefore
  after := rfl
  payload := hpayload
  eventCount := hcount
  others k e he hne := by
    rw [lookup_updateEvents, he, Option.map_some, if_neg fun h => hne (hown k e h)]
  own k e he hkey := by
    refine ⟨_, by rw [lookup_updateEvents, he, Option.map_some], ?_⟩
    split_ifs with h
    · exact ⟨(hf e).1, (hf e).2.trans hkey, fun hfollows => (hp k e hkey hfollows).2⟩
    · exact ⟨rfl, hkey, fun hfollows => absurd (hp k e hkey hfollows).1 h⟩
  no_other k hk := by rw [lookup_updateEvents, hk, Option.map_none]

theorem handleSubscriptionLog_cases (filter : EventFilter) (now : Timestamp) (latest : Head)
    (log : SubscriptionLog) (s : Store) :
    handleSubscriptionLog filter now latest log s = s ∨
      s.events.lookup (eventKey log) = none ∧ ∃ payload,
        handleSubscriptionLog filter now latest log s
          = { s with events := s.events.insert (eventKey log) (newEvent now payload) } := by
  by_cases hmem : eventKey log ∈ s.events
  · exact Or.inl (if_pos hmem)
  · exact Or.inr ⟨AList.lookup_eq_none.mpr hmem, _, if_neg hmem⟩

theorem EventRow.Follows.claim {e : EventRow} {b : BatchRow} (h : e.Follows b)
    (now : Timestamp) : (e.lease now (b.attempt + 1)).Follows (b.claim now) :=
  ⟨rfl, rfl, rfl, h.group⟩

theorem EventRow.Follows.settle {e : EventRow} {b : BatchRow} (h : e.Follows b) :
    e.settle.Follows b.settle :=
  ⟨rfl, h.attempt, rfl, h.group⟩

theorem EventRow.Follows.release {e : EventRow} {b : BatchRow} (h : e.Follows b)
    (now : Timestamp) (error : String) :
    (e.release error (b.release now error)).Follows (b.release now error) :=
  ⟨rfl, h.attempt, rfl, h.group⟩

theorem claimEvent_cases {hash : List String → String} {now : Timestamp}
    {lockedBatches lockedSeeds lockedMembers : List String} {s t : Store} {c : Option Claim}
    (h : claimEvent hash now lockedBatches lockedSeeds lockedMembers s = .ok (c, t)) :
    (c = none ∧ t = s) ∨
      (∃ key b, b.Due now ∧ Advance key b (b.claim now) s t ∧
        c = some ⟨key, b.payload, b.attempt + 1⟩) ∨
      ∃ key keys payload, Seal now key keys payload s t ∧ c = some ⟨key, payload, 1⟩ := by
  rw [claimEvent] at h
  split at h
  next key b hpicked =>
    obtain ⟨hbefore, hdue⟩ := picked_eq_some hpicked
    obtain ⟨rfl, rfl⟩ := Prod.mk.inj (Except.ok.inj h)
    refine Or.inr (Or.inl ⟨key, b, hdue, ?_, rfl⟩)
    exact advance_updateEvents hbefore rfl rfl (fun _ _ h => h) (fun _ => ⟨rfl, rfl⟩)
      fun _ _ hkey hfollows => ⟨hkey, hfollows.claim now⟩
  next =>
    split at h
    next =>
      obtain ⟨rfl, rfl⟩ := Prod.mk.inj (Except.ok.inj h)
      exact Or.inl ⟨rfl, rfl⟩
    next _ _ first hseed =>
      dsimp only at h
      split at h
      next => cases h
      next k e rest hmembers =>
        obtain ⟨_, hfresh, h⟩ := bind_eq_ok.mp h
        rw [revertIf_eq_ok] at hfresh
        obtain ⟨rfl, rfl⟩ := Prod.mk.inj (Except.ok.inj h)
        have hmem : ∀ x ∈ (k, e) :: rest, s.events.lookup x.1 = some x.2 ∧
            x.2.payload.groupKey = first.payload.groupKey ∧ x.2.Due now :=
          fun x hx => mem_members (hmembers ▸ hx)
        have hfirst := (hmem (k, e) List.mem_cons_self).2.1
        refine Or.inr (Or.inr ⟨_, ((k, e) :: rest).map Prod.fst, e.payload, ?_, rfl⟩)
        rw [hmembers] at hfresh ⊢
        refine ⟨AList.lookup_eq_none.mpr hfresh, by rw [List.length_map], ?_, ?_⟩
        · intro k' hk'
          obtain ⟨x, hx, rfl⟩ := List.mem_map.mp hk'
          obtain ⟨hlookup, hgroup, hdue⟩ := hmem x hx
          exact ⟨x.2, hlookup, hgroup.trans hfirst.symm, hdue⟩
        · intro k'
          rw [leaseEvents, lookup_updateEvents, lookup_updateEvents, Option.map_map]
          refine congrArg (fun f => Option.map f (s.events.lookup k')) (funext fun e' => ?_)
          dsimp only [Function.comp]
          split_ifs with hin hkey <;> first | rfl | exact absurd rfl hkey

theorem settleBatch_cases (c : Claim) (s : Store) :
    settleBatch c s = s ∨ ∃ b, Held b.state b.attempt c ∧
      Advance c.eventKey b b.settle s (settleBatch c s) := by
  rw [settleBatch]
  split
  next => exact Or.inl rfl
  next b hb =>
    obtain ⟨hbefore, hheld⟩ := Option.filter_eq_some_iff.mp hb
    rw [decide_eq_true_eq] at hheld
    refine Or.inr ⟨b, hheld, advance_updateEvents hbefore rfl rfl (fun _ _ h => h.1)
      (fun _ => ⟨rfl, rfl⟩) fun _ e hkey hfollows => ⟨⟨hkey, ?_⟩, hfollows.settle⟩⟩
    rw [hfollows.state, hfollows.attempt]
    exact hheld

theorem releaseClaim_cases (now : Timestamp) (c : Claim) (error : String) (s : Store) :
    releaseClaim now c error s = s ∨ ∃ b error', Held b.state b.attempt c ∧
      Advance c.eventKey b (b.release now error') s (releaseClaim now c error s) := by
  rw [releaseClaim]
  dsimp only
  split
  next => exact Or.inl rfl
  next b hb =>
    obtain ⟨hbefore, hheld⟩ := Option.filter_eq_some_iff.mp hb
    rw [decide_eq_true_eq] at hheld
    refine Or.inr ⟨b, _, hheld, advance_updateEvents hbefore rfl rfl (fun _ _ h => h.1)
      (fun _ => ⟨rfl, rfl⟩) fun _ e hkey hfollows => ⟨⟨hkey, ?_⟩, hfollows.release now _⟩⟩
    rw [hfollows.state, hfollows.attempt]
    exact hheld

/-- **A stale claim settles nothing.** -/
theorem settleBatch_stale {c : Claim} {s : Store}
    (h : ∀ b, s.batches.lookup c.eventKey = some b → ¬ Held b.state b.attempt c) :
    settleBatch c s = s := by
  rcases settleBatch_cases c s with heq | ⟨b, hheld, hadvance⟩
  · exact heq
  · exact absurd hheld (h b hadvance.before)

/-- **A stale claim releases nothing.** -/
theorem releaseClaim_stale {now : Timestamp} {c : Claim} {error : String} {s : Store}
    (h : ∀ b, s.batches.lookup c.eventKey = some b → ¬ Held b.state b.attempt c) :
    releaseClaim now c error s = s := by
  rcases releaseClaim_cases now c error s with heq | ⟨b, _, hheld, hadvance⟩
  · exact heq
  · exact absurd hheld (h b hadvance.before)

/-! ### Tables that are sound -/

/-- What the row of a batch warrants. -/
structure BatchRow.Valid (accepted : List Claim) (key : String) (b : BatchRow) : Prop where
  leased : b.state = .leased → ∃ e ∈ b.leaseExpiresAt, b.nextAttemptAt ≤ e
  queued : b.state = .queued → ⟨key, b.payload, b.attempt⟩ ∈ accepted
  dead : b.state = .dead → 8 ≤ b.attempt

/-- Every batch is valid, every event of a batch follows it, and every other event waits. -/
structure Store.Sound (accepted : List Claim) (s : Store) : Prop where
  valid : ∀ key b, s.batches.lookup key = some b → b.Valid accepted key
  follows : ∀ k e key, s.events.lookup k = some e → e.batchKey = some key →
    ∃ b, s.batches.lookup key = some b ∧ e.Follows b
  waits : ∀ k e, s.events.lookup k = some e → e.batchKey = none → e.state = .pending

theorem BatchRow.Valid.mono {accepted accepted' : List Claim} {key : String} {b : BatchRow}
    (h : b.Valid accepted key) (hsub : accepted ⊆ accepted') : b.Valid accepted' key :=
  ⟨h.leased, fun hq => hsub (h.queued hq), h.dead⟩

theorem Store.Sound.mono {accepted accepted' : List Claim} {s : Store} (h : s.Sound accepted)
    (hsub : accepted ⊆ accepted') : s.Sound accepted' :=
  ⟨fun key b hb => (h.valid key b hb).mono hsub, h.follows, h.waits⟩

/-- A lease lasts beyond the time at which the batch was due. -/
theorem BatchRow.Due.valid_claim {b : BatchRow} {now : Timestamp} (h : b.Due now)
    (accepted : List Claim) (key : String) : (b.claim now).Valid accepted key where
  leased _ := ⟨leaseEnd now, rfl, h.2.trans (Nat.le_add_right now _)⟩
  queued h := nomatch h
  dead h := nomatch h

theorem valid_newBatch (now : Timestamp) (payload : Trigger) (n : ℕ) (accepted : List Claim)
    (key : String) : (newBatch now payload n).Valid accepted key where
  leased _ := ⟨leaseEnd now, rfl, Nat.le_add_right now _⟩
  queued h := nomatch h
  dead h := nomatch h

theorem valid_settle {accepted : List Claim} {key : String} {b : BatchRow}
    (h : ⟨key, b.payload, b.attempt⟩ ∈ accepted) : b.settle.Valid accepted key where
  leased h := nomatch h
  queued _ := h
  dead h := nomatch h

theorem valid_release (accepted : List Claim) (key : String) (b : BatchRow) (now : Timestamp)
    (error : String) : (b.release now error).Valid accepted key := by
  by_cases h : 8 ≤ b.attempt
  · have hstate : (b.release now error).state = .dead := if_pos h
    exact ⟨fun h' => absurd (hstate.symm.trans h') (by decide),
      fun h' => absurd (hstate.symm.trans h') (by decide), fun _ => h⟩
  · have hstate : (b.release now error).state = .pending := if_neg h
    exact ⟨fun h' => absurd (hstate.symm.trans h') (by decide),
      fun h' => absurd (hstate.symm.trans h') (by decide),
      fun h' => absurd (hstate.symm.trans h') (by decide)⟩

/-- The event of a row after a batch has advanced. -/
theorem Advance.event {key : String} {b b' : BatchRow} {s t : Store} (h : Advance key b b' s t)
    {k : String} {e' : EventRow} (he' : t.events.lookup k = some e') :
    ∃ e, s.events.lookup k = some e ∧ e'.payload = e.payload ∧ e'.batchKey = e.batchKey ∧
      (if e.batchKey = some key then e.Follows b → e'.Follows b' else e' = e) := by
  cases he : s.events.lookup k with
  | none => exact nomatch (h.no_other k he).symm.trans he'
  | some e =>
    by_cases hkey : e.batchKey = some key
    · obtain ⟨e'', he'', hpayload, hkey', hfollows⟩ := h.own k e he hkey
      obtain rfl := Option.some.inj (he''.symm.trans he')
      exact ⟨e, rfl, hpayload, hkey'.trans hkey.symm, by rwa [if_pos hkey]⟩
    · obtain rfl := Option.some.inj ((h.others k e he hkey).symm.trans he')
      exact ⟨e, rfl, rfl, rfl, by rw [if_neg hkey]⟩

theorem Advance.sound {accepted : List Claim} {key : String} {b b' : BatchRow} {s t : Store}
    (h : Advance key b b' s t) (hs : s.Sound accepted) (hb' : b'.Valid accepted key) :
    t.Sound accepted where
  valid k row hrow := by
    rw [h.after] at hrow
    rcases eq_or_ne k key with rfl | hne
    · rw [AList.lookup_insert] at hrow
      exact Option.some.inj hrow ▸ hb'
    · rw [AList.lookup_insert_ne hne] at hrow
      exact hs.valid k row hrow
  follows k e' key' he' hkey' := by
    obtain ⟨e, he, -, hsame, hcase⟩ := h.event he'
    obtain ⟨row, hrow, hfollows⟩ := hs.follows k e key' he (hsame ▸ hkey')
    rw [h.after]
    rcases eq_or_ne key' key with rfl | hne
    · obtain rfl := Option.some.inj (hrow.symm.trans h.before)
      rw [if_pos (hsame ▸ hkey')] at hcase
      exact ⟨b', AList.lookup_insert _, hcase hfollows⟩
    · rw [if_neg fun heq => hne (Option.some.inj ((hsame ▸ hkey').symm.trans heq))] at hcase
      rw [AList.lookup_insert_ne hne]
      exact ⟨row, hrow, hcase ▸ hfollows⟩
  waits k e' he' hnone := by
    obtain ⟨e, he, -, hsame, hcase⟩ := h.event he'
    have hnone' : e.batchKey = none := hsame ▸ hnone
    have hne : e.batchKey ≠ some key := hnone' ▸ (Option.some_ne_none key).symm
    rw [if_neg hne] at hcase
    exact hcase ▸ hs.waits k e he hnone'

/-- An event that is in the table before and after a batch was sealed. -/
theorem Seal.event {now : Timestamp} {key : String} {keys : List String} {payload : Trigger}
    {accepted : List Claim} {s t : Store} (h : Seal now key keys payload s t)
    (hs : s.Sound accepted) {k : String} {e' : EventRow} (he' : t.events.lookup k = some e') :
    ∃ e, s.events.lookup k = some e ∧ e'.payload = e.payload ∧
      (e' = e ∧ k ∉ keys ∧ e.batchKey ≠ some key ∨
        k ∈ keys ∧ e.batchKey = none ∧ e'.batchKey = some key ∧
          e'.Follows (newBatch now payload keys.length)) := by
  rw [h.events] at he'
  obtain ⟨e, he, rfl⟩ := Option.map_eq_some_iff.mp he'
  refine ⟨e, he, ?_⟩
  split_ifs with hin hkey
  · obtain ⟨row, hrow, hgroup, hdue⟩ := h.due k hin
    obtain rfl := Option.some.inj (hrow.symm.trans he)
    exact ⟨rfl, Or.inr ⟨hin, hdue.1, rfl, rfl, rfl, rfl, hgroup⟩⟩
  · -- no event can be in a batch that is not there
    obtain ⟨row, hrow, -⟩ := hs.follows k e key he hkey
    exact nomatch h.fresh.symm.trans hrow
  · exact ⟨rfl, Or.inl ⟨rfl, hin, hkey⟩⟩

theorem Seal.exists_event {now : Timestamp} {key : String} {keys : List String}
    {payload : Trigger} {s t : Store} (h : Seal now key keys payload s t) {k : String}
    {e : EventRow} (he : s.events.lookup k = some e) : ∃ e', t.events.lookup k = some e' :=
  ⟨_, (h.events k).trans (congrArg (Option.map _) he)⟩

theorem Seal.sound {now : Timestamp} {key : String} {keys : List String} {payload : Trigger}
    {accepted : List Claim} {s t : Store} (h : Seal now key keys payload s t)
    (hs : s.Sound accepted) : t.Sound accepted where
  valid k row hrow := by
    rw [h.after] at hrow
    rcases eq_or_ne k key with rfl | hne
    · rw [AList.lookup_insert] at hrow
      exact Option.some.inj hrow ▸ valid_newBatch now payload keys.length accepted k
    · rw [AList.lookup_insert_ne hne] at hrow
      exact hs.valid k row hrow
  follows k e' key' he' hkey' := by
    rw [h.after]
    obtain ⟨e, he, -, ⟨rfl, -, hne⟩ | ⟨-, -, hkey, hfollows⟩⟩ := h.event hs he'
    · obtain ⟨row, hrow, hfollows⟩ := hs.follows k e' key' he hkey'
      rw [AList.lookup_insert_ne fun heq : key' = key => hne (heq ▸ hkey')]
      exact ⟨row, hrow, hfollows⟩
    · obtain rfl := Option.some.inj (hkey'.symm.trans hkey)
      exact ⟨_, AList.lookup_insert _, hfollows⟩
  waits k e' he' hnone := by
    obtain ⟨e, he, -, ⟨rfl, -, -⟩ | ⟨-, -, hkey, -⟩⟩ := h.event hs he'
    · exact hs.waits k e' he hnone
    · exact nomatch hnone.symm.trans hkey

theorem Store.Sound.insert {accepted : List Claim} {s : Store} (hs : s.Sound accepted)
    (k : String) (now : Timestamp) (payload : Trigger) :
    Store.Sound accepted { s with events := s.events.insert k (newEvent now payload) } where
  valid := hs.valid
  follows k' e key he hkey := by
    rcases eq_or_ne k' k with rfl | hne
    · rw [AList.lookup_insert] at he
      obtain rfl := Option.some.inj he
      cases hkey
    · rw [AList.lookup_insert_ne hne] at he
      exact hs.follows k' e key he hkey
  waits k' e he hnone := by
    rcases eq_or_ne k' k with rfl | hne
    · rw [AList.lookup_insert] at he
      obtain rfl := Option.some.inj he
      rfl
    · rw [AList.lookup_insert_ne hne] at he
      exact hs.waits k' e he hnone

/-! ### What is never undone -/

/-- The event `k` is in the batch `key`. -/
def Store.Member (s : Store) (key k : String) : Prop :=
  ∃ e, s.events.lookup k = some e ∧ e.batchKey = some key

/-- The second tables have the batches of the first with the same members, and its events in the
batches where they were. -/
structure Store.Keeps (s t : Store) : Prop where
  batch : ∀ key b, s.batches.lookup key = some b → ∃ b', t.batches.lookup key = some b' ∧
    b'.payload = b.payload ∧ b'.eventCount = b.eventCount ∧ b.attempt ≤ b'.attempt
  members : ∀ key b, s.batches.lookup key = some b → ∀ k, t.Member key k ↔ s.Member key k
  event : ∀ k e, s.events.lookup k = some e → ∃ e', t.events.lookup k = some e' ∧
    e'.payload = e.payload ∧ ∀ key, e.batchKey = some key → e'.batchKey = some key

theorem Store.Keeps.refl (s : Store) : s.Keeps s where
  batch _ b hb := ⟨b, hb, rfl, rfl, le_rfl⟩
  members _ _ _ _ := Iff.rfl
  event _ e he := ⟨e, he, rfl, fun _ => id⟩

theorem Store.Keeps.trans {s t u : Store} (h : s.Keeps t) (h' : t.Keeps u) : s.Keeps u where
  batch key b hb := by
    obtain ⟨b', hb', hpayload, hcount, hle⟩ := h.batch key b hb
    obtain ⟨b'', hb'', hpayload', hcount', hle'⟩ := h'.batch key b' hb'
    exact ⟨b'', hb'', hpayload'.trans hpayload, hcount'.trans hcount, hle.trans hle'⟩
  members key b hb k := by
    obtain ⟨b', hb', -⟩ := h.batch key b hb
    exact (h'.members key b' hb' k).trans (h.members key b hb k)
  event k e he := by
    obtain ⟨e', he', hpayload, hkey⟩ := h.event k e he
    obtain ⟨e'', he'', hpayload', hkey'⟩ := h'.event k e' he'
    exact ⟨e'', he'', hpayload'.trans hpayload, fun key h => hkey' key (hkey key h)⟩

theorem Advance.keeps {key : String} {b b' : BatchRow} {s t : Store} (h : Advance key b b' s t)
    (hle : b.attempt ≤ b'.attempt) : s.Keeps t where
  batch k row hrow := by
    rw [h.after]
    rcases eq_or_ne k key with rfl | hne
    · obtain rfl := Option.some.inj (hrow.symm.trans h.before)
      exact ⟨b', AList.lookup_insert _, h.payload, h.eventCount, hle⟩
    · exact ⟨row, (AList.lookup_insert_ne hne).trans hrow, rfl, rfl, le_rfl⟩
  members key' _ _ k := by
    constructor
    · rintro ⟨e', he', hkey'⟩
      obtain ⟨e, he, -, hsame, -⟩ := h.event he'
      exact ⟨e, he, hsame ▸ hkey'⟩
    · rintro ⟨e, he, hkey'⟩
      by_cases hkey : e.batchKey = some key
      · obtain ⟨e', he', -, hkey'', -⟩ := h.own k e he hkey
        exact ⟨e', he', hkey''.trans (hkey.symm.trans hkey')⟩
      · exact ⟨e, h.others k e he hkey, hkey'⟩
  event k e he := by
    by_cases hkey : e.batchKey = some key
    · obtain ⟨e', he', hpayload, hkey', -⟩ := h.own k e he hkey
      exact ⟨e', he', hpayload, fun _ h => hkey'.trans (hkey.symm.trans h)⟩
    · exact ⟨e, h.others k e he hkey, rfl, fun _ => id⟩

theorem Seal.keeps {now : Timestamp} {key : String} {keys : List String} {payload : Trigger}
    {accepted : List Claim} {s t : Store} (h : Seal now key keys payload s t)
    (hs : s.Sound accepted) : s.Keeps t where
  batch k row hrow := by
    have hne : k ≠ key := by
      rintro rfl
      exact nomatch h.fresh.symm.trans hrow
    exact ⟨row, h.after ▸ (AList.lookup_insert_ne hne).trans hrow, rfl, rfl, le_rfl⟩
  members key' row hrow k := by
    have hne : key' ≠ key := by
      rintro rfl
      exact nomatch h.fresh.symm.trans hrow
    constructor
    · rintro ⟨e', he', hkey'⟩
      obtain ⟨e, he, -, ⟨rfl, -⟩ | ⟨-, -, hkey, -⟩⟩ := h.event hs he'
      · exact ⟨e', he, hkey'⟩
      · exact absurd (Option.some.inj (hkey'.symm.trans hkey)) hne
    · rintro ⟨e, he, hkey'⟩
      obtain ⟨e', he'⟩ := h.exists_event he
      obtain ⟨e₀, he₀, -, ⟨heq, -⟩ | ⟨-, hnone, -⟩⟩ := h.event hs he'
      · obtain rfl := Option.some.inj (he₀.symm.trans he)
        exact ⟨_, he', heq ▸ hkey'⟩
      · obtain rfl := Option.some.inj (he₀.symm.trans he)
        exact nomatch hnone.symm.trans hkey'
  event k e he := by
    obtain ⟨e', he'⟩ := h.exists_event he
    obtain ⟨e₀, he₀, hpayload, hcase⟩ := h.event hs he'
    obtain rfl := Option.some.inj (he₀.symm.trans he)
    refine ⟨e', he', hpayload, fun key' hkey' => ?_⟩
    rcases hcase with ⟨heq, -⟩ | ⟨-, hnone, -⟩
    · exact heq ▸ hkey'
    · exact nomatch hnone.symm.trans hkey'

theorem Store.Keeps.insert {s : Store} {k : String} (hk : s.events.lookup k = none)
    (now : Timestamp) (payload : Trigger) :
    s.Keeps { s with events := s.events.insert k (newEvent now payload) } where
  batch _ b hb := ⟨b, hb, rfl, rfl, le_rfl⟩
  members key _ _ k' := by
    rcases eq_or_ne k' k with rfl | hne
    · constructor
      · rintro ⟨e, he, hkey⟩
        rw [AList.lookup_insert] at he
        obtain rfl := Option.some.inj he
        cases hkey
      · rintro ⟨e, he, -⟩
        exact nomatch hk.symm.trans he
    · rw [Store.Member, AList.lookup_insert_ne hne]
      exact Iff.rfl
  event k' e he := by
    have hne : k' ≠ k := by
      rintro rfl
      exact nomatch hk.symm.trans he
    exact ⟨e, (AList.lookup_insert_ne hne).trans he, rfl, fun _ => id⟩

/-! ### Publishers -/

/-- The tables are sound, every claim that is held is one of its batch, up to date or not, and no
attempt of a batch is held twice. -/
structure System.Sound (s : System) : Prop where
  store : s.store.Sound s.accepted
  holds : ∀ p c phase, s.publishers p = some (c, phase) →
    (∃ b, s.store.batches.lookup c.eventKey = some b ∧ b.payload = c.payload ∧
      c.attempt ≤ b.attempt) ∧ (phase = .published → c ∈ s.accepted)
  alone : ∀ p q c d phase phase', s.publishers p = some (c, phase) →
    s.publishers q = some (d, phase') → c.eventKey = d.eventKey → c.attempt = d.attempt → p = q

/-- A publisher turns to something, in a store that keeps what there was. -/
theorem System.Sound.turn {s : System} (hs : s.Sound) {store : Store} {accepted : List Claim}
    (hstore : store.Sound accepted) (hkeeps : s.store.Keeps store)
    (hsub : s.accepted ⊆ accepted) {p : ℕ} {next : Option (Claim × Phase)}
    (hnext : ∀ c phase, next = some (c, phase) →
      (∃ b, store.batches.lookup c.eventKey = some b ∧ b.payload = c.payload ∧
        c.attempt ≤ b.attempt) ∧ (phase = .published → c ∈ accepted) ∧
      ∀ q d phase', q ≠ p → s.publishers q = some (d, phase') → c.eventKey = d.eventKey →
        c.attempt ≠ d.attempt) :
    System.Sound ⟨store, update s.publishers p next, accepted⟩ where
  store := hstore
  holds q c phase h := by
    dsimp only at h
    rcases eq_or_ne q p with rfl | hne
    · rw [update_self] at h
      exact ⟨(hnext c phase h).1, (hnext c phase h).2.1⟩
    · rw [update_of_ne hne] at h
      obtain ⟨⟨b, hb, hpayload, hle⟩, haccepted⟩ := hs.holds q c phase h
      obtain ⟨b', hb', hpayload', -, hle'⟩ := hkeeps.batch _ b hb
      exact ⟨⟨b', hb', hpayload'.trans hpayload, hle.trans hle'⟩, fun h => hsub (haccepted h)⟩
  alone q r c d phase phase' hq hr hkey hattempt := by
    dsimp only at hq hr
    by_contra hqr
    rcases eq_or_ne q p with rfl | hqp
    · rw [update_self] at hq
      rw [update_of_ne (Ne.symm hqr)] at hr
      exact (hnext c phase hq).2.2 r d phase' (Ne.symm hqr) hr hkey hattempt
    · rw [update_of_ne hqp] at hq
      rcases eq_or_ne r p with rfl | hrp
      · rw [update_self] at hr
        exact (hnext d phase' hr).2.2 q c phase hqr hq hkey.symm hattempt.symm
      · rw [update_of_ne hrp] at hr
        exact hqr (hs.alone q r c d phase phase' hq hr hkey hattempt)

/-- A publisher goes on with its claim. -/
theorem System.Sound.turn_same {s : System} (hs : s.Sound) {store : Store}
    {accepted : List Claim} (hstore : store.Sound accepted) (hkeeps : s.store.Keeps store)
    (hsub : s.accepted ⊆ accepted) {p : ℕ} {c : Claim} {phase phase' : Phase}
    (hp : s.publishers p = some (c, phase)) (hc : phase' = .published → c ∈ accepted) :
    System.Sound ⟨store, update s.publishers p (some (c, phase')), accepted⟩ := by
  refine hs.turn hstore hkeeps hsub fun d ph hd => ?_
  obtain ⟨rfl, rfl⟩ := Prod.mk.inj (Option.some.inj hd)
  obtain ⟨⟨b, hb, hpayload, hle⟩, -⟩ := hs.holds p c phase hp
  obtain ⟨b', hb', hpayload', -, hle'⟩ := hkeeps.batch _ b hb
  refine ⟨⟨b', hb', hpayload'.trans hpayload, hle.trans hle'⟩, hc, ?_⟩
  intro q d ph' hqp hq hkey hattempt
  exact hqp (hs.alone p q c d phase ph' hp hq hkey hattempt).symm

/-- A publisher has nothing to do. -/
theorem System.Sound.turn_none {s : System} (hs : s.Sound) {store : Store}
    (hstore : store.Sound s.accepted) (hkeeps : s.store.Keeps store) (p : ℕ) :
    System.Sound ⟨store, update s.publishers p none, s.accepted⟩ :=
  hs.turn hstore hkeeps (List.Subset.refl _) fun _ _ h => nomatch h

theorem System.Sound.store_only {s : System} (hs : s.Sound) {store : Store}
    (hstore : store.Sound s.accepted) (hkeeps : s.store.Keeps store) :
    System.Sound ⟨store, s.publishers, s.accepted⟩ where
  store := hstore
  holds p c phase h := by
    obtain ⟨⟨b, hb, hpayload, hle⟩, haccepted⟩ := hs.holds p c phase h
    obtain ⟨b', hb', hpayload', -, hle'⟩ := hkeeps.batch _ b hb
    exact ⟨⟨b', hb', hpayload'.trans hpayload, hle.trans hle'⟩, haccepted⟩
  alone := hs.alone

/-- The claim of a publisher that is still the holder is the whole of what a settled batch needs. -/
theorem System.Sound.claim_eq {s : System} (hs : s.Sound) {p : ℕ} {c : Claim} {phase : Phase}
    (hp : s.publishers p = some (c, phase)) {b : BatchRow}
    (hb : s.store.batches.lookup c.eventKey = some b) (hheld : Held b.state b.attempt c) :
    c = ⟨c.eventKey, b.payload, b.attempt⟩ := by
  obtain ⟨⟨b', hb', hpayload, -⟩, -⟩ := hs.holds p c phase hp
  obtain rfl := Option.some.inj (hb'.symm.trans hb)
  rw [hpayload, hheld.2]

variable {filter : EventFilter} {hash : List String → String}

/-! #### What each transaction keeps -/

theorem sound_handleSubscriptionLog (filter : EventFilter) (now : Timestamp) (latest : Head)
    (log : SubscriptionLog) {s : Store} {accepted : List Claim} (hs : s.Sound accepted) :
    (handleSubscriptionLog filter now latest log s).Sound accepted ∧
      s.Keeps (handleSubscriptionLog filter now latest log s) := by
  rcases handleSubscriptionLog_cases filter now latest log s with heq | ⟨hnew, payload, heq⟩
  · rw [heq]
    exact ⟨hs, .refl s⟩
  · rw [heq]
    exact ⟨hs.insert _ now payload, .insert hnew now payload⟩

theorem sound_claimEvent {now : Timestamp} {lockedBatches lockedSeeds lockedMembers : List String}
    {s t : Store} {c : Option Claim} {accepted : List Claim} (hs : s.Sound accepted)
    (h : claimEvent hash now lockedBatches lockedSeeds lockedMembers s = .ok (c, t)) :
    t.Sound accepted ∧ s.Keeps t := by
  obtain ⟨-, rfl⟩ | ⟨key, b, hdue, hadvance, -⟩ | ⟨key, keys, payload, hseal, -⟩ :=
    claimEvent_cases h
  · exact ⟨hs, .refl _⟩
  · exact ⟨hadvance.sound hs (hdue.valid_claim accepted key),
      hadvance.keeps (Nat.le_succ b.attempt)⟩
  · exact ⟨hseal.sound hs, hseal.keeps hs⟩

/-- A claim that is returned is of the last attempt of its batch, all others are of earlier ones. -/
theorem claimEvent_new {s : System} (hs : s.Sound) {now : Timestamp}
    {lockedBatches lockedSeeds lockedMembers : List String} {t : Store} {c : Claim}
    (h : claimEvent hash now lockedBatches lockedSeeds lockedMembers s.store = .ok (some c, t)) :
    (∃ b, t.batches.lookup c.eventKey = some b ∧ b.payload = c.payload ∧
        c.attempt ≤ b.attempt) ∧
      ∀ q d phase, s.publishers q = some (d, phase) → c.eventKey = d.eventKey →
        c.attempt ≠ d.attempt := by
  obtain ⟨hnone, -⟩ | ⟨key, b, -, hadvance, hc⟩ | ⟨key, keys, payload, hseal, hc⟩ :=
    claimEvent_cases h
  · cases hnone
  · obtain rfl := Option.some.inj hc
    refine ⟨⟨b.claim now, hadvance.after ▸ AList.lookup_insert _, rfl, le_rfl⟩, ?_⟩
    rintro q d phase hq rfl hattempt
    obtain ⟨⟨b', hb', -, hle⟩, -⟩ := hs.holds q d phase hq
    obtain rfl := Option.some.inj (hb'.symm.trans hadvance.before)
    exact Nat.not_succ_le_self b'.attempt (hattempt.trans_le hle)
  · obtain rfl := Option.some.inj hc
    refine ⟨⟨newBatch now payload keys.length, hseal.after ▸ AList.lookup_insert _, rfl, le_rfl⟩,
      ?_⟩
    rintro q d phase hq rfl -
    obtain ⟨⟨b', hb', -⟩, -⟩ := hs.holds q d phase hq
    exact nomatch hseal.fresh.symm.trans hb'

theorem System.Sound.settleBatch {s : System} (hs : s.Sound) {p : ℕ} {c : Claim}
    (hp : s.publishers p = some (c, .published)) :
    (settleBatch c s.store).Sound s.accepted ∧
      s.store.Keeps (ChainRelay.settleBatch c s.store) := by
  rcases settleBatch_cases c s.store with heq | ⟨b, hheld, hadvance⟩
  · rw [heq]
    exact ⟨hs.store, .refl _⟩
  · have haccepted := (hs.holds p c .published hp).2 rfl
    rw [hs.claim_eq hp hadvance.before hheld] at haccepted
    exact ⟨hadvance.sound hs.store (valid_settle haccepted), hadvance.keeps le_rfl⟩

theorem sound_releaseClaim (now : Timestamp) (c : Claim) (error : String) {s : Store}
    {accepted : List Claim} (hs : s.Sound accepted) :
    (releaseClaim now c error s).Sound accepted ∧ s.Keeps (releaseClaim now c error s) := by
  rcases releaseClaim_cases now c error s with heq | ⟨b, error', -, hadvance⟩
  · rw [heq]
    exact ⟨hs, .refl _⟩
  · exact ⟨hadvance.sound hs (valid_release accepted _ b now error'), hadvance.keeps le_rfl⟩

/-- **The step lemma.** -/
theorem Step.sound {s t : System} {e : Event} (h : Step filter hash s e t) (hs : s.Sound) :
    t.Sound ∧ s.store.Keeps t.store := by
  cases h with
  | insert now latest log =>
    obtain ⟨hsound, hkeeps⟩ :=
      sound_handleSubscriptionLog filter now latest log hs.store
    exact ⟨hs.store_only hsound hkeeps, hkeeps⟩
  | @claim p now _ _ _ c store answered _ hclaim =>
    obtain ⟨hsound, hkeeps⟩ := sound_claimEvent hs.store hclaim
    refine ⟨hs.turn hsound hkeeps (List.Subset.refl _) fun d phase hd => ?_, hkeeps⟩
    cases answered with
    | false => cases hd
    | true =>
      obtain ⟨c', rfl, heq⟩ := Option.map_eq_some_iff.mp hd
      obtain ⟨rfl, rfl⟩ := Prod.mk.inj heq
      obtain ⟨hbatch, hnew⟩ := claimEvent_new hs hclaim
      exact ⟨hbatch, (nomatch ·), fun q d phase _ => hnew q d phase⟩
  | @accept p c hp =>
    have hsub : s.accepted ⊆ c :: s.accepted := List.subset_cons_self c _
    exact ⟨hs.turn_same (hs.store.mono hsub) (.refl _) hsub hp fun _ => List.mem_cons_self,
      .refl _⟩
  | refuse hp =>
    exact ⟨hs.turn_same hs.store (.refl _) (List.Subset.refl _) hp (nomatch ·), .refl _⟩
  | @settle p c committed answered hp =>
    obtain ⟨hsound, hkeeps⟩ : Store.Sound s.accepted
        (if committed then settleBatch c s.store else s.store) ∧
        s.store.Keeps (if committed then settleBatch c s.store else s.store) := by
      cases committed with
      | false => exact ⟨hs.store, .refl _⟩
      | true => exact hs.settleBatch hp
    refine ⟨?_, hkeeps⟩
    cases hdone : committed && answered with
    | true => exact hs.turn_none hsound hkeeps p
    | false => exact hs.turn_same hsound hkeeps (List.Subset.refl _) hp (nomatch ·)
  | @release p c now error committed hp =>
    obtain ⟨hsound, hkeeps⟩ : Store.Sound s.accepted
        (if committed then releaseClaim now c error s.store else s.store) ∧
        s.store.Keeps (if committed then releaseClaim now c error s.store else s.store) := by
      cases committed with
      | false => exact ⟨hs.store, .refl _⟩
      | true => exact sound_releaseClaim now c error hs.store
    exact ⟨hs.turn_none hsound hkeeps p, hkeeps⟩
  | crash p => exact ⟨hs.turn_none hs.store (.refl _) p, .refl _⟩

theorem System.sound_initial : System.initial.Sound where
  store := ⟨fun _ _ h => (nomatch h), fun _ _ _ h => (nomatch h), fun _ _ h => (nomatch h)⟩
  holds _ _ _ h := nomatch h
  alone _ _ _ _ _ _ h := nomatch h

theorem Reachable.initial : Reachable filter hash .initial :=
  Transition.Reachable.of_init rfl

theorem Reachable.step {s t : System} {e : Event} (hs : Reachable filter hash s)
    (h : Step filter hash s e t) : Reachable filter hash t :=
  hs.next h

/-- **The invariant** of all reachable states. -/
theorem Reachable.sound {s : System} (hs : Reachable filter hash s) : s.Sound :=
  hs.invariant (fun _ h => h ▸ System.sound_initial) fun _ _ _ hs h => (h.sound hs).1

/-- **The run lemma**: batches and events are kept for ever. -/
theorem Reachable.keeps {s t : System} {es : List Event} (hs : Reachable filter hash s)
    (h : Transition.Run (Step filter hash) s es t) : s.store.Keeps t.store := by
  induction h with
  | refl => exact .refl _
  | snoc hrun hlast ih =>
    exact ih.trans (hlast.sound (Reachable.sound (hs.of_run hrun))).2

/-! ### What a step does to a batch -/

/-- What may become of the batch `key` in a step, and by whom. -/
inductive BatchStep (s : System) (key : String) : Event → BatchRow → Prop
  | same {e : Event} {b : BatchRow} :
    s.store.batches.lookup key = some b → BatchStep s key e b
  | sealed {p : ℕ} {now : Timestamp} {lockedBatches lockedSeeds lockedMembers : List String}
      {answered : Bool} {payload : Trigger} {n : ℕ} :
    s.store.batches.lookup key = none →
    BatchStep s key (.claim p now lockedBatches lockedSeeds lockedMembers answered)
      (newBatch now payload n)
  | claimed {p : ℕ} {now : Timestamp} {lockedBatches lockedSeeds lockedMembers : List String}
      {answered : Bool} {b : BatchRow} :
    s.store.batches.lookup key = some b → b.Due now →
    BatchStep s key (.claim p now lockedBatches lockedSeeds lockedMembers answered) (b.claim now)
  | settled {p : ℕ} {answered : Bool} {b : BatchRow} :
    s.store.batches.lookup key = some b → b.state = .leased →
    s.publishers p = some (⟨key, b.payload, b.attempt⟩, .published) →
    BatchStep s key (.settle p true answered) b.settle
  | released {p : ℕ} {now : Timestamp} {error error' : String} {b : BatchRow} :
    s.store.batches.lookup key = some b → b.state = .leased →
    s.publishers p = some (⟨key, b.payload, b.attempt⟩, .failed) →
    BatchStep s key (.release p now error true) (b.release now error')

theorem Advance.lookup {key : String} {b b' : BatchRow} {s t : Store} (h : Advance key b b' s t)
    {k : String} {row : BatchRow} (hrow : t.batches.lookup k = some row) :
    s.batches.lookup k = some row ∨ k = key ∧ row = b' := by
  rw [h.after] at hrow
  rcases eq_or_ne k key with rfl | hne
  · rw [AList.lookup_insert] at hrow
    exact Or.inr ⟨rfl, (Option.some.inj hrow).symm⟩
  · rw [AList.lookup_insert_ne hne] at hrow
    exact Or.inl hrow

/-- **The batches of a step.** -/
theorem Step.batch {s t : System} {e : Event} (h : Step filter hash s e t) (hs : s.Sound)
    {key : String} {row : BatchRow} (hrow : t.store.batches.lookup key = some row) :
    BatchStep s key e row := by
  cases h with
  | insert now latest log =>
    rcases handleSubscriptionLog_cases filter now latest log s.store with heq | ⟨-, _, heq⟩
    · exact .same (heq ▸ hrow)
    · change (handleSubscriptionLog filter now latest log s.store).batches.lookup key = _ at hrow
      rw [heq] at hrow
      exact .same hrow
  | claim answered _ hclaim =>
    obtain ⟨-, rfl⟩ | ⟨key', b, hdue, hadvance, -⟩ | ⟨key', keys, payload, hseal, -⟩ :=
      claimEvent_cases hclaim
    · exact .same hrow
    · rcases hadvance.lookup hrow with hsame | ⟨rfl, rfl⟩
      · exact .same hsame
      · exact .claimed hadvance.before hdue
    · have hlookup := (congrArg (AList.lookup key) hseal.after).symm.trans hrow
      rcases eq_or_ne key key' with rfl | hne
      · rw [AList.lookup_insert] at hlookup
        exact Option.some.inj hlookup ▸ .sealed hseal.fresh
      · exact .same ((AList.lookup_insert_ne hne).symm.trans hlookup)
  | accept => exact .same hrow
  | refuse => exact .same hrow
  | @settle p c committed answered hp =>
    cases committed with
    | false => exact .same hrow
    | true =>
      rcases settleBatch_cases c s.store with heq | ⟨b, hheld, hadvance⟩
      · exact .same (heq ▸ hrow)
      · rcases hadvance.lookup hrow with hsame | ⟨rfl, rfl⟩
        · exact .same hsame
        · exact .settled hadvance.before hheld.1 (hs.claim_eq hp hadvance.before hheld ▸ hp)
  | @release p c now error committed hp =>
    cases committed with
    | false => exact .same hrow
    | true =>
      rcases releaseClaim_cases now c error s.store with heq | ⟨b, error', hheld, hadvance⟩
      · exact .same (heq ▸ hrow)
      · rcases hadvance.lookup hrow with hsame | ⟨rfl, rfl⟩
        · exact .same hsame
        · exact .released hadvance.before hheld.1 (hs.claim_eq hp hadvance.before hheld ▸ hp)
  | crash p => exact .same hrow

/-! ### The outbox -/

/-- The publisher `p` holds the current attempt of the batch, and stands at `phase`. -/
def System.Holder (s : System) (p : ℕ) (key : String) (b : BatchRow) (phase : Phase) : Prop :=
  s.publishers p = some (⟨key, b.payload, b.attempt⟩, phase)

/-- The event is accounted for at a time: its batch is sent or given up, or there is a live lease
on it, or a time from which it may be claimed. -/
def System.Accounted (s : System) (now : Timestamp) (e : EventRow) : Prop :=
  (e.batchKey = none ∧ (e.Due now ∨ e.state = .pending ∧ now < e.nextAttemptAt)) ∨
    ∃ key b, e.batchKey = some key ∧ s.store.batches.lookup key = some b ∧
      (b.state = .queued ∨ b.state = .dead ∨
        (b.state = .leased ∧ ∃ l ∈ b.leaseExpiresAt, now < l) ∨
        b.Due now ∨ b.state = .pending ∧ now < b.nextAttemptAt)

/-- What holds of every state. -/
structure System.Outbox (s : System) : Prop where
  batched : ∀ k e key, s.store.events.lookup k = some e → e.batchKey = some key →
    ∃ b, s.store.batches.lookup key = some b ∧ e.state = b.state ∧ e.attempt = b.attempt
  grouped : ∀ key k k' e e', s.store.events.lookup k = some e → e.batchKey = some key →
    s.store.events.lookup k' = some e' → e'.batchKey = some key →
    e.payload.log.blockHash = e'.payload.log.blockHash ∧
      e.payload.log.removed = e'.payload.log.removed ∧ e.payload.head.hash = e'.payload.head.hash
  queued : ∀ key b, s.store.batches.lookup key = some b → b.state = .queued →
    ⟨key, b.payload, b.attempt⟩ ∈ s.accepted
  dead : ∀ key b, s.store.batches.lookup key = some b → b.state = .dead → 8 ≤ b.attempt
  alone : ∀ p q key b phase phase', s.Holder p key b phase → s.Holder q key b phase' → p = q
  accounted : ∀ now k e, s.store.events.lookup k = some e → s.Accounted now e

/-- What holds of every step. -/
structure Guarded (s : System) (e : Event) (t : System) : Prop where
  queued : ∀ key b, t.store.batches.lookup key = some b → b.state = .queued →
    s.store.batches.lookup key = some b ∨ ∃ p answered b₀, e = .settle p true answered ∧
      s.store.batches.lookup key = some b₀ ∧ b = b₀.settle ∧ s.Holder p key b₀ .published
  dead : ∀ key b, t.store.batches.lookup key = some b → b.state = .dead →
    s.store.batches.lookup key = some b ∨ ∃ p now error b₀, e = .release p now error true ∧
      s.store.batches.lookup key = some b₀ ∧ 8 ≤ b₀.attempt ∧ s.Holder p key b₀ .failed
  final : ∀ key b, s.store.batches.lookup key = some b → b.state = .queued ∨ b.state = .dead →
    t.store.batches.lookup key = some b
  stale : ∀ p c phase, s.publishers p = some (c, phase) →
    (∀ b, s.store.batches.lookup c.eventKey = some b → ¬ Held b.state b.attempt c) →
    (∀ answered committed, e = .settle p committed answered → t.store = s.store) ∧
      ∀ now error committed, e = .release p now error committed → t.store = s.store

theorem BatchRow.Valid.due_of_leased {accepted : List Claim} {key : String} {b : BatchRow}
    (h : b.Valid accepted key) (hleased : b.state = .leased) (now : Timestamp) :
    (∃ l ∈ b.leaseExpiresAt, now < l) ∨ b.Due now := by
  obtain ⟨l, hl, hle⟩ := h.leased hleased
  rcases lt_or_ge now l with hlt | hge
  · exact Or.inl ⟨l, hl, hlt⟩
  · exact Or.inr ⟨Or.inr ⟨hleased, l, hl, hge⟩, hle.trans hge⟩

/-- **No event is lost.** -/
theorem System.Sound.accounted {s : System} (hs : s.Sound) (now : Timestamp) {k : String}
    {e : EventRow} (he : s.store.events.lookup k = some e) : s.Accounted now e := by
  cases hkey : e.batchKey with
  | none =>
    have hpending := hs.store.waits k e he hkey
    refine Or.inl ⟨hkey, ?_⟩
    rcases le_or_gt e.nextAttemptAt now with hle | hlt
    · exact Or.inl ⟨hkey, Or.inl hpending, hle⟩
    · exact Or.inr ⟨hpending, hlt⟩
  | some key =>
    obtain ⟨b, hb, -⟩ := hs.store.follows k e key he hkey
    refine Or.inr ⟨key, b, hkey, hb, ?_⟩
    cases hstate : b.state with
    | queued => exact Or.inl rfl
    | dead => exact Or.inr (Or.inl rfl)
    | leased =>
      rcases (hs.store.valid key b hb).due_of_leased hstate now with hlive | hdue
      · exact Or.inr (Or.inr (Or.inl ⟨rfl, hlive⟩))
      · exact Or.inr (Or.inr (Or.inr (Or.inl hdue)))
    | pending =>
      rcases le_or_gt b.nextAttemptAt now with hle | hlt
      · exact Or.inr (Or.inr (Or.inr (Or.inl ⟨Or.inl hstate, hle⟩)))
      · exact Or.inr (Or.inr (Or.inr (Or.inr ⟨rfl, hlt⟩)))

theorem System.Sound.outbox {s : System} (hs : s.Sound) : s.Outbox where
  batched k e key he hkey := by
    obtain ⟨b, hb, hfollows⟩ := hs.store.follows k e key he hkey
    exact ⟨b, hb, hfollows.state, hfollows.attempt⟩
  grouped key k k' e e' he hkey he' hkey' := by
    obtain ⟨b, hb, hfollows⟩ := hs.store.follows k e key he hkey
    obtain ⟨b', hb', hfollows'⟩ := hs.store.follows k' e' key he' hkey'
    obtain rfl := Option.some.inj (hb.symm.trans hb')
    exact groupKey_inj (hfollows.group.trans hfollows'.group.symm)
  queued key b hb := (hs.store.valid key b hb).queued
  dead key b hb := (hs.store.valid key b hb).dead
  alone p q key b phase phase' hp hq := hs.alone p q _ _ phase phase' hp hq rfl rfl
  accounted now _ _ he := hs.accounted now he

theorem Step.guarded {s t : System} {e : Event} (h : Step filter hash s e t) (hs : s.Sound) :
    Guarded s e t where
  queued key b hb hqueued := by
    cases h.batch hs hb with
    | same hsame => exact Or.inl hsame
    | sealed => cases hqueued
    | claimed => cases hqueued
    | settled hb₀ _ hp => exact Or.inr ⟨_, _, _, rfl, hb₀, rfl, hp⟩
    | @released p now _ _ b₀ =>
      by_cases hmany : 8 ≤ b₀.attempt
      · exact absurd ((if_pos hmany).symm.trans hqueued) (by decide)
      · exact absurd ((if_neg hmany).symm.trans hqueued) (by decide)
  dead key b hb hdead := by
    cases h.batch hs hb with
    | same hsame => exact Or.inl hsame
    | sealed => cases hdead
    | claimed => cases hdead
    | settled => cases hdead
    | @released p now _ _ b₀ hb₀ _ hp =>
      by_cases hmany : 8 ≤ b₀.attempt
      · exact Or.inr ⟨p, now, _, b₀, rfl, hb₀, hmany, hp⟩
      · exact absurd ((if_neg hmany).symm.trans hdead) (by decide)
  final key b hb hfinal := by
    obtain ⟨b', hb', -⟩ := (h.sound hs).2.batch key b hb
    have hne : ∀ state, state = RowState.pending ∨ state = .leased → b.state ≠ state := by
      rintro state hstate rfl
      rcases hfinal with hfinal | hfinal <;> rw [hfinal] at hstate <;>
        exact hstate.elim (nomatch ·) (nomatch ·)
    -- every change of a batch starts from a row that is pending or leased
    cases h.batch hs hb' with
    | same hsame => exact hb'.trans (hsame.symm.trans hb)
    | sealed hnone => exact nomatch hnone.symm.trans hb
    | claimed hb₀ hdue =>
      obtain rfl := Option.some.inj (hb₀.symm.trans hb)
      rcases hdue.1 with hpending | ⟨hleased, -⟩
      · exact absurd hpending (hne _ (Or.inl rfl))
      · exact absurd hleased (hne _ (Or.inr rfl))
    | settled hb₀ hleased =>
      obtain rfl := Option.some.inj (hb₀.symm.trans hb)
      exact absurd hleased (hne _ (Or.inr rfl))
    | released hb₀ hleased =>
      obtain rfl := Option.some.inj (hb₀.symm.trans hb)
      exact absurd hleased (hne _ (Or.inr rfl))
  stale p c phase hp hstale := by
    constructor
    · rintro answered committed rfl
      cases h with
      | settle _ _ hp' =>
        obtain ⟨rfl, -⟩ := Prod.mk.inj (Option.some.inj (hp'.symm.trans hp))
        cases committed with
        | false => rfl
        | true => exact settleBatch_stale hstale
    · rintro now error committed rfl
      cases h with
      | release _ _ _ hp' =>
        obtain ⟨rfl, -⟩ := Prod.mk.inj (Option.some.inj (hp'.symm.trans hp))
        cases committed with
        | false => rfl
        | true => exact releaseClaim_stale hstale

/-- **The outbox of the relay**: in every reachable state the rows of the events agree with those
of their batches and none is lost, no run changes what a batch is made of, and in every step only
the holder of its current attempt changes what has become of a batch. -/
theorem relay_outbox {s : System} (hs : Reachable filter hash s) :
    s.Outbox ∧ (∀ es t, Transition.Run (Step filter hash) s es t → s.store.Keeps t.store) ∧
      ∀ e t, Step filter hash s e t → Guarded s e t :=
  ⟨hs.sound.outbox, fun _ _ h => hs.keeps h, fun _ _ h => h.guarded hs.sound⟩

/-! #### A delivery -/

/-- The hash of a block. -/
def sampleHash : Hash :=
  ⟨"0x0000000000000000000000000000000000000000000000000000000000000000", by decide +kernel⟩

/-- A log of a block. -/
def sampleLog : SubscriptionLog := ⟨"0x", sampleHash, 1, sampleHash, 0, 0, "0x", [], false⟩

/-- A filter for it. -/
def sampleFilter : EventFilter := ⟨"test", 46630, sampleHash⟩

/-- The claim of a batch with that log alone. -/
def sampleClaim : Claim := ⟨"batch", serializeTrigger sampleFilter sampleLog ⟨1, sampleHash⟩, 1⟩

/-- The tables with the log. -/
def sampleStore : Store := handleSubscriptionLog sampleFilter 0 ⟨1, sampleHash⟩ sampleLog ⟨∅, ∅⟩

/-- The claim, and the outbox after it. -/
def sampleTaken : Option Claim × Store :=
  value (claimEvent (fun _ => "batch") 0 [] [] [] sampleStore) (by decide +kernel)

theorem claimEvent_sample :
    claimEvent (fun _ => "batch") 0 [] [] [] sampleStore
      = .ok (some sampleClaim, sampleTaken.2) := by
  have hclaim : sampleTaken.1 = some sampleClaim := by decide +kernel
  rw [← hclaim]
  exact eq_ok_value _

/-- The log comes in, publisher 7 claims it, the queue accepts it, and the claim is settled. -/
theorem relay_outbox_sample : ∃ s, Reachable sampleFilter (fun _ => "batch") s ∧ s.Outbox ∧
    (s.store.events.lookup (eventKey sampleLog)).map EventRow.state = some .queued := by
  have hinitial : Reachable sampleFilter (fun _ => "batch") .initial := .initial
  have hinsert := hinitial.step (.insert .initial 0 ⟨1, sampleHash⟩ sampleLog)
  have hclaim := hinsert.step (.claim (p := 7) true rfl claimEvent_sample)
  have haccept := hclaim.step (.accept (p := 7) (c := sampleClaim) rfl)
  have hsettle := haccept.step (.settle (p := 7) (c := sampleClaim) true true rfl)
  refine ⟨_, hsettle, (relay_outbox hsettle).1, ?_⟩
  change ((settleBatch sampleClaim sampleTaken.2).events.lookup (eventKey sampleLog)).map
    EventRow.state = some .queued
  decide +kernel

end ChainRelay

end Backend

end TickerGarden
