import Mathlib.Algebra.BigOperators.Intervals
import TickerGarden.Backend.TreasuryRoot

/-!
# Time-weighted balances

What the replay of the treasury generator computes: the accumulator of an account has the exact
integral of its balance. A balance is a step function of the time, constant between two
seconds, so that its integral over a window is the sum over the seconds of the window
(`TickerGarden.Backend.Treasury.twabOf`). It is defined from the transfers alone, without their
order.

The replay brings an accumulator up to a time only when a transfer touches its account, and
once more at the end. What makes that enough is that nothing has touched the account in
between: at every second from the last checkpoint on, the balance is the present one
(`TickerGarden.Backend.Treasury.balanceAt_eq_net`). The invariant
(`TickerGarden.Backend.Treasury.Replayed`) is about the transfers that are done and those that
are still to come.
-/

namespace TickerGarden

open Checked

namespace Backend

namespace Treasury

/-! ### Balances and their integrals -/

/-- What a transfer adds to the balance of an account. -/
def Transfer.delta (a : Address) (v : Transfer) : ℤ :=
  (if v.recipient = a then (v.value : ℤ) else 0) - (if v.sender = a then (v.value : ℤ) else 0)

/-- A transfer moves the balance of an account. -/
def Transfer.Touches (v : Transfer) (a : Address) : Prop := v.sender = a ∨ v.recipient = a

theorem Transfer.delta_of_not_touches {v : Transfer} {a : Address} (h : ¬ v.Touches a) :
    v.delta a = 0 := by
  rw [Transfer.Touches, not_or] at h
  rw [Transfer.delta, if_neg h.1, if_neg h.2, sub_zero]

/-- The balance of an account after some transfers. -/
def net (ts : List Transfer) (a : Address) : ℤ := (ts.map (Transfer.delta a)).sum

/-- **The balance of an account at a time**, after all transfers up to it. -/
def balanceAt (ts : List Transfer) (a : Address) (time : ℕ) : ℤ :=
  (ts.map fun v => if v.timestamp ≤ time then v.delta a else 0).sum

/-- **The time-weighted balance** of an account: the integral of its balance over a window. -/
def twabOf (ts : List Transfer) (windowStart windowEnd : ℕ) (a : Address) : ℤ :=
  ∑ time ∈ Finset.Ico windowStart windowEnd, balanceAt ts a time

theorem net_append (ts us : List Transfer) (a : Address) : net (ts ++ us) a = net ts a + net us a := by
  rw [net, List.map_append, List.sum_append]
  rfl

theorem net_singleton (v : Transfer) (a : Address) : net [v] a = v.delta a := by
  rw [net, List.map_singleton, List.sum_singleton]

theorem balanceAt_append (ts us : List Transfer) (a : Address) (time : ℕ) :
    balanceAt (ts ++ us) a time = balanceAt ts a time + balanceAt us a time := by
  rw [balanceAt, List.map_append, List.sum_append]
  rfl

/-- The order of the transfers does not matter for a balance. -/
theorem balanceAt_perm {ts us : List Transfer} (h : ts.Perm us) (a : Address) (time : ℕ) :
    balanceAt ts a time = balanceAt us a time := (h.map _).sum_eq

theorem twabOf_perm {ts us : List Transfer} (h : ts.Perm us) (windowStart windowEnd : ℕ)
    (a : Address) : twabOf ts windowStart windowEnd a = twabOf us windowStart windowEnd a :=
  Finset.sum_congr rfl fun time _ => balanceAt_perm h a time

/-- **Between two touches a balance is constant**: at a time that no touch is after, and that is
before all that is to come, it is the present one. -/
theorem balanceAt_eq_net {done todo : List Transfer} {a : Address} {time : ℕ}
    (hdone : ∀ v ∈ done, v.Touches a → v.timestamp ≤ time)
    (htodo : ∀ v ∈ todo, time < v.timestamp) : balanceAt (done ++ todo) a time = net done a := by
  have hpast : balanceAt done a time = net done a := by
    refine congrArg List.sum (List.map_congr_left fun v hv => ?_)
    by_cases htouch : v.Touches a
    · rw [if_pos (hdone v hv htouch)]
    · rw [Transfer.delta_of_not_touches htouch, ite_self]
  have hfuture : balanceAt todo a time = 0 := by
    refine List.sum_eq_zero fun x hx => ?_
    obtain ⟨v, hv, rfl⟩ := List.mem_map.mp hx
    exact if_neg (Nat.not_le.mpr (htodo v hv))
  rw [balanceAt_append, hpast, hfuture, add_zero]

/-- What comes after the window does not count for it. -/
theorem twabOf_filter (ts : List Transfer) (windowStart windowEnd : ℕ) (a : Address) :
    twabOf (ts.filter fun v => v.timestamp < windowEnd) windowStart windowEnd a
      = twabOf ts windowStart windowEnd a := by
  refine Finset.sum_congr rfl fun time htime => ?_
  have hlt := (Finset.mem_Ico.mp htime).2
  induction ts with
  | nil => rfl
  | cons v ts ih =>
    rw [List.filter_cons]
    by_cases hv : v.timestamp < windowEnd
    · rw [if_pos (decide_eq_true hv), balanceAt, List.map_cons, List.sum_cons, balanceAt,
        List.map_cons, List.sum_cons]
      exact congrArg _ ih
    · have hlate : ¬ v.timestamp ≤ time := by omega
      rw [if_neg (by simpa using hv), ih, balanceAt, balanceAt, List.map_cons, List.sum_cons,
        if_neg hlate, zero_add]

/-! ### The operations of the replay -/

section Operations

variable {s s' : Books} {a b : Address} {start t n : ℕ} {v : Accumulator}

namespace Books

@[simp] theorem acc_setBalance_self :
    (s.setBalance a n).acc.lookup a = (s.acc.lookup a).map fun v => { v with balance := n } := by
  rw [setBalance]
  cases h : s.acc.lookup a with
  | none => exact h
  | some v => exact AList.lookup_insert ..

theorem acc_setBalance_of_ne (h : b ≠ a) : (s.setBalance a n).acc.lookup b = s.acc.lookup b := by
  rw [setBalance]
  cases s.acc.lookup a with
  | none => rfl
  | some v => exact AList.lookup_insert_ne h

@[simp] theorem balance_setBalance_self : (s.setBalance a n).balance a = n := by
  rw [balance, setBalance, AList.lookup_insert, Option.getD_some]

theorem balance_setBalance_of_ne (h : b ≠ a) : (s.setBalance a n).balance b = s.balance b := by
  rw [balance, setBalance, AList.lookup_insert_ne h, balance]

/-- The entry made for a new account does not change a balance. -/
theorem balance_opened : ((s.opened a).lookup b).getD 0 = s.balance b := by
  rw [opened]
  split
  · rfl
  · rename_i ha
    rcases eq_or_ne b a with rfl | hne
    · rw [AList.lookup_insert, balance, AList.lookup_eq_none.mpr ha]
      rfl
    · rw [AList.lookup_insert_ne hne, balance]

/-- The accumulator of an account, brought up to a time. -/
def advanced (s : Books) (start : ℕ) (a : Address) (t : ℕ) : Accumulator :=
  let v := (s.acc.lookup a).getD ⟨s.balance a, 0, start⟩
  { v with weighted := v.weighted + v.balance * (t - v.last), last := t }

/-- The time up to which the accumulator of an account goes. -/
def lastOf (s : Books) (start : ℕ) (a : Address) : ℕ :=
  ((s.acc.lookup a).getD ⟨s.balance a, 0, start⟩).last

end Books

/-- **What a checkpoint does.** -/
theorem checkpoint_eq_ok : checkpoint start s a t = .ok s' ↔
    s.lastOf start a ≤ t ∧ (s.advanced start a t).weighted < 2 ^ 256 ∧
      s' = { balances := if a ∈ s.acc then s.balances else s.opened a
             acc := s.acc.insert a (s.advanced start a t) } := by
  simp only [checkpoint, bind_eq_ok, revertIf_eq_ok, pure_eq_ok, Except.ok.injEq, not_lt, ge_iff_le,
    not_le]
  constructor
  · rintro ⟨_, hlast, _, hfits, heq⟩
    exact ⟨hlast, hfits, heq.symm⟩
  · rintro ⟨hlast, hfits, heq⟩
    exact ⟨(), hlast, (), hfits, heq.symm⟩

end Operations

/-! ### The invariant of the replay -/

/-- **An accumulator has the integral of a balance** up to its time, and nothing has touched the
account since. -/
structure Tracks (start : ℕ) (done todo : List Transfer) (a : Address) (b : ℕ) (v : Accumulator) :
    Prop where
  balance : v.balance = b
  start_le : start ≤ v.last
  touched : ∀ d ∈ done, d.Touches a → d.timestamp ≤ v.last
  last_le : ∀ d ∈ todo, v.last ≤ d.timestamp
  weighted : (v.weighted : ℤ) = ∑ time ∈ Finset.Ico start v.last, balanceAt (done ++ todo) a time

/-- **The replay so far**: the balances are those after the transfers that are done, every
accumulator tracks its account, and what has none has not been touched inside the window. -/
structure Replayed (start : ℕ) (done todo : List Transfer) (s : Books) : Prop where
  balance : ∀ a, a ≠ 0 → (s.balance a : ℤ) = net done a
  zero : 0 ∉ s.balances
  known : ∀ a, a ∈ s.acc → a ∈ s.balances
  acc : ∀ a v, s.acc.lookup a = some v → Tracks start done todo a (s.balance a) v
  fresh : ∀ a, a ≠ 0 → a ∉ s.acc → ∀ d ∈ done, d.Touches a → d.timestamp < start

section Invariant

variable {start t : ℕ} {done todo : List Transfer} {s s' : Books} {a : Address} {v : Accumulator}

theorem replayed_empty (start : ℕ) (todo : List Transfer) : Replayed start [] todo Books.empty where
  balance _ _ := rfl
  zero := AList.notMem_empty 0
  known _ ha := absurd ha (AList.notMem_empty _)
  acc _ _ h := nomatch h
  fresh _ _ _ _ hd := nomatch hd

/-- **A step of the time** over which nothing touches the account. -/
theorem Tracks.advance {b : ℕ} (h : Tracks start done todo a b v) (hb : (b : ℤ) = net done a)
    (hlast : v.last ≤ t) (htodo : ∀ d ∈ todo, t ≤ d.timestamp) :
    Tracks start done todo a b
      { v with weighted := v.weighted + v.balance * (t - v.last), last := t } where
  balance := h.balance
  start_le := h.start_le.trans hlast
  touched d hd htouch := (h.touched d hd htouch).trans hlast
  last_le := htodo
  weighted := by
    have hconstant : ∑ time ∈ Finset.Ico v.last t, balanceAt (done ++ todo) a time
        = ∑ _time ∈ Finset.Ico v.last t, (b : ℤ) := by
      refine Finset.sum_congr rfl fun time htime => ?_
      obtain ⟨hle, hlt⟩ := Finset.mem_Ico.mp htime
      rw [hb]
      exact balanceAt_eq_net (fun d hd htouch => (h.touched d hd htouch).trans hle)
        fun d hd => hlt.trans_le (htodo d hd)
    dsimp only
    rw [← Finset.sum_Ico_consecutive _ h.start_le hlast, ← h.weighted, hconstant,
      Finset.sum_const, Nat.card_Ico, h.balance, nsmul_eq_mul, Nat.cast_add, Nat.cast_mul,
      mul_comm (b : ℤ)]

/-- The accumulator a checkpoint starts from. -/
theorem Replayed.tracks (h : Replayed start done todo s) (ha : a ≠ 0)
    (htodo : ∀ d ∈ todo, start ≤ d.timestamp) :
    Tracks start done todo a (s.balance a) ((s.acc.lookup a).getD ⟨s.balance a, 0, start⟩) := by
  cases hlookup : s.acc.lookup a with
  | some v => exact h.acc a v hlookup
  | none =>
    exact {
      balance := rfl
      start_le := le_rfl
      touched := fun d hd htouch => (h.fresh a ha (AList.lookup_eq_none.mp hlookup) d hd htouch).le
      last_le := htodo
      weighted := by simp }

/-- **A checkpoint keeps the invariant**, and changes no balance. -/
theorem Replayed.checkpoint (h : Replayed start done todo s) (ha : a ≠ 0) (ht : start ≤ t)
    (htodo : ∀ d ∈ todo, t ≤ d.timestamp) (hs : checkpoint start s a t = .ok s') :
    Replayed start done todo s' ∧ (∀ b, s'.balance b = s.balance b) ∧
      (∀ b, b ≠ a → s'.acc.lookup b = s.acc.lookup b) ∧
      ∃ v, s'.acc.lookup a = some v ∧ v.last = t := by
  obtain ⟨hlast, -, rfl⟩ := checkpoint_eq_ok.mp hs
  have hbalance : ∀ b, Books.balance { balances := if a ∈ s.acc then s.balances else s.opened a
                                       acc := s.acc.insert a (s.advanced start a t) } b
      = s.balance b := by
    intro b
    rw [Books.balance]
    dsimp only
    split
    · rfl
    · exact Books.balance_opened
  have hother : ∀ b, b ≠ a → (s.acc.insert a (s.advanced start a t)).lookup b = s.acc.lookup b :=
    fun b hb => AList.lookup_insert_ne hb
  have hopened : ∀ b, b ∈ (if a ∈ s.acc then s.balances else s.opened a) ↔
      b = a ∨ b ∈ s.balances := by
    intro b
    by_cases hacc : a ∈ s.acc
    · rw [if_pos hacc]
      exact ⟨Or.inr, fun hb => hb.elim (fun heq => heq ▸ h.known a hacc) id⟩
    · rw [if_neg hacc, Books.opened]
      split
      · rename_i hmem
        exact ⟨Or.inr, fun hb => hb.elim (fun heq => heq ▸ hmem) id⟩
      · exact AList.mem_insert _
  have htracks := (h.tracks ha fun d hd => ht.trans (htodo d hd)).advance (h.balance a ha) hlast htodo
  refine ⟨⟨?_, ?_, ?_, ?_, ?_⟩, hbalance, hother, _, AList.lookup_insert _, rfl⟩
  · intro b hb
    rw [hbalance]
    exact h.balance b hb
  · rw [hopened]
    rintro (hzero | hzero)
    · exact ha hzero.symm
    · exact h.zero hzero
  · intro b hb
    rw [hopened]
    exact ((AList.mem_insert _).mp hb).imp_right (h.known b)
  · intro b v hv
    rw [hbalance]
    rcases eq_or_ne b a with rfl | hne
    · rw [AList.lookup_insert, Option.some.injEq] at hv
      exact hv ▸ htracks
    · exact h.acc b v ((hother b hne).symm.trans hv)
  · intro b hb hnot
    exact h.fresh b hb fun hmem => hnot ((AList.mem_insert _).mpr (Or.inr hmem))

end Invariant

/-! ### A transfer -/

/-- **What a payment does**: balances move, and the accumulators follow them. -/
structure Moved (s s' : Books) (change : Address → ℤ) : Prop where
  balance : ∀ a, a ≠ 0 → (s'.balance a : ℤ) = s.balance a + change a
  zero : 0 ∉ s.balances → 0 ∉ s'.balances
  known : ∀ a, a ∈ s.balances → a ∈ s'.balances
  acc : ∀ a v', s'.acc.lookup a = some v' → ∃ v, s.acc.lookup a = some v ∧ v'.weighted = v.weighted ∧
    v'.last = v.last ∧ (v.balance = s.balance a → v'.balance = s'.balance a)
  kept : ∀ a, a ∈ s.acc → a ∈ s'.acc

section Payment

variable {start : ℕ} {done todo : List Transfer} {s s' s'' : Books} {a : Address} {n : ℕ}
  {v : Transfer} {change change' : Address → ℤ}

theorem Moved.none (s : Books) (h : ∀ a, a ≠ 0 → change a = 0) : Moved s s change where
  balance a ha := by rw [h a ha, add_zero]
  zero h := h
  known _ h := h
  acc _ v' h := ⟨v', h, rfl, rfl, id⟩
  kept _ h := h

theorem Moved.trans (h : Moved s s' change) (h' : Moved s' s'' change') :
    Moved s s'' fun a => change a + change' a where
  balance a ha := by rw [h'.balance a ha, h.balance a ha, add_assoc]
  zero hzero := h'.zero (h.zero hzero)
  known a ha := h'.known a (h.known a ha)
  acc a v'' hv := by
    obtain ⟨v', hv', hweighted', hlast', hbalance'⟩ := h'.acc a v'' hv
    obtain ⟨v, hv, hweighted, hlast, hbalance⟩ := h.acc a v' hv'
    exact ⟨v, hv, hweighted'.trans hweighted, hlast'.trans hlast, fun hb => hbalance' (hbalance hb)⟩
  kept a ha := h'.kept a (h.kept a ha)

/-- The balance of one account is written. -/
theorem Moved.setBalance (ha : a ≠ 0) :
    Moved s (s.setBalance a n) fun b => if a = b then (n : ℤ) - s.balance a else 0 where
  balance b _ := by
    rcases eq_or_ne a b with rfl | hne
    · rw [if_pos rfl, Books.balance_setBalance_self]
      ring
    · rw [if_neg hne, Books.balance_setBalance_of_ne hne.symm, add_zero]
  zero hzero hmem := ((AList.mem_insert _).mp hmem).elim (fun heq => ha heq.symm) hzero
  known b hb := (AList.mem_insert _).mpr (Or.inr hb)
  acc b v' hv := by
    rcases eq_or_ne b a with rfl | hne
    · rw [Books.acc_setBalance_self, Option.map_eq_some_iff] at hv
      obtain ⟨v, hv, rfl⟩ := hv
      exact ⟨v, hv, rfl, rfl, fun _ => Books.balance_setBalance_self.symm⟩
    · rw [Books.acc_setBalance_of_ne hne] at hv
      exact ⟨v', hv, rfl, rfl, fun hb => hb.trans (Books.balance_setBalance_of_ne hne).symm⟩
  kept b hb := by
    rw [← AList.lookup_isSome] at hb ⊢
    rcases eq_or_ne b a with rfl | hne
    · rwa [Books.acc_setBalance_self, Option.isSome_map]
    · rwa [Books.acc_setBalance_of_ne hne]

theorem Moved.send (h : send s v = .ok s') :
    Moved s s' fun a => -(if v.sender = a then (v.value : ℤ) else 0) := by
  unfold Treasury.send at h
  by_cases hsender : v.sender ≠ 0
  · rw [if_pos hsender] at h
    simp only [bind_eq_ok, revertIf_eq_ok, pure_eq_ok, Except.ok.injEq, not_lt] at h
    obtain ⟨-, hle, rfl⟩ := h
    convert Moved.setBalance hsender using 2 with a
    rw [Nat.cast_sub hle]
    split <;> ring
  · rw [if_neg hsender] at h
    obtain rfl := Except.ok.inj h
    refine Moved.none s fun a ha => ?_
    rw [if_neg fun heq => ha (heq.symm.trans (not_not.mp hsender)), neg_zero]

theorem Moved.receive (h : receive s v = .ok s') :
    Moved s s' fun a => if v.recipient = a then (v.value : ℤ) else 0 := by
  unfold Treasury.receive at h
  by_cases hrecipient : v.recipient ≠ 0
  · rw [if_pos hrecipient] at h
    simp only [bind_eq_ok, revertIf_eq_ok, pure_eq_ok, Except.ok.injEq] at h
    obtain ⟨-, -, rfl⟩ := h
    convert Moved.setBalance hrecipient using 2 with a
    rw [Nat.cast_add]
    split <;> ring
  · rw [if_neg hrecipient] at h
    obtain rfl := Except.ok.inj h
    exact Moved.none s fun a ha => if_neg fun heq => ha (heq.symm.trans (not_not.mp hrecipient))

/-- **A transfer is done**, once its parties have been brought up to it. -/
theorem Replayed.transfer (h : Replayed start done (v :: todo) s)
    (hparties : start ≤ v.timestamp → ∀ a, a ≠ 0 → v.Touches a →
      ∃ u, s.acc.lookup a = some u ∧ u.last = v.timestamp)
    (hmoved : Moved s s' (Transfer.delta · v)) : Replayed start (done ++ [v]) todo s' where
  balance a ha := by
    rw [hmoved.balance a ha, h.balance a ha, net_append, net_singleton]
  zero := hmoved.zero h.zero
  known a ha := by
    rw [← AList.lookup_isSome, Option.isSome_iff_exists] at ha
    obtain ⟨v', hv'⟩ := ha
    obtain ⟨u, hu, -⟩ := hmoved.acc a v' hv'
    exact hmoved.known a (h.known a (AList.lookup_isSome.mp (Option.isSome_iff_exists.mpr ⟨u, hu⟩)))
  acc a v' hv' := by
    obtain ⟨u, hu, hweighted, hlast, hbalance⟩ := hmoved.acc a v' hv'
    have htracks := h.acc a u hu
    have hnow : u.last ≤ v.timestamp := htracks.last_le v List.mem_cons_self
    have ha : a ≠ 0 := by
      rintro rfl
      exact h.zero (h.known 0 (AList.lookup_isSome.mp (Option.isSome_iff_exists.mpr ⟨u, hu⟩)))
    exact {
      balance := hbalance htracks.balance
      start_le := by
        rw [hlast]
        exact htracks.start_le
      touched := by
        intro d hd htouch
        rw [hlast]
        rcases List.mem_append.mp hd with hd | hd
        · exact htracks.touched d hd htouch
        · obtain rfl := List.mem_singleton.mp hd
          obtain ⟨u', hu', hlast'⟩ := hparties (htracks.start_le.trans hnow) a ha htouch
          obtain rfl : u = u' := Option.some.inj (hu.symm.trans hu')
          exact hlast'.ge
      last_le := fun d hd => hlast.trans_le (htracks.last_le d (List.mem_cons_of_mem v hd))
      weighted := by rw [hweighted, hlast, htracks.weighted, List.append_assoc]; rfl }
  fresh a ha hnot d hd htouch := by
    have hbefore : a ∉ s.acc := fun hmem => hnot (hmoved.kept a hmem)
    rcases List.mem_append.mp hd with hd | hd
    · exact h.fresh a ha hbefore d hd htouch
    · obtain rfl := List.mem_singleton.mp hd
      by_contra hin
      obtain ⟨u, hu, -⟩ := hparties (Nat.le_of_not_lt hin) a ha htouch
      exact hbefore (AList.lookup_isSome.mp (Option.isSome_iff_exists.mpr ⟨u, hu⟩))

end Payment

/-! ### The whole replay -/

section Run

variable {start stop t : ℕ} {done todo : List Transfer} {s s' : Books} {a : Address} {v : Transfer}

/-- A party of a transfer, brought up to it or not. -/
theorem Replayed.checkpointParty {applies : Bool} (h : Replayed start done todo s)
    (happlies : applies = true → a ≠ 0 ∧ start ≤ t) (htodo : ∀ d ∈ todo, t ≤ d.timestamp)
    (hs : checkpointParty start applies s a t = .ok s') :
    Replayed start done todo s' ∧ (∀ b, s'.balance b = s.balance b) ∧
      (∀ b, b ≠ a → s'.acc.lookup b = s.acc.lookup b) ∧
      (applies = true → ∃ v, s'.acc.lookup a = some v ∧ v.last = t) := by
  cases applies with
  | false =>
    obtain rfl := Except.ok.inj hs
    exact ⟨h, fun _ => rfl, fun _ _ => rfl, fun hfalse => nomatch hfalse⟩
  | true =>
    obtain ⟨ha, ht⟩ := happlies rfl
    obtain ⟨hreplayed, hbalance, hother, hacc⟩ := h.checkpoint ha ht htodo hs
    exact ⟨hreplayed, hbalance, hother, fun _ => hacc⟩

/-- **One transfer of the replay**, inside or before the window. -/
theorem Replayed.replay (h : Replayed start done (v :: todo) s) (hstop : v.timestamp < stop)
    (htodo : ∀ d ∈ todo, v.timestamp ≤ d.timestamp) (hs : replay start stop s v = .ok s') :
    Replayed start (done ++ [v]) todo s' := by
  rw [Treasury.replay, if_neg (Nat.not_le.mpr hstop)] at hs
  simp only [bind_eq_ok] at hs
  obtain ⟨s₁, h₁, s₂, h₂, s₃, hsend, hreceive⟩ := hs
  have hnow : ∀ d ∈ v :: todo, v.timestamp ≤ d.timestamp := fun d hd => by
    rcases List.mem_cons.mp hd with rfl | hd
    · exact le_rfl
    · exact htodo d hd
  obtain ⟨hr₁, -, -, hsender⟩ := h.checkpointParty
    (fun happlies => (of_decide_eq_true happlies).symm) hnow h₁
  obtain ⟨hr₂, -, hother, hrecipient⟩ := hr₁.checkpointParty
    (fun happlies => ⟨(of_decide_eq_true happlies).2.1, (of_decide_eq_true happlies).1⟩) hnow h₂
  refine hr₂.transfer (fun hin a ha htouch => ?_) ?_
  · rcases eq_or_ne a v.sender with rfl | hne
    · by_cases hself : v.recipient = v.sender
      · have hskip : ¬ (v.timestamp ≥ start ∧ v.recipient ≠ 0 ∧ v.recipient ≠ v.sender) :=
          fun hall => hall.2.2 hself
        rw [decide_eq_false hskip] at h₂
        obtain rfl := Except.ok.inj h₂
        exact hsender (decide_eq_true ⟨hin, ha⟩)
      · obtain ⟨u, hu, hlast⟩ := hsender (decide_eq_true ⟨hin, ha⟩)
        exact ⟨u, (hother _ (Ne.symm hself)).trans hu, hlast⟩
    · obtain rfl : v.recipient = a := htouch.resolve_left fun heq => hne heq.symm
      exact hrecipient (decide_eq_true ⟨hin, ha, hne⟩)
  · have hmoved := (Moved.send hsend).trans (Moved.receive hreceive)
    convert hmoved using 2 with a
    rw [Transfer.delta, sub_eq_neg_add]

/-- What comes after the window is left out. -/
theorem foldlM_replay_filter (ts : List Transfer) (s : Books) :
    ts.foldlM (replay start stop) s
      = (ts.filter fun v => v.timestamp < stop).foldlM (replay start stop) s := by
  induction ts generalizing s with
  | nil => rfl
  | cons v ts ih =>
    rw [List.filter_cons, List.foldlM_cons]
    by_cases hv : v.timestamp < stop
    · rw [if_pos (decide_eq_true hv), List.foldlM_cons]
      exact congrArg _ (funext fun s => ih s)
    · rw [if_neg (by simpa using hv), Treasury.replay, if_pos (Nat.le_of_not_lt hv), ok_bind, ih]

/-- **The run of the replay.** -/
theorem Replayed.foldlM (h : Replayed start done todo s)
    (hordered : todo.Pairwise fun v w => v.timestamp ≤ w.timestamp)
    (hstop : ∀ v ∈ todo, v.timestamp < stop)
    (hs : todo.foldlM (Treasury.replay start stop) s = .ok s') : Replayed start (done ++ todo) [] s' := by
  induction todo generalizing done s with
  | nil =>
    obtain rfl := Except.ok.inj hs
    rwa [List.append_nil]
  | cons v todo ih =>
    rw [List.foldlM_cons, bind_eq_ok] at hs
    obtain ⟨s₁, hstep, hs⟩ := hs
    obtain ⟨hfirst, hordered⟩ := List.pairwise_cons.mp hordered
    have hnext := h.replay (hstop v List.mem_cons_self) hfirst hstep
    have hrest := ih hnext hordered (fun w hw => hstop w (List.mem_cons_of_mem v hw)) hs
    rwa [List.append_assoc, List.singleton_append] at hrest

end Run

/-! ### The end of the window -/

section Closing

variable {start stop : ℕ} {s s' : Books} {a b : Address} {ks : List Address}

/-- An account that has a last checkpoint. -/
def Books.Closes (s : Books) (a : Address) : Prop := s.balance a ≠ 0 ∨ a ∈ s.acc

instance (s : Books) (a : Address) : Decidable (s.Closes a) :=
  inferInstanceAs (Decidable (_ ∨ _))

/-- The last checkpoint of an account succeeds. -/
def Books.Fits (s : Books) (start stop : ℕ) (a : Address) : Prop :=
  s.lastOf start a ≤ stop ∧ (s.advanced start a stop).weighted < 2 ^ 256

/-- The books with the accumulator of one account at the end of the window. -/
def Books.closed (s : Books) (start stop : ℕ) (a : Address) : Books where
  balances := s.balances
  acc := s.acc.insert a (s.advanced start a stop)

theorem Books.closes_closed (h : b ≠ a) : (s.closed start stop a).Closes b ↔ s.Closes b := by
  rw [Closes, Closes, closed, AList.mem_insert]
  exact or_congr Iff.rfl (or_iff_right h)

theorem Books.advanced_closed (h : b ≠ a) :
    (s.closed start stop a).advanced start b stop = s.advanced start b stop := by
  rw [advanced, advanced, closed]
  dsimp only
  rw [AList.lookup_insert_ne h]
  rfl

theorem Books.fits_closed (h : b ≠ a) :
    (s.closed start stop a).Fits start stop b ↔ s.Fits start stop b := by
  rw [Fits, Fits, advanced_closed h, lastOf, lastOf, closed]
  dsimp only
  rw [AList.lookup_insert_ne h]
  rfl

/-- The last checkpoint of an account that has a balance entry. -/
theorem closeAccount_eq_ok (ha : a ∈ s.balances) (h : s.Closes a) :
    closeAccount start stop s a = .ok s' ↔ s.Fits start stop a ∧ s' = s.closed start stop a := by
  have happlies : decide (s.balance a ≠ 0 ∨ a ∈ s.acc) = true := decide_eq_true h
  rw [closeAccount, checkpointParty, if_pos happlies, checkpoint_eq_ok, Books.opened, if_pos ha,
    ite_self, ← and_assoc]
  rfl

theorem closeAccount_of_not_closes (h : ¬ s.Closes a) : closeAccount start stop s a = .ok s := by
  have hskip : decide (s.balance a ≠ 0 ∨ a ∈ s.acc) = false := decide_eq_false h
  rw [closeAccount, hskip]
  rfl

/-- **The last checkpoints**, one account after the other: each depends on its own account
only. -/
theorem foldlM_closeAccount (hnodup : ks.Nodup) (hmem : ∀ a ∈ ks, a ∈ s.balances) :
    ks.foldlM (closeAccount start stop) s = .ok s' ↔
      (∀ a ∈ ks, s.Closes a → s.Fits start stop a) ∧
        s' = { balances := s.balances
               acc := (ks.filter (s.Closes ·)).foldl
                 (fun m a => m.insert a (s.advanced start a stop)) s.acc } := by
  induction ks generalizing s with
  | nil =>
    rw [List.foldlM_nil, pure_eq_ok, Except.ok.injEq, eq_comm]
    exact (and_iff_right fun _ ha => nomatch ha).symm
  | cons a ks ih =>
    obtain ⟨hnot, hnodup⟩ := List.nodup_cons.mp hnodup
    have hrest : ∀ b ∈ ks, b ∈ s.balances := fun b hb => hmem b (List.mem_cons_of_mem a hb)
    rw [List.foldlM_cons, bind_eq_ok, List.forall_mem_cons]
    by_cases hcloses : s.Closes a
    · have hne : ∀ b ∈ ks, b ≠ a := fun b hb heq => hnot (heq ▸ hb)
      have hfilter : ks.filter ((s.closed start stop a).Closes ·) = ks.filter (s.Closes ·) :=
        List.filter_congr fun b hb => decide_eq_decide.mpr (Books.closes_closed (hne b hb))
      have hfold : ∀ m : Table Address Accumulator, (ks.filter (s.Closes ·)).foldl
          (fun m b => m.insert b ((s.closed start stop a).advanced start b stop)) m
          = (ks.filter (s.Closes ·)).foldl (fun m b => m.insert b (s.advanced start b stop)) m :=
        fun m => List.foldl_ext _ _ _ fun m b hb => by
          rw [Books.advanced_closed (hne b (List.mem_filter.mp hb).1)]
      have hnext := ih (s := s.closed start stop a) hnodup hrest
      rw [hfilter, hfold] at hnext
      rw [List.filter_cons_of_pos (by simpa using hcloses), List.foldl_cons]
      constructor
      · rintro ⟨s₁, hstep, hs⟩
        obtain ⟨hfits, rfl⟩ := (closeAccount_eq_ok (hmem a List.mem_cons_self) hcloses).mp hstep
        obtain ⟨hall, heq⟩ := hnext.mp hs
        exact ⟨⟨fun _ => hfits, fun b hb hcloses' => (Books.fits_closed (hne b hb)).mp
          (hall b hb ((Books.closes_closed (hne b hb)).mpr hcloses'))⟩, heq⟩
      · rintro ⟨⟨hfits, hall⟩, heq⟩
        exact ⟨_, (closeAccount_eq_ok (hmem a List.mem_cons_self) hcloses).mpr ⟨hfits hcloses, rfl⟩,
          hnext.mpr ⟨fun b hb hcloses' => (Books.fits_closed (hne b hb)).mpr
            (hall b hb ((Books.closes_closed (hne b hb)).mp hcloses')), heq⟩⟩
    · rw [List.filter_cons_of_neg (by simpa using hcloses)]
      constructor
      · rintro ⟨s₁, hstep, hs⟩
        rw [closeAccount_of_not_closes hcloses, Except.ok.injEq] at hstep
        obtain rfl := hstep
        obtain ⟨hall, heq⟩ := (ih hnodup hrest).mp hs
        exact ⟨⟨fun h => absurd h hcloses, hall⟩, heq⟩
      · rintro ⟨⟨-, hall⟩, heq⟩
        exact ⟨s, closeAccount_of_not_closes hcloses, (ih hnodup hrest).mpr ⟨hall, heq⟩⟩

/-- The accumulators after the last checkpoints. -/
theorem lookup_foldl_closed (a : Address) :
    ((ks.filter (s.Closes ·)).foldl (fun m a => m.insert a (s.advanced start a stop)) s.acc).lookup a
      = if a ∈ ks ∧ s.Closes a then some (s.advanced start a stop) else s.acc.lookup a := by
  rw [Table.lookup_foldl_insert_key fun a => s.advanced start a stop]
  simp only [List.mem_filter, decide_eq_true_eq]

end Closing

/-! ### What is weighed -/

section Weigh

variable {start stop : ℕ} {observations : List Transfer} {order order' : MapOrder}
  {acc : Table Address Accumulator}

/-- **The weights are the time-weighted balances.** -/
theorem weigh_eq_ok
    (hordered : observations.Pairwise fun v w => v.timestamp ≤ w.timestamp)
    (h : weigh start stop order observations = .ok acc) :
    (∀ a v, acc.lookup a = some v → a ≠ 0 ∧ (v.weighted : ℤ) = twabOf observations start stop a) ∧
      ∀ a, a ≠ 0 → acc.lookup a = none → twabOf observations start stop a = 0 := by
  simp only [weigh, bind_eq_ok, pure_eq_ok, Except.ok.injEq] at h
  obtain ⟨s, hrun, s', hclose, rfl⟩ := h
  rw [foldlM_replay_filter] at hrun
  have hr := (replayed_empty start _).foldlM (hordered.filter _)
    (fun v hv => of_decide_eq_true (List.mem_filter.mp hv).2) hrun
  rw [List.nil_append] at hr
  obtain ⟨hfits, rfl⟩ := (foldlM_closeAccount ((order.perm _).nodup_iff.mpr s.balances.keys_nodup)
    fun a ha => AList.mem_keys.mpr ((order.perm _).subset ha)).mp hclose
  have hkeys : ∀ a, a ∈ order.keys s.balances.keys ↔ a ∈ s.balances := fun a =>
    (order.perm _).mem_iff.trans AList.mem_keys
  dsimp only
  refine ⟨fun a v hv => ?_, fun a ha hnone => ?_⟩
  · rw [lookup_foldl_closed] at hv
    have hmem : a ∈ s.balances ∧ s.Closes a := by
      split_ifs at hv with hcloses
      · exact ⟨(hkeys a).mp hcloses.1, hcloses.2⟩
      · have hacc : a ∈ s.acc :=
          AList.lookup_isSome.mp (Option.isSome_iff_exists.mpr ⟨v, hv⟩)
        exact ⟨hr.known a hacc, Or.inr hacc⟩
    have ha : a ≠ 0 := by
      rintro rfl
      exact hr.zero hmem.1
    refine ⟨ha, ?_⟩
    rw [if_pos ⟨(hkeys a).mpr hmem.1, hmem.2⟩, Option.some.injEq] at hv
    subst hv
    have hnil : ∀ d ∈ ([] : List Transfer), start ≤ d.timestamp := List.forall_mem_nil _
    have htracks := hr.tracks ha hnil
    have hlast : ((s.acc.lookup a).getD ⟨s.balance a, 0, start⟩).last ≤ stop :=
      (hfits a ((hkeys a).mpr hmem.1) hmem.2).1
    have hadvanced := (htracks.advance (hr.balance a ha) hlast (List.forall_mem_nil _)).weighted
    rw [List.append_nil] at hadvanced
    rw [← twabOf_filter]
    exact hadvanced
  · rw [lookup_foldl_closed] at hnone
    split_ifs at hnone with hcloses
    have hacc : a ∉ s.acc := AList.lookup_eq_none.mp hnone
    have hzero : s.balance a = 0 := by
      by_contra hne
      refine hcloses ⟨(hkeys a).mpr ?_, Or.inl hne⟩
      by_contra hnot
      exact hne (by rw [Books.balance, AList.lookup_eq_none.mpr hnot]; rfl)
    rw [← twabOf_filter]
    refine Finset.sum_eq_zero fun time htime => ?_
    have hpast : ∀ v ∈ observations.filter (fun v => v.timestamp < stop),
        v.Touches a → v.timestamp ≤ time := fun d hd htouch =>
      (hr.fresh a ha hacc d hd htouch).le.trans (Finset.mem_Ico.mp htime).1
    have hnone : ∀ v ∈ ([] : List Transfer), time < v.timestamp := List.forall_mem_nil _
    have hnet := balanceAt_eq_net hpast hnone
    rw [List.append_nil] at hnet
    rw [hnet, ← hr.balance a ha, hzero]
    rfl

/-- **The order of the map does not matter** for what is weighed. -/
theorem weigh_order (order' : MapOrder) (h : weigh start stop order observations = .ok acc) :
    ∃ acc', weigh start stop order' observations = .ok acc' ∧ ∀ a, acc'.lookup a = acc.lookup a := by
  simp only [weigh, bind_eq_ok, pure_eq_ok, Except.ok.injEq] at h ⊢
  obtain ⟨s, hrun, s', hclose, rfl⟩ := h
  have hsame : ∀ a, a ∈ order'.keys s.balances.keys ↔ a ∈ order.keys s.balances.keys := fun a =>
    (order'.perm _).mem_iff.trans (order.perm _).mem_iff.symm
  have hnodup : ∀ o : MapOrder, (o.keys s.balances.keys).Nodup := fun o =>
    (o.perm _).nodup_iff.mpr s.balances.keys_nodup
  have hmem : ∀ o : MapOrder, ∀ a ∈ o.keys s.balances.keys, a ∈ s.balances := fun o a ha =>
    AList.mem_keys.mpr ((o.perm _).subset ha)
  obtain ⟨hfits, rfl⟩ := (foldlM_closeAccount (hnodup order) (hmem order)).mp hclose
  refine ⟨_, ⟨s, hrun, _, (foldlM_closeAccount (hnodup order') (hmem order')).mpr
    ⟨fun a ha => hfits a ((hsame a).mp ha), rfl⟩, rfl⟩, fun a => ?_⟩
  dsimp only
  rw [lookup_foldl_closed, lookup_foldl_closed]
  simp only [hsame]

end Weigh

end Treasury

end Backend

end TickerGarden
