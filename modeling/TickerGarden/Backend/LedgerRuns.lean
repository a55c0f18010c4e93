import TickerGarden.Backend.LedgerConservation

/-!
# Runs of the continuous holder ledger

A ledger starts from a registration, and goes through any calls; those that are rejected leave
it as it was. It is sound throughout
(`TickerGarden.Backend.HolderLedger.sound_of_run`), and what makes its numbers fit their words
is again the invariant: of what `valid` checks, only the supply and the balances are not bounded
by what was funded (`TickerGarden.Backend.HolderLedger.Ledger.Bounded`).

So a claim of what the view shows is never refused by `valid`, and the view is right about every
account that can claim at all (`TickerGarden.Backend.HolderLedger.claim_accepted_iff`). The one
account that cannot is the zero address, which a registration may list.
-/

namespace TickerGarden

open Checked

namespace Backend

namespace HolderLedger

variable {l c : Ledger} {ts : ℕ} {a b : Address} {v : Account}

/-! ### Numbers that fit -/

/-- What the invariant does not bound. -/
structure Ledger.Bounded (l : Ledger) : Prop where
  count : l.accounts.entries.length ≤ 100000
  supply : ¬ BitLenExceeds l.supply 256
  balances : ∀ a, ¬ BitLenExceeds (l.account a).balance 256

theorem fits_of_le {n m : ℤ} (hn : 0 ≤ n) (hle : n ≤ m) (hm : m < 2 ^ 256) : Fits n := by
  refine ⟨hn, ?_⟩
  unfold BitLenExceeds
  omega

theorem Ledger.Emits.outstanding_nonneg (h : l.Emits) : 0 ≤ l.outstanding :=
  Emission.outstanding_nonneg fun s hs => ⟨(h.ends s hs).1.le, h.pays s hs⟩

/-- What was funded fits its word when it is scaled. -/
theorem Ledger.Sound.scaled_lt (h : l.Sound) : l.funded * precision < 2 ^ 256 := by
  have hlt := mul_lt_mul_of_pos_right h.capped precision_pos
  refine hlt.trans ?_
  norm_num [precision]

theorem Ledger.Sound.owed_le (h : l.Sound) : l.paid * precision + l.owed ≤ l.funded * precision := by
  have hconserves := h.conserves
  rw [Ledger.Conserves] at hconserves
  have hremainder := h.indexRemainder_nonneg
  have hidle := h.idle_nonneg
  have houtstanding := h.emits.outstanding_nonneg
  linarith

theorem Ledger.Sound.paid_le_funded (h : l.Sound) : l.paid ≤ l.funded := by
  have howed := h.owed_le
  have hnonneg := h.books.owed_nonneg
  exact le_of_mul_le_mul_right (by linarith) precision_pos

theorem Ledger.Sound.earned_fits (h : l.Sound) (a : Address) : Fits (l.account a).earned := by
  have hpaid := mul_nonneg h.paid_nonneg precision_pos.le
  have howed := h.owed_le
  have hearned := h.books.earned_le_owed a
  exact fits_of_le (h.books.accounts a).earned_nonneg (by linarith) h.scaled_lt

/-- **A sound ledger is valid**, up to its supply and its balances. -/
theorem Ledger.Sound.valid (h : l.Sound) (hbounded : l.Bounded) : l.Valid := by
  have hlt := h.scaled_lt
  have hbudget := h.budget
  have hindex := h.index_nonneg
  have hremainder := h.indexRemainder_nonneg
  have hidle := h.idle_nonneg
  have houtstanding := h.emits.outstanding_nonneg
  have hrate : 0 ≤ l.rate ∧ l.rate ≤ l.outstanding := by
    rw [h.emits.rate_eq]
    exact ⟨Emission.totalRate_nonneg fun s hs => (h.emits.pays s hs).1,
      Emission.totalRate_le_outstanding fun s hs => ⟨(h.emits.ends s hs).1, h.emits.pays s hs⟩⟩
  have hpaid := h.paid_nonneg
  have hpaid_le := h.paid_le_funded
  have hcapped := h.capped
  refine ⟨?_, hpaid_le, fun e he => ?_⟩
  · simp only [List.forall_mem_cons, List.not_mem_nil, false_implies, implies_true, and_true]
    exact ⟨⟨h.books.supply_nonneg, hbounded.supply⟩, fits_of_le hindex (by linarith) hlt,
      fits_of_le hremainder (by linarith) hlt, fits_of_le hrate.1 (by linarith) hlt,
      fits_of_le hidle (by linarith) hlt,
      fits_of_le (hpaid.trans hpaid_le) hcapped.le (by norm_num),
      fits_of_le hpaid (hpaid_le.trans hcapped.le) (by norm_num)⟩
  · have haccount : l.account e.1 = e.2 :=
      Ledger.Books.account_of_lookup (Option.mem_def.mp (AList.mem_lookup_iff.mpr he))
    have hok := h.books.accounts e.1
    have hearned := h.earned_fits e.1
    have hbalance := hbounded.balances e.1
    rw [haccount] at hok hearned hbalance
    simp only [List.forall_mem_cons, List.not_mem_nil, false_implies, implies_true, and_true]
    exact ⟨⟨hok.balance_nonneg, hbalance⟩,
      fits_of_le hok.index_nonneg (hok.index_le.trans (by linarith)) hlt, hearned⟩

/-- What a valid ledger says of its supply and its balances. -/
theorem Ledger.Valid.bounded (h : l.Valid) (hcount : l.accounts.entries.length ≤ 100000) :
    l.Bounded := by
  refine ⟨hcount, (h.1 l.supply List.mem_cons_self).2, fun a => ?_⟩
  rcases hlookup : l.accounts.lookup a with _ | v
  · rw [Ledger.account, hlookup]
    decide
  · rw [Ledger.Books.account_of_lookup hlookup]
    exact (h.2.2 ⟨a, v⟩ (AList.mem_lookup_iff.mp hlookup) v.balance List.mem_cons_self).2

/-! ### Calls -/

theorem Ledger.applied_eq_ok {action : Action} : l.applied action = .ok c ↔
    (l.updatedAt ≤ action.timestamp ∧ action.timestamp ≤ maxUint64 - duration) ∧
      l.perform action = .ok c ∧ c.accounts.entries.length ≤ 100000 ∧ c.Valid := by
  unfold Ledger.applied
  simp only [bind_eq_ok, revertIf_eq_ok, pure_eq_ok, Except.ok.injEq, not_or, not_lt, not_not]
  constructor
  · rintro ⟨-, htime, d, hperform, -, hvalid, rfl⟩
    exact ⟨htime, hperform, hvalid⟩
  · rintro ⟨htime, hperform, hvalid⟩
    exact ⟨(), htime, c, hperform, (), hvalid, rfl⟩

theorem Ledger.apply_accepted {action : Action} :
    (l.apply action).2 = none ↔ ∃ c, l.applied action = .ok c := by
  unfold Ledger.apply
  rcases l.applied action with e | c
  · exact ⟨fun h => (nomatch h), fun ⟨c, hc⟩ => (nomatch hc)⟩
  · exact ⟨fun _ => ⟨c, rfl⟩, fun _ => rfl⟩

/-- **A rejected call leaves the ledger as it was.** -/
theorem Ledger.apply_rejected {action : Action} {e : ErrInput} (h : (l.apply action).2 = some e) :
    (l.apply action).1 = l ∧ l.applied action = .error e := by
  unfold Ledger.apply at h ⊢
  rcases happlied : l.applied action with e' | c
  · rw [happlied] at h
    cases h
    exact ⟨rfl, rfl⟩
  · rw [happlied] at h
    cases h

/-- **One call keeps a ledger sound and bounded**, accepted or not. -/
theorem Ledger.Sound.apply (h : l.Sound) (hbounded : l.Bounded) (action : Action) :
    (l.apply action).1.Sound ∧ (l.apply action).1.Bounded := by
  unfold Ledger.apply
  rcases happlied : l.applied action with e | c
  · exact ⟨h, hbounded⟩
  · obtain ⟨⟨hts, -⟩, hperform, hcount, hvalid⟩ := Ledger.applied_eq_ok.mp happlied
    exact ⟨h.perform hts hperform, hvalid.bounded hcount⟩

/-- **Every run keeps a ledger sound and bounded.** -/
theorem Ledger.Sound.applyAll (actions : List Action) (h : l.Sound) (hbounded : l.Bounded) :
    (l.applyAll actions).Sound ∧ (l.applyAll actions).Bounded := by
  unfold Ledger.applyAll
  induction actions generalizing l with
  | nil => exact ⟨h, hbounded⟩
  | cons action actions ih =>
    obtain ⟨hsound, hbounded⟩ := h.apply hbounded action
    exact ih hsound hbounded

/-- No call of a batched ledger is rejected for want of a slot. -/
theorem Ledger.Sound.apply_ne_slot (h : l.Sound) (hbatched : l.batched) (action : Action) :
    (l.apply action).2 ≠ some .slot := by
  intro hslot
  obtain ⟨-, hrejected⟩ := Ledger.apply_rejected hslot
  have hfails : FailsOnly (l.applied action) (· = .input) := by
    unfold Ledger.applied
    rw [failsOnly_bind]
    refine ⟨failsOnly_revertIf.mpr fun _ => rfl, fun _ hguard => ?_⟩
    rw [revertIf_eq_ok, not_or, not_lt] at hguard
    rw [failsOnly_bind]
    refine ⟨h.perform_failsOnly hbatched hguard.1, fun c _ => ?_⟩
    rw [failsOnly_bind]
    exact ⟨failsOnly_revertIf.mpr fun _ => rfl, fun _ _ => failsOnly_ok⟩
  cases hfails _ hrejected

/-! ### The view -/

theorem Ledger.Bounded.setAccount (h : l.Bounded) (ha : a ∈ l.accounts)
    (hbalance : v.balance = (l.account a).balance) : (l.setAccount a v).Bounded := by
  refine ⟨(Table.length_insert_of_mem ha v).trans_le h.count, h.supply, fun b => ?_⟩
  rcases eq_or_ne b a with rfl | hne
  · rw [Ledger.account_setAccount_self, hbalance]
    exact h.balances b
  · rw [Ledger.account_setAccount_of_ne _ _ hne]
    exact h.balances b

theorem Ledger.Bounded.accrue (h : l.Bounded) (ha : a ∈ l.accounts) :
    (l.accrue a).Bounded ∧ a ∈ (l.accrue a).accounts := by
  unfold Ledger.accrue
  split_ifs
  · exact ⟨h, ha⟩
  · exact ⟨h.setAccount ha rfl, (AList.mem_insert _).mpr (Or.inl rfl)⟩

/-- What an account has earned when it is accrued at a later time is what the view shows. -/
theorem Ledger.Sound.claimable_eq (h : l.Sound) (hts : l.updatedAt ≤ ts)
    (hv : l.accounts.lookup a = some v) :
    (((l.checkpoint ts).accrue a).account a).earned.tdiv precision
      = (l.viewAccount (l.checkpoint ts) a v).claimable := by
  obtain ⟨head, index, indexRemainder, rate, idle, streams, hframe⟩ := h.checkpoint_frame hts
  obtain ⟨-, -, haccount⟩ := (l.checkpoint ts).accrue_frame a
  have hsame : (l.checkpoint ts).account a = v := by
    rw [hframe]
    exact Ledger.Books.account_of_lookup hv
  have hexcluded : (l.checkpoint ts).excluded = l.excluded := by rw [hframe]
  rw [haccount, hsame, hexcluded, Ledger.viewAccount]
  dsimp only
  rcases Classical.em (a ∈ l.excluded) with hmem | hmem
  · rw [if_neg fun h => h.1 hmem, if_pos hmem, (h.books.of_lookup hv).excluded hmem, Int.zero_tdiv]
  · rw [if_pos ⟨hmem, rfl⟩, if_neg hmem]

/-- **A claim is accepted exactly if it is of what the view shows.** -/
theorem claim_accepted_iff (h : l.Sound) (hbounded : l.Bounded) {s : Snapshot}
    (hview : l.view ts = .ok s) {view : AccountView} (hlookup : s.accounts.lookup a = some view)
    (ha : a ≠ 0) {action : Action} (hkind : action.kind = .claim) (hts : action.timestamp = ts)
    (haccount : action.account = some a) :
    (l.apply action).2 = none ↔ action.amount = some view.claimable := by
  -- the account that the view is about
  unfold Ledger.view at hview
  simp only [bind_eq_ok, revertIf_eq_ok, pure_eq_ok, Except.ok.injEq, not_or, not_lt] at hview
  obtain ⟨-, htime, -, -, rfl⟩ := hview
  rw [Table.lookup_map, Option.map_eq_some_iff] at hlookup
  obtain ⟨v, hv, rfl⟩ := hlookup
  have hclaimable := h.claimable_eq htime.1 hv
  -- the ledger that pays
  have hcheckpoint := h.checkpoint htime.1
  obtain ⟨head, index, indexRemainder, rate, idle, streams, hframe⟩ := h.checkpoint_frame htime.1
  have hmem : a ∈ (l.checkpoint ts).accounts := by
    rw [hframe]
    exact AList.lookup_isSome.mp (by rw [hv]; rfl)
  have hcbounded : (l.checkpoint ts).Bounded := by
    rw [hframe]
    exact ⟨hbounded.count, hbounded.supply, hbounded.balances⟩
  obtain ⟨habounded, hamem⟩ := hcbounded.accrue hmem
  have haccrued := hcheckpoint.accrue a
  have hupdated : ((l.checkpoint ts).accrue a).updatedAt = ts := by
    obtain ⟨accounts, haccrue, -⟩ := (l.checkpoint ts).accrue_frame a
    rw [haccrue, hframe]
  obtain ⟨streams', rate', idle', started, hrestart, -⟩ := haccrued.restart hupdated
  set d : Ledger := (l.checkpoint ts).accrue a with hd
  have hperform (n : ℤ) (hn : integer action.amount = .ok n) :
      l.perform action = Ledger.pay
        { d with streams := streams', rate := rate', idle := idle', lastStreamStartedAt := started }
        a n := by
    unfold Ledger.perform Ledger.claim
    rw [hkind]
    dsimp only
    rw [haccount, hn, hts]
    simp only [orRevert, Option.elim_some, ok_bind, revertIf_neg ha, ← hd, hrestart]
  constructor
  · intro haccepted
    obtain ⟨c, happlied⟩ := Ledger.apply_accepted.mp haccepted
    obtain ⟨-, hc, -⟩ := Ledger.applied_eq_ok.mp happlied
    obtain ⟨n, hn⟩ : ∃ n, integer action.amount = .ok n := by
      unfold Ledger.perform Ledger.claim at hc
      rw [hkind] at hc
      simp only [bind_eq_ok] at hc
      obtain ⟨-, -, -, -, n, hn, -⟩ := hc
      exact ⟨n, hn⟩
    rw [hperform n hn, Ledger.pay] at hc
    simp only [bind_eq_ok, revertIf_eq_ok, not_not] at hc
    obtain ⟨-, hearned, -⟩ := hc
    rw [(integer_eq_ok.mp hn).1, ← hclaimable]
    exact congrArg some hearned.symm
  · intro hamount
    have hfits := haccrued.earned_fits a
    have hn : integer action.amount = .ok (l.viewAccount (l.checkpoint ts) a v).claimable := by
      refine integer_eq_ok.mpr ⟨hamount, ?_⟩
      rw [← hclaimable]
      refine fits_of_le (Int.tdiv_nonneg hfits.1 precision_pos.le) (Int.tdiv_le_self _ hfits.1) ?_
      have := hfits.2
      unfold BitLenExceeds at this
      omega
    have hpay := hperform _ hn
    have hearned : ¬ (d.account a).earned.tdiv precision
        ≠ (l.viewAccount (l.checkpoint ts) a v).claimable := not_not.mpr hclaimable
    rw [Ledger.pay] at hpay
    dsimp only at hpay
    rw [revertIf_neg (by exact hearned), ok_bind, pure_eq_ok] at hpay
    have hpaid := h.perform (hts ▸ htime.1) hpay
    have hpaid_bounded := habounded.setAccount hamem (v := { d.account a with
      earned := (d.account a).earned
        - (l.viewAccount (l.checkpoint ts) a v).claimable * precision }) rfl
    have hlast := hpaid.valid ⟨hpaid_bounded.count, hpaid_bounded.supply, hpaid_bounded.balances⟩
    exact Ledger.apply_accepted.mpr ⟨_, Ledger.applied_eq_ok.mpr
      ⟨hts ▸ htime, hpay, hpaid_bounded.count, hlast⟩⟩

/-! ### The registration -/

/-- What the loop over the balances has made of them, of a total supply. -/
structure Opened (excluded : List Address) (supply : ℤ) (o : Opening) : Prop where
  sum_eq : o.sum = Table.total (fun _ v => v.balance) o.accounts
  supply_eq : o.supply
    + Table.total (fun a v => if a ∈ excluded then v.balance else 0) o.accounts = supply
  accounts : ∀ a v, o.accounts.lookup a = some v →
    (0 ≤ v.balance ∧ ¬ BitLenExceeds v.balance 256) ∧ v.index = 0 ∧ v.earned = 0

/-- One balance is read. -/
theorem Opened.readBalance {excluded : List Address} {supply : ℤ} {o o' : Opening}
    {entry : Sigma fun _ : Option Address => Decimal} (h : Opened excluded supply o)
    (hnew : ∀ a, entry.1 = some a → a ∉ o.accounts)
    (ho : readBalance excluded o entry = .ok o') :
    Opened excluded supply o' ∧
      o'.accounts.entries.length = o.accounts.entries.length + 1 ∧
      ∀ a, a ∈ o'.accounts → a ∈ o.accounts ∨ entry.1 = some a := by
  unfold HolderLedger.readBalance at ho
  simp only [bind_eq_ok, orRevert_eq_ok, integer_eq_ok, pure_eq_ok, Except.ok.injEq] at ho
  obtain ⟨a, ha, n, ⟨-, hn⟩, rfl⟩ := ho
  have hfresh := hnew a ha
  have hnone := AList.lookup_eq_none.mpr hfresh
  refine ⟨⟨?_, ?_, ?_⟩, ?_, ?_⟩
  · dsimp only
    rw [Table.total_insert, hnone, Option.elim_none, sub_zero, h.sum_eq]
  · dsimp only
    rw [Table.total_insert, hnone, Option.elim_none, sub_zero, ← h.supply_eq]
    split_ifs
    · ring
    · ring
  · intro b v hv
    rcases eq_or_ne b a with rfl | hne
    · rw [AList.lookup_insert] at hv
      cases hv
      exact ⟨hn, rfl, rfl⟩
    · rw [AList.lookup_insert_ne hne] at hv
      exact h.accounts b v hv
  · rw [AList.entries_insert_of_notMem hfresh, List.length_cons]
  · intro b hb
    rcases (AList.mem_insert _).mp hb with rfl | hb
    · exact Or.inr ha
    · exact Or.inl hb

/-- All balances are read. -/
theorem Opened.foldlM {excluded : List Address} {supply : ℤ}
    {entries : List (Sigma fun _ : Option Address => Decimal)} {o o' : Opening}
    (h : Opened excluded supply o) (hnodup : entries.NodupKeys)
    (hnew : ∀ entry ∈ entries, ∀ a, entry.1 = some a → a ∉ o.accounts)
    (ho : entries.foldlM (HolderLedger.readBalance excluded) o = .ok o') :
    Opened excluded supply o' ∧
      o'.accounts.entries.length = o.accounts.entries.length + entries.length := by
  induction entries generalizing o with
  | nil =>
    rw [List.foldlM_nil, pure_eq_ok] at ho
    cases ho
    exact ⟨h, rfl⟩
  | cons entry entries ih =>
    rw [List.foldlM_cons, bind_eq_ok] at ho
    obtain ⟨o₁, ho₁, ho⟩ := ho
    obtain ⟨hopened, hlength, hmem⟩ := h.readBalance (hnew entry List.mem_cons_self) ho₁
    obtain ⟨hfirst, hnodup⟩ := List.nodupKeys_cons.mp hnodup
    obtain ⟨hresult, hresult_length⟩ := ih hopened hnodup (fun entry' hentry' a ha hin => by
      rcases hmem a hin with hin | heq
      · exact hnew entry' (List.mem_cons_of_mem _ hentry') a ha hin
      · exact hfirst (heq.trans ha.symm ▸ List.mem_keys_of_mem hentry')) ho
    rw [List.length_cons]
    exact ⟨hresult, by omega⟩

/-- **A registration that is accepted is a sound ledger.** -/
theorem sound_of_new {r : Registration} (h : Ledger.new r = .ok l) : l.Sound ∧ l.Bounded := by
  unfold Ledger.new at h
  simp only [bind_eq_ok, orRevert_eq_ok, revertIf_eq_ok, pure_eq_ok, Except.ok.injEq] at h
  obtain ⟨marketId, -, token, -, -, hguard, supply, hsupply, excluded, -, -, hexcluded, o, ho, -,
    hsum, rfl⟩ := h
  simp only [not_or, not_not, not_lt] at hguard hexcluded hsum
  obtain ⟨-, -, -, hcount, -⟩ := hguard
  obtain ⟨-, -, hbits⟩ := integer_eq_ok.mp hsupply
  obtain ⟨hopened, hlength⟩ := @Opened.foldlM excluded supply _ _ _
    ⟨rfl, add_zero _, fun a v hv => by rw [AList.lookup_empty] at hv; cases hv⟩
    r.balances.nodupKeys (fun _ _ a _ => AList.notMem_empty a) ho
  -- what is not excluded
  have hparts : Table.total (fun _ v => v.balance) o.accounts
      = Table.total (fun a v => if a ∈ excluded then 0 else v.balance) o.accounts
        + 1 * Table.total (fun a v => if a ∈ excluded then v.balance else 0) o.accounts := by
    rw [← Table.total_add_mul]
    congr 1
    funext a v
    split_ifs
    · ring
    · ring
  have hpart : 0 ≤ Table.total (fun a v => if a ∈ excluded then v.balance else 0) o.accounts :=
    Table.total_nonneg fun a v hv => by
      split_ifs
      · exact (hopened.accounts a v hv).1.1
      · exact le_rfl
  have heligible : o.supply
      = Table.total (fun a v => if a ∈ excluded then 0 else v.balance) o.accounts := by
    have hsum_eq := hopened.sum_eq
    have hsupply_eq := hopened.supply_eq
    linarith [hsum.1]
  have hzero : Table.total (fun a v => if a ∈ excluded then (0 : ℤ)
      else v.earned + v.balance * (0 - v.index)) o.accounts = 0 := by
    rw [Table.total_congr_left (g := fun _ _ => 0) fun a v hv => ?_]
    · simp [Table.total]
    · obtain ⟨-, hindex, hearned⟩ := hopened.accounts a v hv
      rw [hindex, hearned]
      simp
  have haccount (a : Address) :
      ((o.accounts.lookup a).getD { balance := 0, index := 0, earned := 0 }).index = 0 ∧
      ((o.accounts.lookup a).getD { balance := 0, index := 0, earned := 0 }).earned = 0 ∧
      0 ≤ ((o.accounts.lookup a).getD { balance := 0, index := 0, earned := 0 }).balance ∧
      ¬ BitLenExceeds
        ((o.accounts.lookup a).getD { balance := 0, index := 0, earned := 0 }).balance 256 := by
    rcases hlookup : o.accounts.lookup a with _ | v
    · decide
    · obtain ⟨hbalance, hindex, hearned⟩ := hopened.accounts a v hlookup
      exact ⟨hindex, hearned, hbalance⟩
  refine ⟨?_, ?_⟩
  · constructor
    case emits =>
      have hinterval : ∀ batched configurable : Bool,
          (if batched then if configurable then minFundingInterval else fundingInterval else 1)
            ≤ (if (if configurable then fundingInterval else 0) = 0 then fundingInterval
                else if configurable then fundingInterval else 0) := by decide
      exact ⟨rfl, List.Pairwise.nil, List.forall_mem_nil _, List.forall_mem_nil _,
        fun _ s hs => absurd hs (Option.not_mem_none s),
        fun _ => hinterval r.batched r.configurableInterval⟩
    case books =>
      refine ⟨heligible, fun a => ?_, hexcluded.1⟩
      obtain ⟨hindex, hearned, hbalance, -⟩ := haccount a
      exact ⟨hbalance, hearned.ge, hindex.ge, hindex.le, fun _ => hearned⟩
    case conserves =>
      change (0 : ℤ) * precision = 0 * precision + Table.total (fun a v => if a ∈ excluded then (0 : ℤ)
        else v.earned + v.balance * (0 - v.index)) o.accounts + 0 + 0 + 0
      rw [hzero]
      ring
    case index_nonneg => exact le_rfl
    case indexRemainder_nonneg => exact le_rfl
    case idle_nonneg => exact le_rfl
    case paid_nonneg => exact le_rfl
    case budget => exact le_rfl
    case capped => exact (by decide : (0 : ℤ) < 2 ^ 128)
  · refine ⟨?_, ?_, fun a => (haccount a).2.2.2⟩
    · change o.accounts.entries.length ≤ 100000
      rw [hlength]
      exact (Nat.zero_add _).trans_le hcount
    · change ¬ BitLenExceeds o.supply 256
      have hsupply_eq := hopened.supply_eq
      unfold BitLenExceeds at hbits ⊢
      omega

/-- A run from a registration. -/
theorem sound_of_run {r : Registration} (h : Ledger.new r = .ok l) (actions : List Action) :
    (l.applyAll actions).Sound ∧ (l.applyAll actions).Bounded := by
  obtain ⟨hsound, hbounded⟩ := sound_of_new h
  exact hsound.applyAll actions hbounded

/-- **The ledger loses no reward**, in any run. What was funded is paid, owed to an account that
is not excluded, left over by a division, idle or still to be released; the streams are in order
and fit their slots; a rejected call changes nothing; and what the view shows of an account other
than the zero address is the one amount that it can claim. -/
theorem ledger_conserves {r : Registration} {l₀ : Ledger} (h : Ledger.new r = .ok l₀)
    (actions : List Action) :
    let l := l₀.applyAll actions
    l.funded * precision
        = l.paid * precision
          + Table.total (fun a v => if a ∈ l.excluded then 0
              else v.earned + v.balance * (l.index - v.index)) l.accounts
          + l.indexRemainder + l.idle
          + (l.streams.map fun s => s.rate * ((s.endsAt : ℤ) - l.updatedAt) + s.remainder).sum ∧
      l.rate = (l.streams.map Stream.rate).sum ∧
      l.streams.Pairwise (fun s s' => s.endsAt < s'.endsAt) ∧
      (∀ s ∈ l.streams, l.updatedAt < s.endsAt) ∧
      l.supply = Table.total (fun a v => if a ∈ l.excluded then 0 else v.balance) l.accounts ∧
      (∀ action e, (l.apply action).2 = some e → (l.apply action).1 = l) ∧
      (l.batched → l.streams.length ≤ (if l.configurableInterval then 24 else 6) ∧
        ∀ action, (l.apply action).2 ≠ some .slot) ∧
      ∀ ts s, l.view ts = .ok s → ∀ a view, s.accounts.lookup a = some view → a ≠ 0 →
        ∀ action : Action, action.kind = .claim → action.timestamp = ts →
          action.account = some a →
            ((l.apply action).2 = none ↔ action.amount = some view.claimable) := by
  intro l
  obtain ⟨hsound, hbounded⟩ := sound_of_run h actions
  refine ⟨hsound.conserves, hsound.emits.rate_eq, hsound.emits.ordered,
    fun s hs => (hsound.emits.ends s hs).1, hsound.books.supply_eq,
    fun action e he => (Ledger.apply_rejected he).1, fun hbatched => ⟨?_, ?_⟩, ?_⟩
  · have hlength := hsound.emits.length_le hbatched
    rw [Ledger.maxStreams, if_pos hbatched] at hlength
    exact hlength
  · exact hsound.apply_ne_slot hbatched
  · intro ts s hview a view hlookup ha action hkind hts haccount
    exact claim_accepted_iff hsound hbounded hview hlookup ha hkind hts haccount

/-! ### A registration -/

/-- A token of two holders; the zero address and the token itself are excluded and are listed
with no balance. -/
def sampleRegistration : Registration where
  batched := true
  configurableInterval := true
  marketId := some 1
  token := some 16
  totalSupply := some 100
  timestamp := 0
  excluded := [some 0, some 16]
  balances := [(⟨some 1, some 60⟩ : Sigma fun _ : Option Address => Decimal), ⟨some 2, some 40⟩,
    ⟨some 0, some 0⟩, ⟨some 16, some 0⟩].toAList

theorem sampleRegistration_isOk : (Ledger.new sampleRegistration).isOk = true := by decide +kernel

/-- The ledger of the registration. -/
def sampleLedger : Ledger := value _ sampleRegistration_isOk

/-- A reward comes in, the interval is changed, and the accounts claim when tokens have moved. -/
def sampleActions : List Action :=
  [{ kind := .fund, timestamp := 0, fromAccount := none, toAccount := none, account := none,
     amount := some 1000, interval := 0 },
   { kind := .setFundingInterval, timestamp := 10, fromAccount := none, toAccount := none,
     account := none, amount := none, interval := 7200 },
   { kind := .transfer, timestamp := 43200, fromAccount := some 1, toAccount := some 2,
     account := none, amount := some 20, interval := 0 },
   { kind := .claim, timestamp := 86400, fromAccount := none, toAccount := none,
     account := some 1, amount := some 499, interval := 0 }]

/-- The ledger of the registration, after the claim of what the view showed of the first holder:
a stream has ended, and what the second holder is owed is all that is left but for a remainder. -/
theorem ledger_conserves_sample :
    let l := sampleLedger.applyAll sampleActions
    (l.funded = 1000 ∧ l.paid = 499 ∧
      (l.view 86400).toOption.bind (fun s => (s.accounts.lookup 2).map fun view => view.claimable)
        = some 500) ∧
      l.funded * precision
        = l.paid * precision
          + Table.total (fun a v => if a ∈ l.excluded then 0
              else v.earned + v.balance * (l.index - v.index)) l.accounts
          + l.indexRemainder + l.idle
          + (l.streams.map fun s => s.rate * ((s.endsAt : ℤ) - l.updatedAt) + s.remainder).sum ∧
      l.rate = (l.streams.map Stream.rate).sum ∧
      l.streams.Pairwise (fun s s' => s.endsAt < s'.endsAt) ∧
      (∀ s ∈ l.streams, l.updatedAt < s.endsAt) ∧
      l.supply = Table.total (fun a v => if a ∈ l.excluded then 0 else v.balance) l.accounts ∧
      (∀ action e, (l.apply action).2 = some e → (l.apply action).1 = l) ∧
      (l.batched → l.streams.length ≤ (if l.configurableInterval then 24 else 6) ∧
        ∀ action, (l.apply action).2 ≠ some .slot) ∧
      ∀ ts s, l.view ts = .ok s → ∀ a view, s.accounts.lookup a = some view → a ≠ 0 →
        ∀ action : Action, action.kind = .claim → action.timestamp = ts →
          action.account = some a →
            ((l.apply action).2 = none ↔ action.amount = some view.claimable) :=
  ⟨by decide +kernel, ledger_conserves (eq_ok_value sampleRegistration_isOk) sampleActions⟩

/-- A claim of nothing, by the zero address. -/
def zeroClaim : Action where
  kind := .claim
  timestamp := 0
  fromAccount := none
  toAccount := none
  account := some 0
  amount := some 0
  interval := 0

theorem sampleView_isOk : (sampleLedger.view 0).isOk = true := by decide +kernel

theorem sampleView_zero :
    ((value _ sampleView_isOk).accounts.lookup 0).map (fun view => view.claimable) = some 0 := by
  decide +kernel

/-- **The zero address claims nothing**, not even the nothing that the view shows of it: a
registration may list it, and a claim refuses it. -/
theorem zero_claim_refused :
    ∃ r l s view, Ledger.new r = .ok l ∧ l.view 0 = .ok s ∧ s.accounts.lookup 0 = some view ∧
      zeroClaim.amount = some view.claimable ∧ (l.apply zeroClaim).2 = some .input := by
  obtain ⟨view, hview, hclaimable⟩ := Option.map_eq_some_iff.mp sampleView_zero
  refine ⟨sampleRegistration, sampleLedger, _, view, eq_ok_value sampleRegistration_isOk,
    eq_ok_value sampleView_isOk, hview, ?_, by decide +kernel⟩
  rw [hclaimable]
  rfl

end HolderLedger

end Backend

end TickerGarden
