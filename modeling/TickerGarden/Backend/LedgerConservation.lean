import TickerGarden.Backend.ContinuousLedger

/-!
# The continuous holder ledger loses no reward

Whatever was funded is somewhere: it was paid, it was earned by an account, it is what the
index or a stream has not divided, it is idle, or a running stream has still to release it
(`TickerGarden.Backend.HolderLedger.Ledger.Conserves`). The invariant that carries this is
`TickerGarden.Backend.HolderLedger.Ledger.Sound`, in two parts: what the streams look like
(`TickerGarden.Backend.HolderLedger.Ledger.Emits`) and what the accounts do
(`TickerGarden.Backend.HolderLedger.Ledger.Books`).

Everything a call does to the rewards is a movement out of what is idle, so an operation is
stated for a ledger that has the amount in question in `idle` and is sound: it may then be
distributed (`TickerGarden.Backend.HolderLedger.Sound.distribute`), and it may be made into a
stream (`TickerGarden.Backend.HolderLedger.Sound.appendStream`).

The slots of a batched ledger are enough because the ends of its streams keep a distance
(`TickerGarden.Backend.HolderLedger.Ledger.gap`) of which a day has as many as there are slots;
that survives a change of the interval, since no interval is shorter.
-/

namespace TickerGarden

open Checked

namespace Backend

namespace HolderLedger

theorem precision_pos : 0 < precision := by decide

/-! ### What is conserved -/

/-- What an account has earned and was not paid, scaled. -/
def Ledger.share (l : Ledger) (a : Address) (v : Account) : ℤ :=
  if a ∈ l.excluded then 0 else v.earned + v.balance * (l.index - v.index)

/-- The part of the supply that an account has. -/
def Ledger.weight (l : Ledger) (a : Address) (v : Account) : ℤ :=
  if a ∈ l.excluded then 0 else v.balance

/-- What the accounts have earned. -/
def Ledger.owed (l : Ledger) : ℤ := Table.total l.share l.accounts

/-- The sum of the balances that share in the rewards. -/
def Ledger.eligible (l : Ledger) : ℤ := Table.total l.weight l.accounts

/-- What the streams have still to release. -/
def Ledger.outstanding (l : Ledger) : ℤ :=
  Emission.outstanding Stream.endsAt Stream.rate Stream.remainder l.updatedAt l.streams

/-- **Every reward is accounted for.** -/
def Ledger.Conserves (l : Ledger) : Prop :=
  l.funded * precision
    = l.paid * precision + l.owed + l.indexRemainder + l.idle + l.outstanding

/-! ### The invariant -/

/-- The distance that the ends of the streams keep. -/
def Ledger.gap (l : Ledger) : ℕ :=
  if l.batched then if l.configurableInterval then minFundingInterval else
    HolderLedger.fundingInterval
  else 1

/-- What the streams of a ledger look like. -/
structure Ledger.Emits (l : Ledger) : Prop where
  rate_eq : l.rate = Emission.totalRate Stream.rate l.streams
  spaced : l.streams.Pairwise fun s s' => s.endsAt + l.gap ≤ s'.endsAt
  ends : ∀ s ∈ l.streams, l.updatedAt < s.endsAt ∧ s.endsAt ≤ l.updatedAt + duration
  pays : ∀ s ∈ l.streams, 0 ≤ s.rate ∧ 0 ≤ s.remainder
  /-- The last stream of a batched ledger is the one that was started last. -/
  last : l.batched → ∀ s ∈ l.streams.getLast?, s.endsAt = l.lastStreamStartedAt + duration
  interval : l.batched → l.gap ≤ l.interval

/-- What an account of a ledger looks like. -/
structure AccountOk (excluded : List Address) (index : ℤ) (a : Address) (v : Account) : Prop where
  balance_nonneg : 0 ≤ v.balance
  earned_nonneg : 0 ≤ v.earned
  index_nonneg : 0 ≤ v.index
  index_le : v.index ≤ index
  excluded : a ∈ excluded → v.earned = 0

/-- What the accounts of a ledger look like. -/
structure Ledger.Books (l : Ledger) : Prop where
  supply_eq : l.supply = l.eligible
  accounts : ∀ a, AccountOk l.excluded l.index a (l.account a)
  zero_excluded : 0 ∈ l.excluded

/-- **The invariant.** What was released into the index at some time is still bounded by what
was funded, so that no number outgrows its word. -/
structure Ledger.Sound (l : Ledger) : Prop where
  emits : l.Emits
  books : l.Books
  conserves : l.Conserves
  index_nonneg : 0 ≤ l.index
  indexRemainder_nonneg : 0 ≤ l.indexRemainder
  idle_nonneg : 0 ≤ l.idle
  paid_nonneg : 0 ≤ l.paid
  budget : l.index + l.indexRemainder + l.idle + l.outstanding ≤ l.funded * precision
  capped : l.funded < 2 ^ 128

variable {l c : Ledger} {ts : ℕ} {a b : Address} {v : Account}

theorem Ledger.gap_pos (l : Ledger) : 0 < l.gap := by
  unfold Ledger.gap
  split_ifs <;> decide

/-- A day has room for as many distances as there are slots. -/
theorem Ledger.maxStreams_mul_gap (h : l.batched) : l.maxStreams * l.gap = duration := by
  unfold Ledger.maxStreams Ledger.gap
  rw [if_pos h, if_pos h]
  split_ifs <;> rfl

theorem Ledger.Emits.ordered (h : l.Emits) :
    l.streams.Pairwise fun s s' => s.endsAt < s'.endsAt :=
  h.spaced.imp fun {s s'} hle => by
    have := l.gap_pos
    omega

/-- **The slots are never exceeded.** -/
theorem Ledger.Emits.length_le (h : l.Emits) (hbatched : l.batched) :
    l.streams.length ≤ l.maxStreams := by
  have hlt := Emission.length_mul_lt (w := l.updatedAt + duration + l.gap) h.spaced
    (fun s hs => (h.ends s hs).1) (fun s hs => Nat.add_le_add_right (h.ends s hs).2 _)
    (by have := l.gap_pos; omega)
  have hslots := Ledger.maxStreams_mul_gap hbatched
  have hmul : l.streams.length * l.gap < (l.maxStreams + 1) * l.gap := by
    rw [Nat.add_mul, hslots, Nat.one_mul]
    omega
  exact Nat.le_of_lt_succ (Nat.lt_of_mul_lt_mul_right hmul)

/-! ### The checkpoint -/

/-- The ledger at a later time, with what the streams released left out. -/
def Ledger.advanced (l : Ledger) (ts : ℕ) (head : UInt8) : Ledger :=
  { l with updatedAt := ts, head,
           streams := Emission.live Stream.endsAt ts l.streams,
           rate := Emission.totalRate Stream.rate (Emission.live Stream.endsAt ts l.streams) }

/-- **The loop of `checkpoint`** takes off the streams that have ended, and releases what they
had still to release. -/
theorem releaseEnded_eq {streams : List Stream} {l : Ledger} (hl : l.streams = streams)
    (hrate : l.rate = Emission.totalRate Stream.rate streams)
    (hordered : streams.Pairwise fun s s' => s.endsAt < s'.endsAt)
    (hends : ∀ s ∈ streams, l.updatedAt ≤ s.endsAt) (hts : l.updatedAt ≤ ts) (released : ℤ) :
    ∃ u head, l.updatedAt ≤ u ∧ u ≤ ts ∧
      releaseEnded ts streams l released
        = ({ l.advanced ts head with updatedAt := u },
           released + (l.outstanding
             - Emission.outstanding Stream.endsAt Stream.rate Stream.remainder u
                 (Emission.live Stream.endsAt ts streams))) := by
  induction streams generalizing l released with
  | nil =>
    refine ⟨l.updatedAt, l.head, le_rfl, hts, Prod.ext ?_ ?_⟩
    · rw [releaseEnded, Ledger.advanced, hl]
      cases l
      simp_all [Emission.live]
    · rw [releaseEnded, Ledger.outstanding, hl]
      simp [Emission.live]
  | cons s streams ih =>
    obtain ⟨hfirst, hordered⟩ := List.pairwise_cons.mp hordered
    have hs := hends s List.mem_cons_self
    rcases le_or_gt s.endsAt ts with hle | hlt
    · obtain ⟨u, head, hu, huts, heq⟩ := @ih
        { l with updatedAt := s.endsAt, rate := l.rate - s.rate, streams,
                 head := (l.head + 1) % UInt8.ofNat l.maxStreams } rfl
        (by rw [hrate, Emission.totalRate_cons]; exact add_sub_cancel_left _ _)
        hordered (fun s' hs' => (hfirst s' hs').le) hle
        (released + l.rate * ((s.endsAt - l.updatedAt : ℕ) : ℤ) + s.remainder)
      refine ⟨u, head, hs.trans hu, huts, ?_⟩
      rw [releaseEnded, if_pos hle, heq]
      refine Prod.ext ?_ ?_
      · simp [Ledger.advanced, hl, Emission.live_cons_of_le _ hle]
      · have hadvance := Emission.outstanding_advance Stream.endsAt Stream.rate Stream.remainder
          l.updatedAt s.endsAt streams
        simp only [Ledger.outstanding, hl, Emission.outstanding_cons,
          Emission.live_cons_of_le Stream.endsAt hle, hadvance, hrate, Emission.totalRate_cons,
          Nat.cast_sub hs]
        ring
    · refine ⟨l.updatedAt, l.head, le_rfl, hts, ?_⟩
      have hlive := Emission.live_cons_of_lt Stream.endsAt hlt streams
      rw [releaseEnded, if_neg hlt.not_ge]
      refine Prod.ext ?_ ?_
      · rw [Ledger.advanced, hl, hlive, ← hrate, ← hl]
      · rw [Ledger.outstanding, hl, hlive, sub_self, add_zero]

/-- What is released up to a time. -/
def Ledger.released (l : Ledger) (ts : ℕ) : ℤ :=
  l.outstanding - Emission.outstanding Stream.endsAt Stream.rate Stream.remainder ts
    (Emission.live Stream.endsAt ts l.streams)

/-- **What a checkpoint does**: what the streams release is distributed. -/
theorem Ledger.Emits.checkpoint_eq (h : l.Emits) (hts : l.updatedAt ≤ ts) :
    ∃ head, l.checkpoint ts = (l.advanced ts head).distribute (l.released ts) := by
  obtain ⟨u, head, hu, huts, heq⟩ := releaseEnded_eq rfl h.rate_eq h.ordered
    (fun s hs => (h.ends s hs).1.le) hts 0
  refine ⟨head, ?_⟩
  have hadvance := Emission.outstanding_advance Stream.endsAt Stream.rate Stream.remainder u ts
    (Emission.live Stream.endsAt ts l.streams)
  rw [Ledger.checkpoint, heq]
  dsimp only [Ledger.advanced]
  rw [Ledger.released, hadvance, Nat.cast_sub huts]
  congr 1
  ring

theorem Ledger.Emits.released_nonneg (h : l.Emits) (hts : l.updatedAt ≤ ts) :
    0 ≤ l.released ts :=
  sub_nonneg.mpr (Emission.outstanding_live_le hts fun s hs =>
    ⟨(h.ends s hs).1.le, h.pays s hs⟩)

/-- The streams that are left are as they should be. -/
theorem Ledger.Emits.advanced (h : l.Emits) (hts : l.updatedAt ≤ ts) (head : UInt8) :
    (l.advanced ts head).Emits := by
  have hsuffix := Emission.live_suffix Stream.endsAt ts l.streams
  have hmem : ∀ s ∈ Emission.live Stream.endsAt ts l.streams, s ∈ l.streams := fun s hs =>
    hsuffix.subset hs
  constructor
  case rate_eq => rfl
  case spaced => exact h.spaced.sublist hsuffix.sublist
  case ends =>
    intro s hs
    have hlive := Emission.lt_of_mem_live (h.ordered.imp fun h => h.le) hs
    have hend := (h.ends s (hmem s hs)).2
    exact ⟨hlive, hend.trans (Nat.add_le_add_right hts _)⟩
  case pays => exact fun s hs => h.pays s (hmem s hs)
  case last =>
    intro hbatched s hs
    obtain ⟨ended, hended⟩ := hsuffix
    refine h.last hbatched s ?_
    rw [← hended]
    exact List.mem_getLast?_append_of_mem_getLast? hs
  case interval => exact h.interval

/-- A sound ledger at a later time, before what was released is distributed. -/
theorem Ledger.Sound.advanced (h : l.Sound) (hts : l.updatedAt ≤ ts) (head : UInt8) :
    { l.advanced ts head with idle := l.idle + l.released ts }.Sound := by
  have houtstanding : l.outstanding = l.released ts
      + Emission.outstanding Stream.endsAt Stream.rate Stream.remainder ts
          (Emission.live Stream.endsAt ts l.streams) := (sub_add_cancel _ _).symm
  have hconserves := h.conserves
  have hbudget := h.budget
  rw [Ledger.Conserves, houtstanding] at hconserves
  rw [houtstanding] at hbudget
  have hadvanced := h.emits.advanced hts head
  constructor
  case emits =>
    exact ⟨hadvanced.rate_eq, hadvanced.spaced, hadvanced.ends, hadvanced.pays, hadvanced.last,
      hadvanced.interval⟩
  case books => exact ⟨h.books.supply_eq, h.books.accounts, h.books.zero_excluded⟩
  case conserves =>
    change l.funded * precision = l.paid * precision + l.owed + l.indexRemainder
      + (l.idle + l.released ts) + Emission.outstanding _ _ _ ts
        (Emission.live Stream.endsAt ts l.streams)
    linarith
  case index_nonneg => exact h.index_nonneg
  case indexRemainder_nonneg => exact h.indexRemainder_nonneg
  case idle_nonneg => exact add_nonneg h.idle_nonneg (h.emits.released_nonneg hts)
  case paid_nonneg => exact h.paid_nonneg
  case budget =>
    change l.index + l.indexRemainder + (l.idle + l.released ts) + Emission.outstanding _ _ _ ts
        (Emission.live Stream.endsAt ts l.streams) ≤ l.funded * precision
    linarith
  case capped => exact h.capped

/-! ### The accounts -/

theorem Ledger.Books.account_of_lookup (h : l.accounts.lookup a = some v) : l.account a = v := by
  rw [Ledger.account, h, Option.getD_some]

theorem Ledger.Books.of_lookup (h : l.Books) (hv : l.accounts.lookup a = some v) :
    AccountOk l.excluded l.index a v := account_of_lookup hv ▸ h.accounts a

theorem AccountOk.share_nonneg (h : AccountOk l.excluded l.index a v) : 0 ≤ l.share a v := by
  unfold Ledger.share
  split_ifs
  · exact le_rfl
  · exact add_nonneg h.earned_nonneg (mul_nonneg h.balance_nonneg (sub_nonneg.mpr h.index_le))

theorem Ledger.Books.owed_nonneg (h : l.Books) : 0 ≤ l.owed :=
  Table.total_nonneg fun _ _ hv => (h.of_lookup hv).share_nonneg

theorem Ledger.Books.supply_nonneg (h : l.Books) : 0 ≤ l.supply := by
  rw [h.supply_eq]
  refine Table.total_nonneg fun a v hv => ?_
  unfold Ledger.weight
  split_ifs
  · exact le_rfl
  · exact (h.of_lookup hv).balance_nonneg

/-- What was earned by one account is part of what the accounts have earned. -/
theorem Ledger.Books.earned_le_owed (h : l.Books) (a : Address) : (l.account a).earned ≤ l.owed := by
  rcases hlookup : l.accounts.lookup a with _ | v
  · rw [Ledger.account, hlookup]
    exact h.owed_nonneg
  · rw [account_of_lookup hlookup]
    have hok := h.of_lookup hlookup
    have hle : l.share a v ≤ l.owed :=
      Table.lookup_le_total (fun _ _ hv => (h.of_lookup hv).share_nonneg) hlookup
    refine le_trans ?_ hle
    unfold Ledger.share
    split_ifs with hexcluded
    · exact (hok.excluded hexcluded).le
    · exact le_add_of_nonneg_right
        (mul_nonneg hok.balance_nonneg (sub_nonneg.mpr hok.index_le))

/-- **The index grows**, and each account has earned its part of it. -/
theorem Ledger.owed_growIndex (l : Ledger) (q : ℤ) :
    { l with index := l.index + q }.owed = l.owed + q * l.eligible := by
  rw [Ledger.owed, Ledger.owed, Ledger.eligible, ← Table.total_add_mul]
  congr 1
  funext a v
  unfold Ledger.share Ledger.weight
  dsimp only
  split_ifs
  · ring
  · ring

/-- **What is idle is distributed.** -/
theorem Ledger.Sound.distribute {x : ℤ} (hx : 0 ≤ x) (hidle : 0 ≤ l.idle)
    (h : { l with idle := l.idle + x }.Sound) : (l.distribute x).Sound := by
  unfold Ledger.distribute
  rcases eq_or_ne l.supply 0 with hzero | hne
  · rwa [if_pos hzero]
  · rw [if_neg hne]
    have hsupply : 0 < l.supply := lt_of_le_of_ne h.books.supply_nonneg hne.symm
    have hremainder : 0 ≤ l.indexRemainder := h.indexRemainder_nonneg
    have hindex : 0 ≤ l.index := h.index_nonneg
    set q := (x + l.indexRemainder).tdiv l.supply with hq
    set r := (x + l.indexRemainder).tmod l.supply with hr
    have hdivision : l.supply * q + r = x + l.indexRemainder := Int.mul_tdiv_add_tmod _ _
    have hq0 : 0 ≤ q := Int.tdiv_nonneg (add_nonneg hx hremainder) hsupply.le
    have hr0 : 0 ≤ r := Int.tmod_nonneg _ (add_nonneg hx hremainder)
    have hqle : q ≤ l.supply * q := le_mul_of_one_le_left hq0 hsupply
    have hsupply_eq : l.supply = l.eligible := h.books.supply_eq
    have howed : { l with index := l.index + q, indexRemainder := r }.owed = l.owed + l.supply * q := by
      rw [hsupply_eq, mul_comm]
      exact l.owed_growIndex q
    have hconserves : l.funded * precision
        = l.paid * precision + l.owed + l.indexRemainder + (l.idle + x) + l.outstanding := h.conserves
    have hbudget : l.index + l.indexRemainder + (l.idle + x) + l.outstanding ≤ l.funded * precision :=
      h.budget
    constructor
    case emits =>
      exact ⟨h.emits.rate_eq, h.emits.spaced, h.emits.ends, h.emits.pays, h.emits.last,
        h.emits.interval⟩
    case books =>
      refine ⟨hsupply_eq, fun a => ?_, h.books.zero_excluded⟩
      have hok := h.books.accounts a
      exact ⟨hok.balance_nonneg, hok.earned_nonneg, hok.index_nonneg,
        hok.index_le.trans (le_add_of_nonneg_right hq0), hok.excluded⟩
    case conserves =>
      rw [Ledger.Conserves, howed]
      change l.funded * precision
        = l.paid * precision + (l.owed + l.supply * q) + r + l.idle + l.outstanding
      linarith
    case index_nonneg => exact add_nonneg hindex hq0
    case indexRemainder_nonneg => exact hr0
    case idle_nonneg => exact hidle
    case paid_nonneg => exact h.paid_nonneg
    case budget =>
      change l.index + q + r + l.idle + l.outstanding ≤ l.funded * precision
      linarith
    case capped => exact h.capped

/-- **A checkpoint keeps the ledger sound.** -/
theorem Ledger.Sound.checkpoint (h : l.Sound) (hts : l.updatedAt ≤ ts) :
    (l.checkpoint ts).Sound := by
  obtain ⟨head, heq⟩ := h.emits.checkpoint_eq hts
  rw [heq]
  exact Ledger.Sound.distribute (h.emits.released_nonneg hts) h.idle_nonneg (h.advanced hts head)

/-! ### The streams -/

theorem Ledger.pushStream_eq_ok {s : Stream} : l.pushStream s = .ok c ↔
    l.streams.length ≠ l.maxStreams ∧
      c = { l with streams := l.streams ++ [s], rate := l.rate + s.rate } := by
  rw [Ledger.pushStream, bind_eq_ok]
  constructor
  · rintro ⟨_, hguard, hc⟩
    exact ⟨revertIf_eq_ok.mp hguard, (Except.ok.inj hc).symm⟩
  · rintro ⟨hroom, rfl⟩
    exact ⟨(), revertIf_eq_ok.mpr hroom, rfl⟩

/-- The stream that an amount is made into. -/
def dayStream (x : ℤ) (endsAt : ℕ) : Stream where
  endsAt := endsAt
  rate := x.tdiv duration
  remainder := x.tmod duration

/-- Over its day, a stream pays the amount it was made of. -/
theorem dayStream_pays (x : ℤ) (endsAt : ℕ) :
    (dayStream x endsAt).rate * duration + (dayStream x endsAt).remainder = x :=
  Int.tdiv_mul_add_tmod _ _

theorem dayStream_nonneg {x : ℤ} (hx : 0 ≤ x) (endsAt : ℕ) :
    0 ≤ (dayStream x endsAt).rate ∧ 0 ≤ (dayStream x endsAt).remainder :=
  ⟨Int.tdiv_nonneg hx (Int.natCast_nonneg _), Int.tmod_nonneg _ hx⟩

/-- The stream `last` with another one added to it. -/
def Stream.merge (last s : Stream) : Stream :=
  { last with rate := last.rate + s.rate, remainder := last.remainder + s.remainder }

/-- **What `appendStream` does**: a stream is added to the last one, if that ends at the same
time, and to the list otherwise. -/
theorem Ledger.appendStream_eq_ok {x : ℤ} {endsAt : ℕ} (h : l.appendStream x endsAt = .ok c) :
    (∃ init last, l.streams = init ++ [last] ∧ last.endsAt = endsAt ∧
      c = { l with streams := init ++ [last.merge (dayStream x endsAt)],
                   rate := l.rate + (dayStream x endsAt).rate }) ∨
    ((∀ s ∈ l.streams.getLast?, s.endsAt ≠ endsAt) ∧
      c = { l with streams := l.streams ++ [dayStream x endsAt],
                   rate := l.rate + (dayStream x endsAt).rate }) := by
  unfold Ledger.appendStream at h
  rcases List.eq_nil_or_concat l.streams with hnil | ⟨init, last, hconcat⟩
  · rw [hnil, List.getLast?_nil] at h
    refine Or.inr ⟨by simp [hnil], (Ledger.pushStream_eq_ok.mp h).2⟩
  · rw [List.concat_eq_append] at hconcat
    rw [hconcat, List.getLast?_concat] at h
    dsimp only at h
    split_ifs at h with hend
    · refine Or.inl ⟨init, last, hconcat, hend, ?_⟩
      rw [← Except.ok.inj h, Ledger.mergeStream, hconcat, List.dropLast_concat]
      rfl
    · refine Or.inr ⟨?_, (Ledger.pushStream_eq_ok.mp h).2⟩
      rw [hconcat, List.getLast?_concat]
      rintro s ⟨⟩
      exact hend

/-- There is a ledger with the stream appended, unless it needs a slot and all are taken. -/
theorem Ledger.exists_appendStream {x : ℤ} {endsAt : ℕ}
    (hroom : (∀ s ∈ l.streams.getLast?, s.endsAt ≠ endsAt) → l.streams.length ≠ l.maxStreams) :
    ∃ c, l.appendStream x endsAt = .ok c := by
  unfold Ledger.appendStream
  dsimp only
  rcases hlast : l.streams.getLast? with _ | last
  · exact ⟨_, Ledger.pushStream_eq_ok.mpr ⟨hroom (by simp [hlast]), rfl⟩⟩
  · dsimp only
    split_ifs with hend
    · exact ⟨_, rfl⟩
    · exact ⟨_, Ledger.pushStream_eq_ok.mpr ⟨hroom (by simpa [hlast] using hend), rfl⟩⟩

/-- No stream ends after the last one. -/
theorem Ledger.Emits.le_last (h : l.Emits) {s : Stream} (hs : s ∈ l.streams) :
    ∃ last ∈ l.streams.getLast?, s.endsAt ≤ last.endsAt := by
  rcases List.eq_nil_or_concat l.streams with hnil | ⟨init, last, hconcat⟩
  · exact absurd (hnil ▸ hs) List.not_mem_nil
  · rw [List.concat_eq_append] at hconcat
    have hordered := h.ordered
    rw [hconcat] at hs hordered ⊢
    rw [List.getLast?_concat]
    refine ⟨last, rfl, ?_⟩
    rcases List.mem_append.mp hs with hs | hs
    · exact ((List.pairwise_append.mp hordered).2.2 s hs last (List.mem_singleton_self _)).le
    · rw [List.mem_singleton.mp hs]

/-- A place for a stream that starts now: the last one ends with it, or a distance before. -/
def Ledger.Place (l : Ledger) : Prop :=
  ∀ s ∈ l.streams.getLast?,
    s.endsAt = l.updatedAt + duration ∨ s.endsAt + l.gap ≤ l.updatedAt + duration

/-- **There is a slot** for a stream that keeps the distance. -/
theorem Ledger.Emits.room (h : l.Emits) (hbatched : l.batched)
    (hplace : ∀ s ∈ l.streams.getLast?, s.endsAt + l.gap ≤ l.updatedAt + duration) :
    l.streams.length ≠ l.maxStreams := by
  have hlt := Emission.length_mul_lt (w := l.updatedAt + duration) h.spaced
    (fun s hs => (h.ends s hs).1)
    (fun s hs => by
      obtain ⟨last, hlast, hle⟩ := h.le_last hs
      exact (Nat.add_le_add_right hle _).trans (hplace last hlast))
    (Nat.lt_add_of_pos_right (by decide))
  intro heq
  rw [heq, Ledger.maxStreams_mul_gap hbatched] at hlt
  exact lt_irrefl _ hlt

/-- The streams are as they should be after one was appended. -/
theorem Ledger.Emits.append {x : ℤ} (h : l.Emits) (hx : 0 ≤ x) (hplace : l.Place)
    (hc : l.appendStream x (l.updatedAt + duration) = .ok c) {started : ℕ}
    (hstarted : l.batched → started = l.updatedAt) :
    { c with lastStreamStartedAt := started }.Emits ∧ c.outstanding = l.outstanding + x := by
  have hpays := dayStream_pays x (l.updatedAt + duration)
  have hnonneg := dayStream_nonneg hx (l.updatedAt + duration)
  have hgap := l.gap_pos
  have hday : 0 < duration := by decide
  rcases Ledger.appendStream_eq_ok hc with ⟨init, last, heq, hend, rfl⟩ | ⟨hne, rfl⟩
  · obtain ⟨hrate, hspaced, hends, hold, -, hinterval⟩ := h
    rw [heq] at hrate hspaced hends hold
    obtain ⟨hinit, -, hcross⟩ := List.pairwise_append.mp hspaced
    have hmem : last ∈ init ++ [last] := List.mem_append_right _ (List.mem_singleton_self _)
    refine ⟨?_, ?_⟩
    · constructor
      case rate_eq =>
        dsimp only
        rw [hrate]
        simp only [Emission.totalRate_append, Emission.totalRate_cons, Emission.totalRate_nil,
          Stream.merge]
        ring
      case spaced =>
        refine List.pairwise_append.mpr ⟨hinit, List.pairwise_singleton _ _, fun s hs s' hs' => ?_⟩
        rw [List.mem_singleton.mp hs']
        exact hcross s hs last (List.mem_singleton_self _)
      case ends =>
        intro s hs
        rcases List.mem_append.mp hs with hs | hs
        · exact hends s (List.mem_append_left _ hs)
        · rw [List.mem_singleton.mp hs]
          exact hends last hmem
      case pays =>
        intro s hs
        rcases List.mem_append.mp hs with hs | hs
        · exact hold s (List.mem_append_left _ hs)
        · rw [List.mem_singleton.mp hs]
          exact ⟨add_nonneg (hold last hmem).1 hnonneg.1, add_nonneg (hold last hmem).2 hnonneg.2⟩
      case last =>
        intro hbatched s hs
        dsimp only at hs ⊢
        rw [List.getLast?_concat] at hs
        cases hs
        rw [hstarted hbatched]
        exact hend
      case interval => exact hinterval
    · simp only [Ledger.outstanding, heq, Emission.outstanding_append, Emission.outstanding_cons,
        Emission.outstanding_nil, Stream.merge, hend, Nat.cast_add, add_sub_cancel_left]
      linarith
  · refine ⟨?_, ?_⟩
    · constructor
      case rate_eq =>
        dsimp only
        rw [h.rate_eq]
        simp
      case spaced =>
        refine List.pairwise_append.mpr ⟨h.spaced, List.pairwise_singleton _ _, fun s hs s' hs' => ?_⟩
        rw [List.mem_singleton.mp hs']
        obtain ⟨last, hlast, hle⟩ := h.le_last hs
        exact (Nat.add_le_add_right hle _).trans ((hplace last hlast).resolve_left (hne last hlast))
      case ends =>
        intro s hs
        rcases List.mem_append.mp hs with hs | hs
        · exact h.ends s hs
        · rw [List.mem_singleton.mp hs]
          exact ⟨Nat.lt_add_of_pos_right hday, le_rfl⟩
      case pays =>
        intro s hs
        rcases List.mem_append.mp hs with hs | hs
        · exact h.pays s hs
        · rw [List.mem_singleton.mp hs]
          exact hnonneg
      case last =>
        intro hbatched s hs
        dsimp only at hs ⊢
        rw [List.getLast?_concat] at hs
        cases hs
        rw [hstarted hbatched]
        rfl
      case interval => exact h.interval
    · simp only [Ledger.outstanding, Emission.outstanding_append, Emission.outstanding_cons,
        Emission.outstanding_nil, dayStream, Nat.cast_add, add_sub_cancel_left] at hpays ⊢
      linarith

/-- What appending a stream leaves as it was. -/
theorem Ledger.appendStream_frame {x : ℤ} {endsAt : ℕ} (h : l.appendStream x endsAt = .ok c) :
    ∃ streams rate, c = { l with streams, rate } := by
  rcases Ledger.appendStream_eq_ok h with ⟨init, last, -, -, hc⟩ | ⟨-, hc⟩
  · exact ⟨_, _, hc⟩
  · exact ⟨_, _, hc⟩

/-- **What is idle is made into a stream.** -/
theorem Ledger.Sound.appendStream {x : ℤ} (hx : 0 ≤ x) (hidle : 0 ≤ l.idle)
    (h : { l with idle := l.idle + x }.Sound) (hplace : l.Place)
    (hc : l.appendStream x (l.updatedAt + duration) = .ok c) {started : ℕ}
    (hstarted : l.batched → started = l.updatedAt) :
    { c with lastStreamStartedAt := started }.Sound := by
  have hemits : l.Emits :=
    ⟨h.emits.rate_eq, h.emits.spaced, h.emits.ends, h.emits.pays, h.emits.last, h.emits.interval⟩
  obtain ⟨hc_emits, houtstanding⟩ := hemits.append hx hplace hc hstarted
  obtain ⟨streams, rate, rfl⟩ := Ledger.appendStream_frame hc
  have hconserves : l.funded * precision
      = l.paid * precision + l.owed + l.indexRemainder + (l.idle + x) + l.outstanding := h.conserves
  have hbudget : l.index + l.indexRemainder + (l.idle + x) + l.outstanding ≤ l.funded * precision :=
    h.budget
  constructor
  case emits => exact hc_emits
  case books => exact ⟨h.books.supply_eq, h.books.accounts, h.books.zero_excluded⟩
  case conserves =>
    change l.funded * precision = l.paid * precision + l.owed + l.indexRemainder + l.idle
      + { l with streams, rate }.outstanding
    linarith
  case index_nonneg => exact h.index_nonneg
  case indexRemainder_nonneg => exact h.indexRemainder_nonneg
  case idle_nonneg => exact hidle
  case paid_nonneg => exact h.paid_nonneg
  case budget =>
    change l.index + l.indexRemainder + l.idle + { l with streams, rate }.outstanding
      ≤ l.funded * precision
    linarith
  case capped => exact h.capped

/-- A stream that a restart may start has its place. -/
theorem Ledger.Emits.place_of_restart (h : l.Emits)
    (hdue : ¬ (l.batched ∧ l.updatedAt < l.nextStreamStartAt ∧
      l.updatedAt ≠ l.lastStreamStartedAt)) : l.Place := by
  intro s hs
  have hlast : s ∈ l.streams := List.mem_of_getLast? hs
  by_cases hbatched : l.batched
  · have hend := h.last hbatched s hs
    have hinterval := h.interval hbatched
    have hnonempty : l.streams.length ≠ 0 := (List.length_pos_of_mem hlast).ne'
    rw [Ledger.nextStreamStartAt, if_neg fun hnone => hnonempty hnone.2] at hdue
    rcases eq_or_ne l.updatedAt l.lastStreamStartedAt with heq | hne
    · exact Or.inl (by rw [hend, heq])
    · have hle : l.lastStreamStartedAt + l.interval ≤ l.updatedAt :=
        Nat.le_of_not_lt fun hlt => hdue ⟨hbatched, hlt, hne⟩
      exact Or.inr (by omega)
  · have hend := (h.ends s hlast).2
    rw [Ledger.gap, if_neg hbatched]
    omega

/-- **A restart never fails**, and keeps the ledger sound. -/
theorem Ledger.Sound.restart (h : l.Sound) (hts : l.updatedAt = ts) :
    ∃ streams rate idle started,
      l.restart ts = .ok { l with streams, rate, idle, lastStreamStartedAt := started } ∧
      { l with streams, rate, idle, lastStreamStartedAt := started }.Sound := by
  subst hts
  unfold Ledger.restart
  split_ifs with hnothing hdue hfull
  · exact ⟨l.streams, l.rate, l.idle, l.lastStreamStartedAt, rfl, h⟩
  · exact ⟨l.streams, l.rate, l.idle, l.lastStreamStartedAt, rfl, h⟩
  · exact ⟨l.streams, l.rate, l.idle, l.lastStreamStartedAt, rfl, h⟩
  · have hplace := h.emits.place_of_restart hdue
    obtain ⟨c, hc⟩ := @Ledger.exists_appendStream { l with idle := 0 } l.idle
      (l.updatedAt + duration) fun hne => by
        change l.streams.length ≠ l.maxStreams
        by_cases hbatched : l.batched
        · exact h.emits.room hbatched fun s hs => (hplace s hs).resolve_left (hne s hs)
        · intro hlength
          rw [Ledger.maxStreams, if_neg hbatched] at hlength
          exact hfull ⟨hbatched, hlength⟩
    have hidle : ({ l with idle := 0 + l.idle } : Ledger).Sound := by
      rw [zero_add]
      exact h
    have hsound (started : ℕ) (hstarted : l.batched → started = l.updatedAt) :
        { c with lastStreamStartedAt := started }.Sound :=
      @Ledger.Sound.appendStream { l with idle := 0 } c l.idle h.idle_nonneg le_rfl hidle hplace hc
        started hstarted
    rw [hc, ok_bind]
    obtain ⟨streams, rate, rfl⟩ := Ledger.appendStream_frame hc
    by_cases hbatched : l.batched
    · exact ⟨streams, rate, 0, l.updatedAt, congrArg Except.ok (if_pos hbatched),
        hsound _ fun _ => rfl⟩
    · exact ⟨streams, rate, 0, l.lastStreamStartedAt, congrArg Except.ok (if_neg hbatched),
        hsound _ fun h => absurd h hbatched⟩

theorem Ledger.Sound.of_restart (h : l.Sound) (hts : l.updatedAt = ts)
    (hc : l.restart ts = .ok c) : c.Sound := by
  obtain ⟨streams, rate, idle, started, heq, hsound⟩ := h.restart hts
  rw [heq] at hc
  cases hc
  exact hsound

theorem Ledger.Sound.restart_failsOnly (h : l.Sound) (hts : l.updatedAt = ts) :
    FailsOnly (l.restart ts) (· = .input) := by
  obtain ⟨streams, rate, idle, started, heq, -⟩ := h.restart hts
  rw [heq]
  exact failsOnly_ok

/-! ### Funding -/

/-- What comes in is idle at first. -/
theorem Ledger.Sound.receive_idle (h : l.Sound) {n : ℤ} (hn : 0 ≤ n)
    (hcapped : ¬ BitLenExceeds (l.funded + n) 128) (ts : ℕ) :
    { l with lastFundingAt := ts, funded := l.funded + n, idle := l.idle + n * precision }.Sound := by
  have hconserves := h.conserves
  have hbudget := h.budget
  rw [Ledger.Conserves] at hconserves
  have hamount := mul_nonneg hn precision_pos.le
  constructor
  case emits =>
    exact ⟨h.emits.rate_eq, h.emits.spaced, h.emits.ends, h.emits.pays, h.emits.last,
      h.emits.interval⟩
  case books => exact ⟨h.books.supply_eq, h.books.accounts, h.books.zero_excluded⟩
  case conserves =>
    change (l.funded + n) * precision
      = l.paid * precision + l.owed + l.indexRemainder + (l.idle + n * precision) + l.outstanding
    linarith
  case index_nonneg => exact h.index_nonneg
  case indexRemainder_nonneg => exact h.indexRemainder_nonneg
  case idle_nonneg => exact add_nonneg h.idle_nonneg hamount
  case paid_nonneg => exact h.paid_nonneg
  case budget =>
    change l.index + l.indexRemainder + (l.idle + n * precision) + l.outstanding
      ≤ (l.funded + n) * precision
    linarith
  case capped =>
    rw [BitLenExceeds, not_le] at hcapped
    change l.funded + n < 2 ^ 128
    omega

/-- An amount that a text writes. -/
theorem integer_eq_ok {s : Decimal} {n : ℤ} :
    integer s = .ok n ↔ s = some n ∧ 0 ≤ n ∧ ¬ BitLenExceeds n 256 := by
  unfold integer
  simp only [bind_eq_ok, orRevert_eq_ok, revertIf_eq_ok, pure_eq_ok, Except.ok.injEq]
  constructor
  · rintro ⟨m, hs, -, hguard, rfl⟩
    rw [not_or, not_lt] at hguard
    exact ⟨hs, hguard⟩
  · rintro ⟨hs, hn, hbits⟩
    exact ⟨n, hs, (), not_or.mpr ⟨not_lt.mpr hn, hbits⟩, rfl⟩

/-- A stream of its own can end a day from now, when the ends keep no distance. -/
theorem Ledger.Emits.place_of_unbatched (h : l.Emits) (hbatched : ¬ l.batched) : l.Place := by
  intro s hs
  have hend := (h.ends s (List.mem_of_getLast? hs)).2
  rw [Ledger.gap, if_neg hbatched]
  omega

theorem Ledger.Sound.fund (h : l.Sound) {action : Action}
    (hc : l.fund action = .ok c) (hts : action.timestamp = l.updatedAt) : c.Sound := by
  unfold Ledger.fund at hc
  simp only [bind_eq_ok, revertIf_eq_ok] at hc
  obtain ⟨n, hn, -, -, -, hcapped, hc⟩ := hc
  obtain ⟨-, hn0, -⟩ := integer_eq_ok.mp hn
  have hidle := h.receive_idle hn0 hcapped action.timestamp
  unfold Ledger.receive at hc
  dsimp only at hc
  split_ifs at hc with hbatched
  · exact hidle.of_restart hts.symm hc
  · rw [hts] at hc
    exact @Ledger.Sound.appendStream
      { l with lastFundingAt := l.updatedAt, funded := l.funded + n } c (n * precision)
      (mul_nonneg hn0 precision_pos.le) h.idle_nonneg (hts ▸ hidle)
      (h.emits.place_of_unbatched hbatched) hc c.lastStreamStartedAt fun h => absurd h hbatched

/-! ### Movements between accounts -/

@[simp] theorem Ledger.account_setAccount_self (l : Ledger) (a : Address) (v : Account) :
    (l.setAccount a v).account a = v := by
  rw [Ledger.account, Ledger.setAccount, AList.lookup_insert, Option.getD_some]

theorem Ledger.account_setAccount_of_ne (l : Ledger) (v : Account) (h : b ≠ a) :
    (l.setAccount a v).account b = l.account b := by
  rw [Ledger.account, Ledger.setAccount, AList.lookup_insert_ne h]
  rfl

/-- An account is written, and what the accounts have earned changes by what it says. -/
theorem Ledger.owed_setAccount (l : Ledger) (a : Address) (v : Account) :
    (l.setAccount a v).owed = l.owed + l.share a v - l.share a (l.account a) := by
  have hnone : l.share a { balance := 0, index := 0, earned := 0 } = 0 := by
    simp [Ledger.share]
  change Table.total l.share (l.accounts.insert a v) = _
  rw [Table.total_insert, Table.elim_getD _ _ _ _ hnone]
  rfl

theorem Ledger.eligible_setAccount (l : Ledger) (a : Address) (v : Account) :
    (l.setAccount a v).eligible = l.eligible + l.weight a v - l.weight a (l.account a) := by
  have hnone : l.weight a { balance := 0, index := 0, earned := 0 } = 0 := by
    simp [Ledger.weight]
  change Table.total l.weight (l.accounts.insert a v) = _
  rw [Table.total_insert, Table.elim_getD _ _ _ _ hnone]
  rfl

/-- The accounts of a sound ledger may be rewritten, if what they have earned only changes by
what is paid. -/
theorem Ledger.Sound.rewrite (h : l.Sound) {accounts : Table Address Account} {supply paid : ℤ}
    (hbooks : { l with accounts, supply }.Books) (hpaid : 0 ≤ paid)
    (howed : paid * precision + { l with accounts }.owed = l.paid * precision + l.owed) :
    { l with accounts, supply, paid }.Sound := by
  have hconserves := h.conserves
  rw [Ledger.Conserves] at hconserves
  constructor
  case emits =>
    exact ⟨h.emits.rate_eq, h.emits.spaced, h.emits.ends, h.emits.pays, h.emits.last,
      h.emits.interval⟩
  case books => exact ⟨hbooks.supply_eq, hbooks.accounts, hbooks.zero_excluded⟩
  case conserves =>
    change l.funded * precision = paid * precision + { l with accounts }.owed
      + l.indexRemainder + l.idle + l.outstanding
    linarith
  case index_nonneg => exact h.index_nonneg
  case indexRemainder_nonneg => exact h.indexRemainder_nonneg
  case idle_nonneg => exact h.idle_nonneg
  case paid_nonneg => exact hpaid
  case budget => exact h.budget
  case capped => exact h.capped

/-- One account of orderly books is written, and its balance is kept. -/
theorem Ledger.Books.setAccount (h : l.Books) (hv : AccountOk l.excluded l.index a v)
    (hbalance : v.balance = (l.account a).balance) : (l.setAccount a v).Books := by
  constructor
  case supply_eq =>
    have hweight : l.weight a v = l.weight a (l.account a) := by
      rw [Ledger.weight, Ledger.weight, hbalance]
    rw [Ledger.eligible_setAccount, hweight, add_sub_cancel_right]
    exact h.supply_eq
  case accounts =>
    intro b
    rcases eq_or_ne b a with rfl | hne
    · rw [Ledger.account_setAccount_self]
      exact hv
    · rw [Ledger.account_setAccount_of_ne l v hne]
      exact h.accounts b
  case zero_excluded => exact h.zero_excluded

/-- **An account is accrued**: what it has earned is not changed by writing it down. -/
theorem Ledger.Sound.accrue (h : l.Sound) (a : Address) : (l.accrue a).Sound := by
  unfold Ledger.accrue
  split_ifs with hexcluded
  · exact h
  · have hok := h.books.accounts a
    have hgrown : 0 ≤ (l.account a).balance * (l.index - (l.account a).index) :=
      mul_nonneg hok.balance_nonneg (sub_nonneg.mpr hok.index_le)
    refine h.rewrite (h.books.setAccount ⟨hok.balance_nonneg,
      add_nonneg hok.earned_nonneg hgrown, h.index_nonneg, le_rfl,
      fun h => absurd h hexcluded⟩ rfl) h.paid_nonneg ?_
    have howed := l.owed_setAccount a
      { l.account a with
        earned := (l.account a).earned + (l.account a).balance * (l.index - (l.account a).index),
        index := l.index }
    rw [Ledger.share, Ledger.share, if_neg hexcluded, if_neg hexcluded, sub_self, mul_zero,
      add_zero, add_sub_cancel_right] at howed
    exact congrArg (l.paid * precision + ·) howed

/-- What accruing an account leaves as it was. -/
theorem Ledger.accrue_frame (l : Ledger) (a : Address) :
    ∃ accounts, l.accrue a = { l with accounts } ∧
      ∀ b, (l.accrue a).account b = if a ∉ l.excluded ∧ b = a then
        { l.account a with
          earned := (l.account a).earned + (l.account a).balance * (l.index - (l.account a).index),
          index := l.index } else l.account b := by
  unfold Ledger.accrue
  split_ifs with hexcluded
  · exact ⟨l.accounts, rfl, fun b => (if_neg fun h => h.1 hexcluded).symm⟩
  · refine ⟨_, rfl, fun b => ?_⟩
    rcases eq_or_ne b a with rfl | hne
    · rw [Ledger.account_setAccount_self, if_pos ⟨hexcluded, rfl⟩]
    · rw [Ledger.account_setAccount_of_ne _ _ hne, if_neg fun h => hne h.2]

/-- An account that has been accrued, or never is. -/
def Ledger.Settled (l : Ledger) (a : Address) : Prop :=
  a ∈ l.excluded ∨ (l.account a).index = l.index

theorem Ledger.settled_accrue (l : Ledger) (a : Address) : (l.accrue a).Settled a := by
  obtain ⟨accounts, heq, haccount⟩ := l.accrue_frame a
  rcases Classical.em (a ∈ l.excluded) with hexcluded | hexcluded
  · exact Or.inl (by rw [heq]; exact hexcluded)
  · refine Or.inr ?_
    rw [haccount, if_pos ⟨hexcluded, rfl⟩, heq]

theorem Ledger.Settled.accrue (h : l.Settled a) (b : Address) : (l.accrue b).Settled a := by
  obtain ⟨accounts, heq, haccount⟩ := l.accrue_frame b
  rcases h with hexcluded | hindex
  · exact Or.inl (by rw [heq]; exact hexcluded)
  · refine Or.inr ?_
    rw [haccount, heq]
    split_ifs
    · rfl
    · exact hindex

/-- **The balance of a settled account is changed**: nothing that was earned changes with it. -/
theorem Ledger.setBalance (hok : ∀ b, AccountOk l.excluded l.index b (l.account b))
    (hsettled : l.Settled a) {balance : ℤ} (hbalance : 0 ≤ balance)
    (hc : c = l.setAccount a { l.account a with balance }) :
    c.owed = l.owed ∧
      c.eligible = l.eligible + (if a ∈ l.excluded then 0 else balance - (l.account a).balance) ∧
      ∀ b, AccountOk l.excluded l.index b (c.account b) := by
  subst hc
  refine ⟨?_, ?_, fun b => ?_⟩
  · rw [Ledger.owed_setAccount, add_sub_assoc, add_eq_left, sub_eq_zero, Ledger.share, Ledger.share]
    split_ifs with hexcluded
    · rfl
    · rw [hsettled.resolve_left hexcluded, sub_self, mul_zero, mul_zero]
  · rw [Ledger.eligible_setAccount, Ledger.weight, Ledger.weight]
    split_ifs
    · ring
    · ring
  · rcases eq_or_ne b a with rfl | hne
    · rw [Ledger.account_setAccount_self]
      have hb := hok b
      exact ⟨hbalance, hb.earned_nonneg, hb.index_nonneg, hb.index_le, hb.excluded⟩
    · rw [Ledger.account_setAccount_of_ne _ _ hne]
      exact hok b

/-- What is taken from a settled account. -/
theorem Ledger.debit_eq_ok {n : ℤ} (hok : ∀ b, AccountOk l.excluded l.index b (l.account b))
    (hzero : 0 ∈ l.excluded) (ha : l.Settled a) (h : l.debit a n = .ok c) :
    (∃ accounts, c = { l with accounts }) ∧ c.owed = l.owed ∧
      c.eligible = l.eligible - (if a ∈ l.excluded then 0 else n) ∧
      (∀ b, AccountOk l.excluded l.index b (c.account b)) ∧
      ∀ b, b ≠ a → c.account b = l.account b := by
  unfold Ledger.debit at h
  split_ifs at h with h0
  · cases h
    rw [h0, if_pos hzero, sub_zero]
    exact ⟨⟨l.accounts, rfl⟩, rfl, rfl, hok, fun _ _ => rfl⟩
  · simp only [bind_eq_ok, revertIf_eq_ok, pure_eq_ok, Except.ok.injEq, not_lt] at h
    obtain ⟨-, hcovered, hc⟩ := h
    obtain ⟨howed, heligible, hcok⟩ := Ledger.setBalance hok ha (sub_nonneg.mpr hcovered) hc.symm
    refine ⟨⟨_, hc.symm⟩, howed, ?_, hcok, fun b hne => ?_⟩
    · rw [heligible]
      split_ifs
      · rw [add_zero, sub_zero]
      · ring
    · rw [← hc, Ledger.account_setAccount_of_ne _ _ hne]

/-- What is given to a settled account. -/
theorem Ledger.credit_eq {n : ℤ} (hn : 0 ≤ n)
    (hok : ∀ b, AccountOk l.excluded l.index b (l.account b)) (hzero : 0 ∈ l.excluded)
    (ha : l.Settled a) :
    (∃ accounts, l.credit a n = { l with accounts }) ∧ (l.credit a n).owed = l.owed ∧
      (l.credit a n).eligible = l.eligible + (if a ∈ l.excluded then 0 else n) ∧
      ∀ b, AccountOk l.excluded l.index b ((l.credit a n).account b) := by
  unfold Ledger.credit
  split_ifs with h0 hexcluded hexcluded
  · exact ⟨⟨l.accounts, rfl⟩, rfl, (add_zero _).symm, hok⟩
  · exact absurd (h0 ▸ hzero) hexcluded
  all_goals
    obtain ⟨howed, heligible, hcok⟩ := Ledger.setBalance hok ha
      (add_nonneg (hok a).balance_nonneg hn) rfl
    refine ⟨⟨_, rfl⟩, howed, heligible.trans ?_, hcok⟩
  · rw [if_pos hexcluded]
  · rw [if_neg hexcluded, add_sub_cancel_left]

/-- **Tokens move between two settled accounts.** -/
theorem Ledger.Sound.moved {n : ℤ} (h : l.Sound) (hn : 0 ≤ n) (hne : a ≠ b) (ha : l.Settled a)
    (hb : l.Settled b) (hc : l.debit a n = .ok c) : ((c.credit b n).moveSupply a b n).Sound := by
  obtain ⟨⟨accounts, rfl⟩, howed, heligible, hok, hother⟩ :=
    Ledger.debit_eq_ok h.books.accounts h.books.zero_excluded ha hc
  have hsettled : { l with accounts }.Settled b := hb.imp id fun hindex => by
    rw [hother b hne.symm]
    exact hindex
  obtain ⟨⟨accounts', hcredit⟩, howed', heligible', hok'⟩ :=
    @Ledger.credit_eq { l with accounts } b n hn hok h.books.zero_excluded hsettled
  rw [hcredit] at howed' heligible' hok' ⊢
  refine h.rewrite ⟨?_, hok', h.books.zero_excluded⟩ h.paid_nonneg
    (congrArg (_ + ·) (howed'.trans howed))
  rw [heligible, ← h.books.supply_eq] at heligible'
  exact heligible'.symm

/-- **A transfer keeps the ledger sound** up to its restart. -/
theorem Ledger.Sound.move (h : l.Sound) {n : ℤ} (hn : 0 ≤ n) (hc : l.move a b n = .ok c) :
    c.Sound ∧ c.updatedAt = l.updatedAt := by
  unfold Ledger.move at hc
  obtain ⟨accounts, ha, -⟩ := l.accrue_frame a
  split_ifs at hc with heq
  · have haccrued := h.accrue a
    have hupdated : (l.accrue a).updatedAt = l.updatedAt := by rw [ha]
    unfold Ledger.selfTransfer at hc
    split_ifs at hc with h0
    · cases hc
      exact ⟨haccrued, hupdated⟩
    · simp only [bind_eq_ok, revertIf_eq_ok, pure_eq_ok, Except.ok.injEq] at hc
      obtain ⟨-, -, rfl⟩ := hc
      refine ⟨haccrued.rewrite (haccrued.books.setAccount (haccrued.books.accounts a) rfl)
        haccrued.paid_nonneg ?_, hupdated⟩
      have howed := (l.accrue a).owed_setAccount a ((l.accrue a).account a)
      rw [add_sub_cancel_right] at howed
      exact congrArg ((l.accrue a).paid * precision + ·) howed
  · rw [bind_eq_ok] at hc
    obtain ⟨d, hd, hc⟩ := hc
    rw [pure_eq_ok, Except.ok.injEq] at hc
    have haccrued := (h.accrue a).accrue b
    obtain ⟨accounts', hb, -⟩ := (l.accrue a).accrue_frame b
    have hupdated : ((l.accrue a).accrue b).updatedAt = l.updatedAt := by rw [hb, ha]
    have hsettled := (l.settled_accrue a).accrue b
    have hmoved := haccrued.moved hn heq hsettled (Ledger.settled_accrue _ b) hd
    obtain ⟨⟨_, hdframe⟩, -⟩ := Ledger.debit_eq_ok haccrued.books.accounts
      haccrued.books.zero_excluded hsettled hd
    have hframe : ((d.credit b n).moveSupply a b n).updatedAt = d.updatedAt := by
      unfold Ledger.credit
      split_ifs <;> rfl
    rw [← hc]
    exact ⟨hmoved, by rw [hframe, hdframe, hupdated]⟩

/-- **A claim keeps the ledger sound**: what is paid is taken off what was earned. -/
theorem Ledger.Sound.pay (h : l.Sound) {n : ℤ} (hc : l.pay a n = .ok c) : c.Sound := by
  unfold Ledger.pay at hc
  simp only [bind_eq_ok, revertIf_eq_ok, pure_eq_ok, Except.ok.injEq, not_not] at hc
  obtain ⟨-, hn, rfl⟩ := hc
  have hok := h.books.accounts a
  have hdivision : precision * n + (l.account a).earned.tmod precision = (l.account a).earned :=
    hn ▸ Int.mul_tdiv_add_tmod _ _
  have hn0 : 0 ≤ n := hn ▸ Int.tdiv_nonneg hok.earned_nonneg precision_pos.le
  have hrest : 0 ≤ (l.account a).earned.tmod precision := Int.tmod_nonneg _ hok.earned_nonneg
  have hleft : 0 ≤ (l.account a).earned - n * precision := by linarith
  have hzero : a ∈ l.excluded → n = 0 := fun hexcluded => by
    rw [← hn, hok.excluded hexcluded, Int.zero_tdiv]
  have hrefused : a ∈ l.excluded → (l.account a).earned - n * precision = 0 := fun hexcluded => by
    rw [hok.excluded hexcluded, hzero hexcluded, zero_mul, sub_zero]
  refine h.rewrite (h.books.setAccount ⟨hok.balance_nonneg, hleft, hok.index_nonneg, hok.index_le,
    hrefused⟩ rfl) (add_nonneg h.paid_nonneg hn0) ?_
  have howed := l.owed_setAccount a
    { l.account a with earned := (l.account a).earned - n * precision }
  rw [Ledger.share, Ledger.share] at howed
  change (l.paid + n) * precision + (l.setAccount a _).owed = l.paid * precision + l.owed
  rw [howed]
  split_ifs with hexcluded
  · rw [hzero hexcluded]
    ring
  · ring

/-! ### Calls -/

/-- What a checkpoint leaves as it was. -/
theorem Ledger.Sound.checkpoint_frame (h : l.Sound) (hts : l.updatedAt ≤ ts) :
    ∃ head index indexRemainder rate idle streams, l.checkpoint ts
      = { l with updatedAt := ts, head, index, indexRemainder, rate, idle, streams } := by
  obtain ⟨head, heq⟩ := h.emits.checkpoint_eq hts
  rw [heq, Ledger.distribute]
  split_ifs
  · exact ⟨_, _, _, _, _, _, rfl⟩
  · exact ⟨_, _, _, _, _, _, rfl⟩

/-- An interval that may be set is not shorter than the distance of the streams. -/
theorem Ledger.Sound.setFundingInterval (h : l.Sound) {action : Action}
    (hc : l.setFundingInterval action = .ok c) : c.Sound := by
  unfold Ledger.setFundingInterval at hc
  simp only [bind_eq_ok, revertIf_eq_ok, pure_eq_ok, Except.ok.injEq] at hc
  obtain ⟨-, hguard, rfl⟩ := hc
  simp only [not_or, not_not, not_lt] at hguard
  obtain ⟨hbatched, hconfigurable, hmin, -⟩ := hguard
  have hinterval : l.gap ≤ ({ l with fundingInterval := action.interval } : Ledger).interval := by
    rw [Ledger.gap, if_pos hbatched, if_pos hconfigurable, Ledger.interval]
    split_ifs with h0
    · exact (by decide : minFundingInterval ≤ HolderLedger.fundingInterval)
    · exact hmin
  exact ⟨⟨h.emits.rate_eq, h.emits.spaced, h.emits.ends, h.emits.pays, h.emits.last,
    fun _ => hinterval⟩, ⟨h.books.supply_eq, h.books.accounts, h.books.zero_excluded⟩, h.conserves,
    h.index_nonneg, h.indexRemainder_nonneg, h.idle_nonneg, h.paid_nonneg, h.budget, h.capped⟩

/-- **Every call keeps the ledger sound.** -/
theorem Ledger.Sound.perform (h : l.Sound) {action : Action}
    (hts : l.updatedAt ≤ action.timestamp) (hc : l.perform action = .ok c) : c.Sound := by
  have hcheckpoint := h.checkpoint hts
  obtain ⟨head, index, indexRemainder, rate, idle, streams, hframe⟩ := h.checkpoint_frame hts
  have hupdated : (l.checkpoint action.timestamp).updatedAt = action.timestamp := by rw [hframe]
  unfold Ledger.perform at hc
  cases hkind : action.kind with
  | setFundingInterval =>
    rw [hkind] at hc
    exact h.setFundingInterval hc
  | fund =>
    rw [hkind] at hc
    exact hcheckpoint.fund hc hupdated.symm
  | checkpoint =>
    rw [hkind] at hc
    exact hcheckpoint.of_restart hupdated hc
  | transfer =>
    rw [hkind] at hc
    simp only [Ledger.transfer, bind_eq_ok] at hc
    obtain ⟨fromAccount, -, toAccount, -, n, hn, d, hd, hc⟩ := hc
    obtain ⟨hsound, hkept⟩ := hcheckpoint.move (integer_eq_ok.mp hn).2.1 hd
    exact hsound.of_restart (hkept.trans hupdated) hc
  | claim =>
    rw [hkind] at hc
    simp only [Ledger.claim, bind_eq_ok] at hc
    obtain ⟨account, -, -, -, n, -, d, hd, hc⟩ := hc
    obtain ⟨accounts, haccrue, -⟩ := (l.checkpoint action.timestamp).accrue_frame account
    have hsound := (hcheckpoint.accrue account).of_restart (by rw [haccrue]; exact hupdated) hd
    exact hsound.pay hc
  | other =>
    rw [hkind] at hc
    cases hc

/-! ### Slots -/

theorem failsOnly_integer (s : Decimal) : FailsOnly (integer s) (· = .input) := by
  simp [integer]

/-- **No call of a batched ledger fails for want of a slot.** -/
theorem Ledger.Sound.perform_failsOnly (h : l.Sound) (hbatched : l.batched) {action : Action}
    (hts : l.updatedAt ≤ action.timestamp) : FailsOnly (l.perform action) (· = .input) := by
  have hcheckpoint := h.checkpoint hts
  obtain ⟨head, index, indexRemainder, rate, idle, streams, hframe⟩ := h.checkpoint_frame hts
  have hupdated : (l.checkpoint action.timestamp).updatedAt = action.timestamp := by rw [hframe]
  unfold Ledger.perform
  cases action.kind with
  | setFundingInterval => simp [Ledger.setFundingInterval]
  | fund =>
    unfold Ledger.fund
    rw [failsOnly_bind]
    refine ⟨failsOnly_integer _, fun n hn => ?_⟩
    rw [failsOnly_bind, failsOnly_bind]
    refine ⟨failsOnly_revertIf.mpr fun _ => rfl, fun _ _ => ⟨failsOnly_revertIf.mpr fun _ => rfl,
      fun _ hcapped => ?_⟩⟩
    have hidle := hcheckpoint.receive_idle (integer_eq_ok.mp hn).2.1 (revertIf_eq_ok.mp hcapped)
      action.timestamp
    have hbatched' : (l.checkpoint action.timestamp).batched = true := by
      rw [hframe]
      exact hbatched
    unfold Ledger.receive
    rw [if_pos hbatched']
    exact hidle.restart_failsOnly hupdated
  | checkpoint => exact hcheckpoint.restart_failsOnly hupdated
  | transfer =>
    unfold Ledger.transfer
    rw [failsOnly_bind]
    refine ⟨failsOnly_orRevert.mpr fun _ => rfl, fun fromAccount _ => ?_⟩
    rw [failsOnly_bind]
    refine ⟨failsOnly_orRevert.mpr fun _ => rfl, fun toAccount _ => ?_⟩
    rw [failsOnly_bind]
    refine ⟨failsOnly_integer _, fun n hn => ?_⟩
    rw [failsOnly_bind]
    refine ⟨?_, fun d hd => ?_⟩
    · simp only [Ledger.move, Ledger.selfTransfer, Ledger.debit, failsOnly_ite, failsOnly_bind,
        failsOnly_revertIf, pure_eq_ok, failsOnly_ok, implies_true, and_self]
    · obtain ⟨hsound, hkept⟩ := hcheckpoint.move (integer_eq_ok.mp hn).2.1 hd
      exact hsound.restart_failsOnly (hkept.trans hupdated)
  | claim =>
    unfold Ledger.claim
    rw [failsOnly_bind]
    refine ⟨failsOnly_orRevert.mpr fun _ => rfl, fun account _ => ?_⟩
    rw [failsOnly_bind, failsOnly_bind]
    refine ⟨failsOnly_revertIf.mpr fun _ => rfl, fun _ _ => ⟨failsOnly_integer _, fun n _ => ?_⟩⟩
    obtain ⟨accounts, haccrue, -⟩ := (l.checkpoint action.timestamp).accrue_frame account
    rw [failsOnly_bind]
    refine ⟨(hcheckpoint.accrue account).restart_failsOnly (by rw [haccrue]; exact hupdated),
      fun d _ => ?_⟩
    simp only [Ledger.pay, failsOnly_bind, failsOnly_revertIf, pure_eq_ok, failsOnly_ok,
      implies_true, and_self]
  | other => simp

end HolderLedger

end Backend

end TickerGarden
