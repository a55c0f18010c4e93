import TickerGarden.Backend.SnapshotLedger

/-!
# The paged replay is the replay of the whole history

A work in its replay phase stands for what is left to do: replaying the logs beyond its cursor,
from its balances, is replaying the whole history (`Replaying`). A page does the first part of
it. It works on a local copy of the balances it needs, and the table under that copy is what
the whole replay would have (`Overlay`). A work in its copy phase stands for the rows of the base
beyond its cursor, and the base, by what has been shown of *its* replay, for the history up to
its block (`Copying`).

So the result does not depend on where the pages begin and end, nor on the base
(`incremental_eq_full_replay`).
-/

namespace TickerGarden

open Checked

namespace Backend

namespace SnapshotLedger

variable {history : History} {o : Snapshot} {call : Call} {w w' : Work}

/-! ### One transfer -/

/-- A local copy `m` of some balances over a table `t`, and the balances `s` they amount to. -/
structure Overlay (t : Address → Option ℕ) (known : List Address) (m s : Replay) : Prop where
  minted : m.minted = s.minted
  balances : ∀ a, s.balances.lookup a = (m.balances.lookup a).or (t a)
  known : ∀ a ∈ known, m.balances.lookup a = none → t a = none

variable {t : Address → Option ℕ} {known : List Address} {m s : Replay} {e : Transfer}

/-- A known balance is read off the copy. -/
theorem Overlay.lookup (h : Overlay t known m s) {a : Address} (ha : a ∈ known) :
    m.balances.lookup a = s.balances.lookup a := by
  rw [h.balances]
  cases hm : m.balances.lookup a with
  | none => exact (h.known a ha hm).symm
  | some b => rfl

/-- A balance is written to both. -/
theorem Overlay.insert (h : Overlay t known m s) (a : Address) (b : ℕ) :
    Overlay t known { m with balances := m.balances.insert a b }
      { s with balances := s.balances.insert a b } where
  minted := h.minted
  balances := by
    intro c
    rcases eq_or_ne c a with rfl | hne
    · rw [AList.lookup_insert, AList.lookup_insert]
      rfl
    · rw [AList.lookup_insert_ne hne, AList.lookup_insert_ne hne]
      exact h.balances c
  known := by
    intro c hc hnone
    rcases eq_or_ne c a with rfl | hne
    · rw [AList.lookup_insert] at hnone
      exact absurd hnone (Option.some_ne_none b)
    · rw [AList.lookup_insert_ne hne] at hnone
      exact h.known c hc hnone

/-- A transfer does the same to both, and is refused by both alike. -/
theorem Overlay.replayTransfer (h : Overlay t known m s)
    (hsender : e.sender ≠ 0 → e.sender ∈ known) (hrecipient : e.recipient ≠ 0 → e.recipient ∈ known) :
    Reducer.Agree (Overlay t known) (replayTransfer m e) (replayTransfer s e) := by
  have hdebit : Reducer.Agree (Overlay t known) (debit m e) (debit s e) := by
    rw [debit, debit]
    split_ifs with hzero
    · rw [h.minted]
      cases s.minted with
      | true => exact rfl
      | false => exact ⟨rfl, h.balances, h.known⟩
    · rw [h.lookup (hsender hzero)]
      by_cases hless : (s.balances.lookup e.sender).getD 0 < e.value
      · simp only [throwIf, revertIf, if_pos hless]
        exact rfl
      · simp only [throwIf, revertIf, if_neg hless]
        exact h.insert e.sender _
  refine hdebit.bind fun m' s' h' => ?_
  show Overlay t known (credit m' e) (credit s' e)
  rw [credit, credit]
  split_ifs with hzero
  · exact h'
  · rw [h'.lookup (hrecipient hzero)]
    exact h'.insert e.recipient _

theorem mem_accounts {events : List Transfer} {a : Address} :
    a ∈ accounts events ↔ (∃ e ∈ events, a = e.sender ∨ a = e.recipient) ∧ a ≠ 0 := by
  simp [accounts]

/-- A page is replayed on the balances of its accounts as it would be on all of them. -/
theorem Overlay.replay {events : List Transfer} (h : Overlay t (accounts events) m s) :
    Reducer.Agree (Overlay t (accounts events)) (events.foldlM SnapshotLedger.replayTransfer m)
      (events.foldlM SnapshotLedger.replayTransfer s) := by
  refine Reducer.Agree.foldlM ?_ h
  intro e he m s h
  exact h.replayTransfer (fun hne => mem_accounts.mpr ⟨⟨e, he, Or.inl rfl⟩, hne⟩)
    (fun hne => mem_accounts.mpr ⟨⟨e, he, Or.inr rfl⟩, hne⟩)

/-! ### What a work stands for -/

/-- The balances and the flag of a work are those of a replay. -/
structure SameLedger (w : Work) (s : Replay) : Prop where
  minted : w.minted = s.minted
  balances : ∀ a, (w.balances.lookup a).map BalanceRow.balance = s.balances.lookup a

/-- The replayed ledgers have the same sum of balances. -/
theorem SameLedger.total (h : SameLedger w s) :
    w.balances.total (fun _ r => r.balance) = s.balances.total fun _ (b : ℕ) => (b : ℤ) := by
  have hmap := Table.total_map (fun _ (b : ℕ) => (b : ℤ)) (fun _ (r : BalanceRow) => r.balance)
    w.balances
  rw [← hmap]
  refine Table.total_congr _ fun a => ?_
  rw [Table.lookup_map]
  exact h.balances a

/-- What the history still has to say to a work in its replay phase. -/
def Replaying (history : History) (o : Snapshot) (w : Work) : Prop :=
  ∃ s, SameLedger w s ∧
    (transfers (Paging.rest TokenLog.position w.after (history.upTo o.snapshotBlock))).foldlM
      replayTransfer s = fullReplay history o.snapshotBlock

/-- A work whose replay is over has the ledger of the whole history. -/
def Replayed (history : History) (o : Snapshot) (w : Work) : Prop :=
  ∃ s, SameLedger w s ∧ fullReplay history o.snapshotBlock = .ok s

/-- A base is what the history up to its block makes of it. -/
structure BaseSound (history : History) (o : Snapshot) (base : Base) : Prop where
  before : base.blockNumber < o.snapshotBlock
  replayed : ∃ s, s.minted = true ∧ fullReplay history base.blockNumber = .ok s ∧
    ∀ a, (base.balances.lookup a).map BalanceRow.balance = s.balances.lookup a

/-- What a work in its copy phase still has to copy makes it the base. -/
structure Copying (history : History) (o : Snapshot) (base : Base) (w : Work) : Prop where
  minted : w.minted = true
  after : w.after = position base.blockNumber maxBigint maxBigint
  copied : ∃ t, (Paging.rest (fun r => accountKey r.1) w.copyCursor (copiedRows base)).foldlM
    (Table.insertNew (⟨"duplicate key value violates unique constraint"⟩ : JsError)) w.balances
      = .ok t ∧ ∀ a, (t.lookup a).map BalanceRow.balance
        = (base.balances.lookup a).map BalanceRow.balance

/-- **The invariant of a work**, phase by phase. -/
def Sound (history : History) (o : Snapshot) (w : Work) : Prop :=
  match w.phase with
  | .copy => ∃ base, o.base = some base ∧ Copying history o base w
  | .replay => Replaying history o w
  | .verify => Replayed history o w
  | _ => Replayed history o w ∧ w.minted = true

/-! ### A page of the replay -/

theorem transfers_append (xs ys : List TokenLog) :
    transfers (xs ++ ys) = transfers xs ++ transfers ys :=
  List.filterMap_append

/-- The logs of a history all decode, so a page of them does. -/
theorem decodeLogs_eq_ok {logs : List TokenLog} (h : ∀ l ∈ logs, l.event ≠ none) :
    decodeLogs logs = .ok (transfers logs) := by
  have hmap : logs.mapM decodeLog = .ok (logs.filterMap TokenLog.event) := by
    induction logs with
    | nil => rfl
    | cons l logs ih =>
      obtain ⟨e, he⟩ := Option.ne_none_iff_exists'.mp (h l List.mem_cons_self)
      rw [List.mapM_cons, ih fun x hx => h x (List.mem_cons_of_mem l hx),
        List.filterMap_cons_some he, decodeLog, he]
      rfl
  rw [decodeLogs, hmap, transfers, ← List.filterMap_filterMap]
  rfl

theorem History.upTo_listed (history : History) (block : ℕ) :
    Paging.Listed TokenLog.position (history.upTo block) :=
  history.listed.filter _

theorem History.upTo_decoded (history : History) (block : ℕ) :
    ∀ l ∈ history.upTo block, l.event ≠ none :=
  fun l hl => history.decoded l (List.mem_of_mem_filter hl)

/-- What a page of the replay leaves, by its transfers. -/
theorem replayPage_agree (h : SameLedger w s) :
    Reducer.Agree
      (fun w' s' => SameLedger w' s' ∧
        w'.after = Paging.next TokenLog.position w.after
          (Paging.page TokenLog.position call.pageSize w.after (history.upTo o.snapshotBlock)) ∧
        w'.phase = if (Paging.page TokenLog.position call.pageSize w.after
          (history.upTo o.snapshotBlock)).length < call.pageSize then .verify else .replay)
      (replayPage history o call w)
      ((transfers (Paging.page TokenLog.position call.pageSize w.after
        (history.upTo o.snapshotBlock))).foldlM replayTransfer s) := by
  have hdecoded := decodeLogs_eq_ok fun l (hl : l ∈ Paging.page TokenLog.position call.pageSize
    w.after (history.upTo o.snapshotBlock)) =>
      history.upTo_decoded _ l (Paging.mem_rest.mp (List.mem_of_mem_take hl)).1
  rw [replayPage]
  generalize Paging.page TokenLog.position call.pageSize w.after (history.upTo o.snapshotBlock)
    = logs at hdecoded ⊢
  have hoverlay : Overlay (fun a => (w.balances.lookup a).map BalanceRow.balance)
      (accounts (transfers logs))
      ⟨w.minted, (w.balances.restrict (· ∈ accounts (transfers logs))).map fun _ r => r.balance⟩
      s := by
    refine ⟨h.minted, fun a => ?_, fun a ha hnone => ?_⟩
    · rw [← h.balances, Table.lookup_map, Table.lookup_restrict]
      split_ifs
      · exact Option.or_self.symm
      · rfl
    · rwa [Table.lookup_map, Table.lookup_restrict, if_pos ha] at hnone
  rw [hdecoded]
  -- what the local copy has become is written over the table
  refine hoverlay.replay.map_left fun m' s' h' => ⟨⟨h'.minted, fun a => ?_⟩, rfl, rfl⟩
  show ((m'.balances.map _ ∪ w.balances).lookup a).map BalanceRow.balance = s'.balances.lookup a
  rw [h'.balances, Table.lookup_union, Table.lookup_map, Option.map_or, Option.map_map]
  exact congrArg (Option.or · _) (Option.map_id ▸ rfl)

/-- **A page of the replay**: it fails only as the whole replay does, and leaves a work that
stands for the rest. -/
theorem Replaying.page (h : Replaying history o w) :
    (∀ e, replayPage history o call w = .error e → fullReplay history o.snapshotBlock = .error e) ∧
      ∀ w', replayPage history o call w = .ok w' → Sound history o w' := by
  obtain ⟨s, hsame, hfull⟩ := h
  have hlisted := history.upTo_listed o.snapshotBlock
  have hagree := @replayPage_agree history o call w s hsame
  rw [← List.take_append_drop call.pageSize (Paging.rest _ _ _), transfers_append,
    List.foldlM_append] at hfull
  constructor
  · intro e he
    rw [← hfull, ← Paging.page_eq_take, hagree.error_left he]
    rfl
  · intro w' hw'
    obtain ⟨s', hs', hsame', hafter, hphase⟩ := hagree.ok_left hw'
    rw [← Paging.page_eq_take, hs'] at hfull
    rw [Sound, hphase]
    split_ifs with hshort
    · -- the page was the last, and nothing is left
      rw [← Paging.rest_next hlisted, Paging.rest_next_eq_nil hlisted hshort] at hfull
      exact ⟨s', hsame', hfull.symm⟩
    · refine ⟨s', hsame', ?_⟩
      rw [hafter, Paging.rest_next hlisted]
      exact hfull

/-! ### The history up to a base -/

/-- The cursor a base leaves is behind its logs, and before all others. -/
theorem position_le_iff (l : TokenLog) (block : ℕ) :
    l.position ≤ position block maxBigint maxBigint ↔ l.log.blockNumber ≤ block := by
  have htx : (l.log.transactionIndex : ℤ) < maxBigint := by
    have := l.log.transactionIndex_le
    rw [maxSafeInteger] at this
    rw [maxBigint]
    omega
  have hlater : toLex ((l.log.transactionIndex : ℤ), (l.log.logIndex : ℤ))
      ≤ toLex (maxBigint, maxBigint) :=
    Prod.Lex.toLex_le_toLex.mpr (Or.inl htx)
  rw [TokenLog.position, position, position, Prod.Lex.toLex_le_toLex, and_iff_left hlater]
  dsimp only
  omega

/-- The history is the one of a base, and the logs after it. -/
theorem fullReplay_split {block block' : ℕ} (h : block ≤ block') :
    fullReplay history block' = fullReplay history block >>= fun s =>
      (transfers (Paging.rest TokenLog.position (position block maxBigint maxBigint)
        (history.upTo block'))).foldlM replayTransfer s := by
  have hupTo : (history.upTo block').filter
      (fun l => decide (l.position ≤ position block maxBigint maxBigint)) = history.upTo block := by
    rw [History.upTo, History.upTo, List.filter_filter]
    refine List.filter_congr fun l _ => ?_
    simp only [position_le_iff, ← Bool.decide_and, decide_eq_decide]
    omega
  have hsplit := (history.upTo_listed block').filter_append_rest (position block maxBigint maxBigint)
  rw [hupTo] at hsplit
  rw [fullReplay]
  conv_lhs => rw [← hsplit, transfers_append, List.foldlM_append]
  rfl

/-! ### A page of the copy -/

theorem listed_copiedRows (base : Base) :
    Paging.Listed (fun r => accountKey r.1) (copiedRows base) := by
  rw [copiedRows, Paging.Listed, List.pairwise_map]
  refine (Table.listed_rows (fun a b => BitVec.eq_of_toNat_eq) base.balances).imp ?_
  intro x y h
  exact WithBot.coe_lt_coe.mpr h

theorem mem_copiedRows {base : Base} {a : Address} {r : BalanceRow} :
    (a, r) ∈ copiedRows base ↔
      ∃ b, base.balances.lookup a = some b ∧ r = { b with verified := true } := by
  rw [copiedRows, List.mem_map]
  constructor
  · rintro ⟨⟨a', b⟩, hmem, h⟩
    obtain ⟨rfl, rfl⟩ := Prod.mk.injEq .. ▸ h
    exact ⟨b, Table.mem_rows.mp hmem, rfl⟩
  · rintro ⟨b, hb, rfl⟩
    exact ⟨(a, b), Table.mem_rows.mpr hb, rfl⟩

/-- All rows of a base can be inserted into an empty table, and make it the base again. -/
theorem copy_all (base : Base) :
    ∃ t, (copiedRows base).foldlM
        (Table.insertNew (⟨"duplicate key value violates unique constraint"⟩ : JsError)) ∅ = .ok t ∧
      ∀ a, (t.lookup a).map BalanceRow.balance
        = (base.balances.lookup a).map BalanceRow.balance := by
  have hnodup : ((copiedRows base).map Prod.fst).Nodup := by
    rw [copiedRows, List.map_map]
    exact Table.nodup_rows BitVec.toNat base.balances
  obtain ⟨t, ht, hlookup⟩ := Table.insertNew_rows
    (⟨"duplicate key value violates unique constraint"⟩ : JsError) hnodup
    (m := ∅) fun x _ => AList.notMem_empty x.1
  refine ⟨t, ht, fun a => ?_⟩
  cases hb : base.balances.lookup a with
  | none =>
    cases hr : t.lookup a with
    | none => rfl
    | some r =>
      rcases (hlookup a r).mp hr with hmem | hmem
      · obtain ⟨b, hb', -⟩ := mem_copiedRows.mp hmem
        rw [hb] at hb'
        exact absurd hb'.symm (Option.some_ne_none b)
      · rw [AList.lookup_empty] at hmem
        exact absurd hmem.symm (Option.some_ne_none r)
  | some b =>
    have hr := (hlookup a { b with verified := true }).mpr
      (Or.inl (mem_copiedRows.mpr ⟨b, hb, rfl⟩))
    rw [hr]
    rfl

/-- **A new work is sound.** -/
theorem sound_openWork (history : History) (o : Snapshot) : Sound history o (openWork o) := by
  rw [Sound]
  cases hbase : o.base with
  | none =>
    have hphase : (openWork o).phase = .replay := by rw [openWork, hbase]; rfl
    rw [hphase]
    refine ⟨⟨false, ∅⟩, ⟨by rw [openWork, hbase]; rfl, fun a => rfl⟩, ?_⟩
    have hafter : (openWork o).after = position (-1) (-1) (-1) := by rw [openWork, hbase]
    rw [hafter, Paging.rest_of_forall_lt, fullReplay]
    intro l _
    exact Prod.Lex.toLex_lt_toLex.mpr (Or.inl (by dsimp only; omega))
  | some base =>
    have hphase : (openWork o).phase = .copy := by rw [openWork, hbase]; rfl
    rw [hphase]
    refine ⟨base, rfl, by rw [openWork, hbase]; rfl, by rw [openWork, hbase], ?_⟩
    obtain ⟨t, ht, hlookup⟩ := copy_all base
    refine ⟨t, ?_, hlookup⟩
    rw [openWork, Paging.rest_of_forall_lt fun x _ => WithBot.bot_lt_coe _]
    exact ht

/-- The work that has copied all of a base stands for the logs after it. -/
theorem Copying.replaying {base : Base} (h : BaseSound history o base)
    (hminted : w.minted = true) (hafter : w.after = position base.blockNumber maxBigint maxBigint)
    (hbalances : ∀ a, (w.balances.lookup a).map BalanceRow.balance
      = (base.balances.lookup a).map BalanceRow.balance) : Replaying history o w := by
  obtain ⟨s, hs, hfull, hsame⟩ := h.replayed
  refine ⟨s, ⟨hminted.trans hs.symm, fun a => (hbalances a).trans (hsame a)⟩, ?_⟩
  rw [hafter, fullReplay_split h.before.le, hfull]
  rfl

/-- **A page of the copy** fails only if the base is no longer canonical, and leaves a work
that stands for the rest. -/
theorem Copying.page {base : Base} (hbase : o.base = some base) (hsound : BaseSound history o base)
    (h : Copying history o base w) :
    (call.baseCanonical = true → ∃ w', copyPage o call w = .ok w') ∧
      ∀ w', copyPage o call w = .ok w' → Sound history o w' := by
  obtain ⟨t, ht, hlookup⟩ := h.copied
  have hlisted := listed_copiedRows base
  rw [← List.take_append_drop call.pageSize (Paging.rest _ _ _), Reducer.append_eq_ok] at ht
  obtain ⟨u, hu, hrest⟩ := ht
  rw [← Paging.page_eq_take] at hu
  rw [← Paging.rest_next hlisted] at hrest
  have heq (hcanonical : call.baseCanonical = true) : copyPage o call w = .ok { w with
      balances := u
      copyCursor := Paging.next (fun r => accountKey r.1) w.copyCursor
        (Paging.page (fun r => accountKey r.1) call.pageSize w.copyCursor (copiedRows base))
      phase := if (Paging.page (fun r => accountKey r.1) call.pageSize w.copyCursor
        (copiedRows base)).length < call.pageSize then .replay else .copy } := by
    rw [copyPage, hcanonical, hbase]
    dsimp only
    rw [hu]
    rfl
  refine ⟨fun hcanonical => ⟨_, heq hcanonical⟩, fun w' hw' => ?_⟩
  have hcanonical : call.baseCanonical = true := by
    rw [copyPage, bind_eq_ok] at hw'
    obtain ⟨_, hguard, _⟩ := hw'
    simpa using hguard
  obtain rfl := Except.ok.inj ((heq hcanonical).symm.trans hw')
  rw [Sound]
  dsimp only
  split_ifs with hshort
  · rw [Paging.rest_next_eq_nil hlisted hshort] at hrest
    obtain rfl := Except.ok.inj hrest
    exact Copying.replaying hsound h.minted h.after hlookup
  · exact ⟨base, hbase, h.minted, h.after, t, hrest, hlookup⟩

/-! ### The comparison with the chain -/

/-- The comparison changes no balance, and lets no work pass whose token was not minted. -/
theorem sound_verifyPage {done : Bool} (hphase : w.phase = .verify) (h : Sound history o w)
    (hpage : verifyPage o call w = .ok (done, w')) : Sound history o w' := by
  rw [Sound, hphase] at h
  obtain ⟨s, hsame, hfull⟩ := h
  simp only [verifyPage, bind_eq_ok] at hpage
  obtain ⟨-, -, -, -, hpage⟩ := hpage
  have hmarked (accounts : List Address) (phase : Phase) : SameLedger { w with
      phase
      balances := w.balances.map fun account r =>
        if account ∈ accounts then { r with verified := true } else r } s := by
    refine ⟨hsame.minted, fun a => ?_⟩
    rw [Table.lookup_map, Option.map_map, ← hsame.balances]
    refine congrArg (Option.map · _) (funext fun r => ?_)
    show (if a ∈ accounts then { r with verified := true } else r).balance = r.balance
    split_ifs <;> rfl
  split_ifs at hpage with hpending
  · obtain ⟨rfl, rfl⟩ := Prod.mk.inj (Except.ok.inj hpage)
    rw [Sound, hphase]
    exact ⟨s, hphase ▸ hmarked _ w.phase, hfull⟩
  · rw [bind_eq_ok] at hpage
    obtain ⟨_, hguard, hpage⟩ := hpage
    obtain ⟨rfl, rfl⟩ := Prod.mk.inj (Except.ok.inj hpage)
    have hminted : w.minted = true := by
      rw [revertIf_eq_ok, not_or] at hguard
      simpa using hguard.2
    exact ⟨⟨s, hmarked _ .balancesReady, hfull⟩, hminted⟩

/-! ### A call -/

/-- The errors of the replay loop. -/
def ReplayError (e : JsError) : Prop :=
  e = ⟨"unexpected snapshot mint"⟩ ∨ e = ⟨"snapshot transfer history underflow"⟩

instance (e : JsError) : Decidable (ReplayError e) := inferInstanceAs (Decidable (_ ∨ _))

variable {work : Option Work}

/-- **A committed call leaves a sound work.** -/
theorem sound_advance (hbase : ∀ base, o.base = some base → BaseSound history o base)
    {done : Bool} (h : Sound history o (work.getD (openWork o)))
    (hcall : advanceSnapshotLedger history o call work = .ok (done, w')) :
    Sound history o w' := by
  simp only [advanceSnapshotLedger, bind_eq_ok] at hcall
  obtain ⟨-, -, -, -, -, -, hcall⟩ := hcall
  have hsound := h
  rw [Sound] at h
  rw [advancePhase] at hcall
  cases hphase : (work.getD (openWork o)).phase with
  | copy =>
    rw [hphase] at h hcall
    obtain ⟨base, hb, hcopying⟩ := h
    obtain ⟨w'', hpage, heq⟩ := bind_eq_ok.mp hcall
    obtain ⟨-, rfl⟩ := Prod.mk.inj (Except.ok.inj heq)
    exact (hcopying.page hb (hbase base hb)).2 _ hpage
  | replay =>
    rw [hphase] at h hcall
    obtain ⟨w'', hpage, heq⟩ := bind_eq_ok.mp hcall
    obtain ⟨-, rfl⟩ := Prod.mk.inj (Except.ok.inj heq)
    exact h.page.2 _ hpage
  | verify =>
    rw [hphase] at hcall
    exact sound_verifyPage hphase hsound hcall
  | _ =>
    -- the balances are ready, and the call changes nothing
    rw [hphase] at hcall
    obtain ⟨-, rfl⟩ := Prod.mk.inj (Except.ok.inj hcall)
    exact hsound

/-- The other pages have errors of their own. -/
theorem copyPage_failsOnly {base : Base} (hb : o.base = some base)
    (hbase : BaseSound history o base) (h : Copying history o base w) :
    FailsOnly (copyPage o call w) (¬ ReplayError ·) := by
  intro e he
  cases hcanonical : call.baseCanonical with
  | true =>
    obtain ⟨w', hw'⟩ := (h.page hb hbase).1 hcanonical
    rw [hw'] at he
    cases he
  | false =>
    rw [copyPage, hcanonical] at he
    obtain rfl := Except.error.inj he
    decide

theorem verifyPage_failsOnly (o : Snapshot) (call : Call) (w : Work) :
    FailsOnly (verifyPage o call w) (¬ ReplayError ·) := by
  simp only [verifyPage, failsOnly_bind, failsOnly_revertIf, failsOnly_ite]
  refine ⟨fun _ => by decide, fun _ _ => ⟨fun _ => by decide, fun _ _ =>
    ⟨fun _ => failsOnly_ok, fun _ => ⟨fun _ => by decide, fun _ _ => failsOnly_ok⟩⟩⟩⟩

/-- A call fails with an error of the replay loop only where the whole replay does. -/
theorem fullReplay_of_error (hbase : ∀ base, o.base = some base → BaseSound history o base)
    (h : Sound history o (work.getD (openWork o))) {e : JsError}
    (hcall : advanceSnapshotLedger history o call work = .error e) (he : ReplayError e) :
    fullReplay history o.snapshotBlock = .error e := by
  have hfails : FailsOnly (advanceSnapshotLedger history o call work)
      fun e => ReplayError e → fullReplay history o.snapshotBlock = .error e := by
    have hother {α : Type} {x : Except JsError α} (hx : FailsOnly x (¬ ReplayError ·)) :
        FailsOnly x fun e => ReplayError e → fullReplay history o.snapshotBlock = .error e :=
      hx.mono fun e hnot he => absurd he hnot
    rw [Sound] at h
    simp only [advanceSnapshotLedger]
    refine failsOnly_bind.mpr ⟨hother (failsOnly_revertIf.mpr fun _ => by decide), fun _ _ => ?_⟩
    refine failsOnly_bind.mpr ⟨hother (failsOnly_revertIf.mpr fun _ => by decide), fun _ _ => ?_⟩
    refine failsOnly_bind.mpr ⟨hother (failsOnly_revertIf.mpr fun _ => by decide), fun _ _ => ?_⟩
    rw [advancePhase]
    cases hphase : (work.getD (openWork o)).phase with
    | copy =>
      rw [hphase] at h
      obtain ⟨base, hb, hcopying⟩ := h
      exact failsOnly_bind.mpr ⟨hother (copyPage_failsOnly hb (hbase base hb) hcopying),
        fun _ _ => failsOnly_ok⟩
    | replay =>
      rw [hphase] at h
      exact failsOnly_bind.mpr ⟨fun e he _ => h.page.1 e he, fun _ _ => failsOnly_ok⟩
    | verify => exact hother (verifyPage_failsOnly o call _)
    | _ => exact failsOnly_ok
  exact hfails e hcall he

/-! ### Runs -/

/-- The invariant of a work whose balances are ready. -/
theorem sound_of_ready (h : w.phase.Ready) :
    Sound history o w ↔ Replayed history o w ∧ w.minted = true := by
  obtain ⟨hcopy, hreplay, hverify⟩ := h
  rw [Sound]
  cases hphase : w.phase with
  | copy => exact absurd hphase hcopy
  | replay => exact absurd hphase hreplay
  | verify => exact absurd hphase hverify
  | _ => exact Iff.rfl

/-- **In every state of a work, what it has done and what is left make the whole replay.** -/
theorem sound_of_reachable (hbase : ∀ base, o.base = some base → BaseSound history o base)
    (h : Reachable history o work) : Sound history o (work.getD (openWork o)) := by
  refine h.invariant (I := fun work => Sound history o (work.getD (openWork o))) ?_ ?_
  · rintro _ rfl
    exact sound_openWork history o
  · rintro _ _ _ hsound (⟨call, hcall⟩ | _ | ⟨w, phase, hfrom, hto⟩)
    · exact sound_advance hbase hsound hcall
    · exact hsound
    · -- the tree leaves the balances alone
      obtain ⟨⟨s, hsame, hfull⟩, hminted⟩ := (sound_of_ready hfrom).mp hsound
      exact (sound_of_ready (w := { w with phase }) hto).mpr
        ⟨⟨s, ⟨hsame.minted, hsame.balances⟩, hfull⟩, hminted⟩

/-- **A verified ledger is what the history makes of it**, by induction on the works it
has come through. -/
theorem Verified.replayed {block : ℕ} {balances : Table Address BalanceRow}
    (h : Verified history block balances) :
    ∃ s, s.minted = true ∧ fullReplay history block = .ok s ∧
      ∀ a, (balances.lookup a).map BalanceRow.balance = s.balances.lookup a := by
  induction h with
  | intro o w hbefore _ hrun hready ih =>
    have hsound := sound_of_reachable (fun base hb => ⟨hbefore base hb, ih base hb⟩) hrun
    obtain ⟨⟨s, hsame, hfull⟩, hminted⟩ := (sound_of_ready hready).mp hsound
    exact ⟨s, hsame.minted.symm.trans hminted, hfull, hsame.balances⟩

theorem Snapshot.Extends.baseSound (h : o.Extends history) :
    ∀ base, o.base = some base → BaseSound history o base :=
  fun base hb => ⟨(h base hb).1, (h base hb).2.replayed⟩

/-! ### The end of the replay -/

/-- A call nothing is in the way of. -/
structure Call.Undisturbed (call : Call) : Prop where
  one_le : 1 ≤ call.pageSize
  le_thousand : call.pageSize ≤ 1000
  anchored : call.anchored = true
  sameContext : call.sameContext = true
  baseCanonical : call.baseCanonical = true

/-- A bound on the pages that are left of a replay. -/
def pagesLeft (history : History) (o : Snapshot) (w : Work) : ℕ :=
  match w.phase with
  | .copy => (o.base.elim 0 fun base =>
      (Paging.rest (fun r => accountKey r.1) w.copyCursor (copiedRows base)).length)
        + (history.upTo o.snapshotBlock).length + 2
  | .replay => (Paging.rest TokenLog.position w.after (history.upTo o.snapshotBlock)).length + 1
  | _ => 0

/-- A page of the copy brings the end closer. -/
theorem pagesLeft_copyPage (hphase : w.phase = .copy) (hone : 1 ≤ call.pageSize)
    (hpage : copyPage o call w = .ok w') : pagesLeft history o w' < pagesLeft history o w := by
  rw [copyPage, bind_eq_ok] at hpage
  obtain ⟨_, -, hpage⟩ := hpage
  cases hbase : o.base with
  | none =>
    rw [hbase] at hpage
    cases hpage
  | some base =>
    rw [hbase] at hpage
    obtain ⟨u, -, heq⟩ := bind_eq_ok.mp hpage
    obtain rfl := Except.ok.inj heq
    have hlogs := @Paging.length_rest_le _ _ _ TokenLog.position w.after
      (history.upTo o.snapshotBlock)
    rw [pagesLeft, pagesLeft, hphase, hbase]
    dsimp only [Option.elim]
    split_ifs with hshort
    · show (Paging.rest TokenLog.position w.after (history.upTo o.snapshotBlock)).length + 1 < _
      omega
    · have hless := Paging.length_rest_next_lt (listed_copiedRows base) hone hshort
      show (Paging.rest _ (Paging.next _ w.copyCursor (Paging.page _ call.pageSize w.copyCursor
        (copiedRows base))) (copiedRows base)).length + _ + 2 < _
      omega

/-- So does a page of the replay. -/
theorem pagesLeft_replayPage (hphase : w.phase = .replay) (hone : 1 ≤ call.pageSize)
    (hsound : Replaying history o w) (hpage : replayPage history o call w = .ok w') :
    pagesLeft history o w' < pagesLeft history o w := by
  obtain ⟨s, hsame, -⟩ := hsound
  obtain ⟨s', -, -, hafter, hphase'⟩ := (@replayPage_agree history o call w s
    hsame).ok_left hpage
  rw [pagesLeft, pagesLeft, hphase, hphase', hafter]
  split_ifs with hshort
  · exact Nat.succ_pos _
  · have hless := Paging.length_rest_next_lt (history.upTo_listed o.snapshotBlock) hone hshort
    show _ + 1 < _ + 1
    omega

/-- A call nothing is in the way of comes to its page. -/
theorem Call.Undisturbed.advance (hcall : call.Undisturbed) :
    advanceSnapshotLedger history o call work
      = advancePhase history o call (work.getD (openWork o)) := by
  have hsize : ¬ (call.pageSize < 1 ∨ call.pageSize > 1000) := by
    rintro (hless | hmore)
    · exact absurd hcall.one_le (by omega)
    · exact absurd hcall.le_thousand (by omega)
  rw [advanceSnapshotLedger, throwIf, throwIf, throwIf, revertIf, if_neg hsize, hcall.anchored,
    hcall.sameContext]
  rfl

/-- **A call nothing is in the way of** fails as the whole replay does, or goes on. -/
theorem advance_of_undisturbed (hcall : call.Undisturbed)
    (hbase : ∀ base, o.base = some base → BaseSound history o base)
    (hsound : Sound history o (work.getD (openWork o)))
    (hphase : (work.getD (openWork o)).phase = .copy ∨ (work.getD (openWork o)).phase = .replay) :
    (∃ e, advanceSnapshotLedger history o call work = .error e ∧
      fullReplay history o.snapshotBlock = .error e) ∨
    ∃ w', advanceSnapshotLedger history o call work = .ok (false, w') ∧ Sound history o w' ∧
      pagesLeft history o w' < pagesLeft history o (work.getD (openWork o)) := by
  rw [hcall.advance]
  generalize work.getD (openWork o) = w at hsound hphase ⊢
  rw [Sound] at hsound
  rcases hphase with hphase | hphase
  · rw [hphase] at hsound
    obtain ⟨base, hb, hcopying⟩ := hsound
    obtain ⟨w', hpage⟩ := (hcopying.page hb (hbase base hb)).1 hcall.baseCanonical
    refine Or.inr ⟨w', ?_, (hcopying.page hb (hbase base hb)).2 w' hpage,
      pagesLeft_copyPage hphase hcall.one_le hpage⟩
    rw [advancePhase, hphase, hpage]
    rfl
  · rw [hphase] at hsound
    cases hpage : replayPage history o call w with
    | error e =>
      refine Or.inl ⟨e, ?_, hsound.page.1 e hpage⟩
      rw [advancePhase, hphase, hpage]
      rfl
    | ok w' =>
      refine Or.inr ⟨w', ?_, hsound.page.2 w' hpage,
        pagesLeft_replayPage hphase hcall.one_le hsound hpage⟩
      rw [advancePhase, hphase, hpage]
      rfl

/-- A work that is neither copied nor replayed any more has the ledger of the history. -/
theorem replayed_of_sound (h : Sound history o w) (hcopy : w.phase ≠ .copy)
    (hreplay : w.phase ≠ .replay) : Replayed history o w := by
  rw [Sound] at h
  cases hphase : w.phase with
  | copy => exact absurd hphase hcopy
  | replay => exact absurd hphase hreplay
  | verify =>
    rw [hphase] at h
    exact h
  | _ =>
    rw [hphase] at h
    exact h.1

theorem openWork_phase (o : Snapshot) :
    (openWork o).phase = .copy ∨ (openWork o).phase = .replay := by
  rw [openWork]
  dsimp only
  split_ifs
  · exact Or.inl rfl
  · exact Or.inr rfl

/-- A replay is not over without a page. -/
theorem pagesLeft_pos (hphase : w.phase = .copy ∨ w.phase = .replay) :
    0 < pagesLeft history o w := by
  rw [pagesLeft]
  rcases hphase with hphase | hphase
  · rw [hphase]
    exact Nat.succ_pos _
  · rw [hphase]
    exact Nat.succ_pos _

theorem pagesLeft_eq_zero (hcopy : w.phase ≠ .copy) (hreplay : w.phase ≠ .replay) :
    pagesLeft history o w = 0 := by
  rw [pagesLeft]
  cases hphase : w.phase with
  | copy => exact absurd hphase hcopy
  | replay => exact absurd hphase hreplay
  | _ => rfl

/-- The pages that are left are at most all of them. -/
theorem pagesLeft_le (history : History) (o : Snapshot) (w : Work) :
    pagesLeft history o w ≤ (o.base.elim 0 fun base => base.balances.entries.length)
      + history.logs.length + 2 := by
  have hlogs : (history.upTo o.snapshotBlock).length ≤ history.logs.length :=
    List.length_filter_le _ _
  rw [pagesLeft]
  split
  · cases o.base with
    | none => exact Nat.add_le_add_right (Nat.add_le_add_left hlogs _) 2
    | some base =>
      have hrows := @Paging.length_rest_le _ _ _ (fun r => accountKey r.1) w.copyCursor
        (copiedRows base)
      have hlength : (copiedRows base).length = base.balances.entries.length := by
        rw [copiedRows, Table.rows, List.length_map, List.length_insertionSort, List.length_map]
      show (Paging.rest _ w.copyCursor (copiedRows base)).length + _ + 2
        ≤ base.balances.entries.length + _ + 2
      omega
  · have hrest := @Paging.length_rest_le _ _ _ TokenLog.position w.after
      (history.upTo o.snapshotBlock)
    omega
  · exact Nat.zero_le _

/-- **Call after call leads to the end of the replay**, the same end the whole replay has. -/
theorem replayToEnd_agree (hbase : ∀ base, o.base = some base → BaseSound history o base)
    {calls : List Call} (hcalls : ∀ call ∈ calls, call.Undisturbed)
    (hsound : Sound history o (work.getD (openWork o)))
    (hleft : pagesLeft history o (work.getD (openWork o)) ≤ calls.length) :
    Reducer.Agree (fun work s => ∃ w, work = some w ∧ SameLedger w s)
      (replayToEnd history o calls work) (fullReplay history o.snapshotBlock) := by
  induction calls generalizing work with
  | nil =>
    by_cases hphase : (work.getD (openWork o)).phase = .copy ∨
        (work.getD (openWork o)).phase = .replay
    · exact absurd hleft (Nat.not_le.mpr (pagesLeft_pos hphase))
    · cases work with
      | none => exact absurd (openWork_phase o) hphase
      | some w =>
        rw [not_or] at hphase
        obtain ⟨s, hsame, hfull⟩ := replayed_of_sound hsound hphase.1 hphase.2
        rw [hfull]
        exact ⟨w, rfl, hsame⟩
  | cons call calls ih =>
    have hrest := fun c hc => hcalls c (List.mem_cons_of_mem call hc)
    rw [replayToEnd, List.foldlM_cons]
    split_ifs with hphase
    · rcases advance_of_undisturbed (hcalls call List.mem_cons_self) hbase hsound hphase with
        ⟨e, he, hfull⟩ | ⟨w', hw', hsound', hless⟩
      · rw [he, hfull]
        exact rfl
      · rw [hw']
        have hsound'' : Sound history o ((some w').getD (openWork o)) := hsound'
        refine ih hrest hsound'' ?_
        rw [List.length_cons] at hleft
        exact Nat.le_of_lt_succ (hless.trans_le hleft)
    · -- the replay is over, and the call is not made
      refine ih hrest hsound ?_
      rw [not_or] at hphase
      rw [pagesLeft_eq_zero hphase.1 hphase.2]
      exact Nat.zero_le _

/-- **The incremental ledger is the one of the whole history**: for every history, every
verified base and every sequence of pages and interruptions.

A work whose replay is over has the balances, the holders and the total supply that replaying
the whole history gives. If a page fails with an error of the replay loop, so does the whole
replay. And wherever a work has stopped, enough further calls, with pages of any sizes, end as
the whole replay does: with its ledger, or with its error. -/
theorem incremental_eq_full_replay (history : History) (o : Snapshot)
    (hextends : o.Extends history) :
    (∀ w, Reachable history o (some w) → w.phase ≠ .copy → w.phase ≠ .replay →
      ∃ s, fullReplay history o.snapshotBlock = .ok s ∧ SameLedger w s ∧
        w.balances.total (fun _ r => r.balance) = s.balances.total fun _ (b : ℕ) => (b : ℤ)) ∧
    (∀ work call e, Reachable history o work →
      advanceSnapshotLedger history o call work = .error e → ReplayError e →
        fullReplay history o.snapshotBlock = .error e) ∧
    ∀ work calls, Reachable history o work → (∀ call ∈ calls, Call.Undisturbed call) →
      (o.base.elim 0 fun base => base.balances.entries.length) + history.logs.length + 2
        ≤ calls.length →
      Reducer.Agree (fun work s => ∃ w, work = some w ∧ SameLedger w s)
        (replayToEnd history o calls work) (fullReplay history o.snapshotBlock) := by
  have hbase := hextends.baseSound
  refine ⟨fun w hw hcopy hreplay => ?_, fun work call e hwork he hreplay => ?_,
    fun work calls hwork hcalls hlength => ?_⟩
  · obtain ⟨s, hsame, hfull⟩ := replayed_of_sound (sound_of_reachable hbase hw) hcopy hreplay
    exact ⟨s, hfull, hsame, hsame.total⟩
  · exact fullReplay_of_error hbase (sound_of_reachable hbase hwork) he hreplay
  · exact replayToEnd_agree hbase hcalls (sound_of_reachable hbase hwork)
      ((pagesLeft_le history o _).trans hlength)

/-! ### A sample -/

namespace Sample

/-- A log of the token in a block. -/
def log (blockNumber logIndex : ℕ) (h : logIndex ≤ maxSafeInteger) (e : Transfer) : TokenLog where
  log := {
    address := 7
    blockHash := 1
    blockNumber
    transactionHash := 1
    transactionIndex := 0
    logIndex
    transactionIndex_le := Nat.zero_le _
    logIndex_le := h }
  event := some (.transfer e)

/-- The mint, a transfer in the block of the base, and two in a later block, one of them from
an account to itself. -/
def chain : History where
  logs := [log 1 0 zero_le_maxSafeInteger ⟨0, 2, 100⟩, log 2 0 zero_le_maxSafeInteger ⟨2, 3, 40⟩,
    log 4 0 zero_le_maxSafeInteger ⟨3, 3, 10⟩, log 4 1 one_le_maxSafeInteger ⟨3, 0, 5⟩]
  listed := by
    rw [Paging.Listed]
    decide +kernel
  decoded := by simp [log]

/-- A call with small pages. -/
def reading : Call where
  pageSize := 2
  anchored := true
  sameContext := true
  baseCanonical := true
  balanceOf := fun a => if a = 2 then 60 else 40
  consensusHash := 1

/-- The snapshot of block 2, from the beginning. -/
def earlier : Snapshot := ⟨2, 1, 100, none⟩

/-- The work of the first calls. -/
def workAfter (o : Snapshot) : ℕ → Except JsError Work
  | 0 => Prod.snd <$> advanceSnapshotLedger chain o reading none
  | n + 1 => do
    let w ← workAfter o n
    Prod.snd <$> advanceSnapshotLedger chain o reading (some w)

theorem reachable_workAfter (o : Snapshot) (n : ℕ) {w : Work} (h : workAfter o n = .ok w) :
    Reachable chain o (some w) := by
  have hpage {work : Option Work} {w : Work} (hwork : Reachable chain o work)
      (h : Prod.snd <$> advanceSnapshotLedger chain o reading work = .ok w) :
      Reachable chain o (some w) := by
    cases hcall : advanceSnapshotLedger chain o reading work with
    | error e =>
      rw [hcall] at h
      cases h
    | ok x =>
      rw [hcall] at h
      obtain rfl := Except.ok.inj h
      exact hwork.next (Step.page reading hcall)
  induction n generalizing w with
  | zero => exact hpage (Transition.Reachable.of_init rfl) h
  | succ n ih =>
    obtain ⟨w', hw', h⟩ := bind_eq_ok.mp h
    exact hpage (ih hw') h

theorem earlier_isOk : (workAfter earlier 2).isOk = true := by decide +kernel

/-- The finished work of block 2. -/
def earlierWork : Work := value (workAfter earlier 2) earlier_isOk

/-- The snapshot of block 4, which starts from it. -/
def later : Snapshot := ⟨4, 1, 95, some ⟨2, earlierWork.balances⟩⟩

theorem later_extends : later.Extends chain := by
  intro base hbase
  obtain rfl := Option.some.inj hbase
  refine ⟨by decide, Verified.intro earlier earlierWork ?_ ?_ ?_ (by decide +kernel)⟩
  · intro base hbase
    cases hbase
  · intro base hbase
    cases hbase
  · exact reachable_workAfter earlier 2 (eq_ok_value earlier_isOk)

end Sample

/-- The sample: eight small pages from the base give what the whole history gives. -/
theorem incremental_eq_full_replay_sample :
    ∃ w s, replayToEnd Sample.chain Sample.later (List.replicate 8 Sample.reading) none
        = .ok (some w) ∧
      fullReplay Sample.chain 4 = .ok s ∧ SameLedger w s := by
  have hfull : (fullReplay Sample.chain 4).isOk = true := by decide +kernel
  have hagree := (incremental_eq_full_replay Sample.chain Sample.later Sample.later_extends).2.2
    none (List.replicate 8 Sample.reading) (Transition.Reachable.of_init rfl)
    (fun call hcall => by
      obtain rfl := List.eq_of_mem_replicate hcall
      exact ⟨by decide, by decide, rfl, rfl, rfl⟩)
    (by decide +kernel)
  cases hrun : replayToEnd Sample.chain Sample.later (List.replicate 8 Sample.reading) none with
  | error e =>
    have herror : fullReplay Sample.chain 4 = .error e := hagree.error_left hrun
    rw [herror] at hfull
    cases hfull
  | ok work =>
    obtain ⟨s, hs, w, rfl, hsame⟩ := hagree.ok_left hrun
    exact ⟨w, s, rfl, hs, hsame⟩

end SnapshotLedger

end Backend

end TickerGarden
