import Mathlib.Algebra.Order.BigOperators.Group.List
import TickerGarden.Backend.HolderReplay
import TickerGarden.Lib.Reducer

/-!
# The incremental holders are the rebuilt ones

A batch that is applied to stored holders, `TickerGarden.Backend.Analytics.updateHolders`, and
the same transfers replayed on top of the history before them end in the same holders, or both
fail. The replay is what a rebuild of the longer history does last, so that by induction on the
batches the incremental path always stores what a rebuild would compute
(`TickerGarden.Backend.Analytics.advance_eq_rebuild`).

What carries the induction is `TickerGarden.Backend.Analytics.Tracks`: the stored rows are the
positive balances of the replay, and the stored counts are those of the stored *rows*. That the
counts follow the rows is a fact about tables that differ at the touched accounts only,
`Table.total_eq_off`; it does not look at how often an account was touched.

The two paths treat a transfer to oneself differently – one debits and credits, the other does
nothing – and both move the balances as `TickerGarden.Backend.Analytics.moved` says.
-/

namespace TickerGarden

open Checked

namespace Backend

namespace Analytics

/-! ### Positions -/

theorem compareSources_le_iff {a b : TradeSource} : compareSources a b ≤ 0 ↔
    a.blockNumber < b.blockNumber ∨ a.blockNumber = b.blockNumber ∧
      (a.transactionIndex < b.transactionIndex ∨
        a.transactionIndex = b.transactionIndex ∧ a.logIndex ≤ b.logIndex) := by
  simp only [compareSources]
  split_ifs <;> omega

theorem compareSources_lt_iff {a b : TradeSource} : compareSources a b < 0 ↔
    a.blockNumber < b.blockNumber ∨ a.blockNumber = b.blockNumber ∧
      (a.transactionIndex < b.transactionIndex ∨
        a.transactionIndex = b.transactionIndex ∧ a.logIndex < b.logIndex) := by
  simp only [compareSources]
  split_ifs <;> omega

/-- **A history is put in order**, however it is supplied. -/
theorem orderedTransfers_eq {supplied history : List HolderTransfer}
    (hperm : supplied.Perm history)
    (hordered : history.Pairwise fun a b => compareSources a.source b.source < 0) :
    orderedTransfers supplied = history := by
  have : Std.Total fun a b : HolderTransfer => compareSources a.source b.source ≤ 0 :=
    ⟨fun a b => by rw [compareSources_le_iff, compareSources_le_iff]; omega⟩
  have : IsTrans HolderTransfer fun a b => compareSources a.source b.source ≤ 0 :=
    ⟨fun a b c => by
      rw [compareSources_le_iff, compareSources_le_iff, compareSources_le_iff]
      omega⟩
  have hsorted := List.pairwise_insertionSort
    (fun a b : HolderTransfer => compareSources a.source b.source ≤ 0) supplied
  have hmem : ∀ a ∈ orderedTransfers supplied, a ∈ history := fun a ha =>
    hperm.subset ((List.perm_insertionSort _ _).subset ha)
  -- two transfers of the history are the same, or their positions differ
  have hapart : ∀ ⦃a⦄, a ∈ history → ∀ ⦃b⦄, b ∈ history →
      a = b ∨ compareSources a.source b.source < 0 ∨ compareSources b.source a.source < 0 :=
    List.Pairwise.forall_of_forall_of_flip (fun a _ => Or.inl rfl)
      (hordered.imp fun h => Or.inr (Or.inl h)) (hordered.imp fun h => Or.inr (Or.inr h))
  refine List.Perm.eq_of_pairwise ?_ hsorted (hordered.imp le_of_lt)
    ((List.perm_insertionSort _ _).trans hperm)
  intro a b ha hb hab hba
  rcases hapart (hmem a ha) hb with heq | hlt | hlt
  · exact heq
  · rw [compareSources_lt_iff] at hlt
    rw [compareSources_le_iff] at hba
    omega
  · rw [compareSources_lt_iff] at hlt
    rw [compareSources_le_iff] at hab
    omega

/-! ### What a transfer moves -/

/-- The balances after a transfer. -/
def moved (balance : Address → ℕ) (t : HolderTransfer) : Address → ℕ := fun a =>
  if t.fromAccount = t.toAccount then balance a
  else if a = t.fromAccount then balance a - t.value
  else if a = t.toAccount ∧ a ≠ 0 then balance a + t.value
  else balance a

/-- The supply after a transfer. -/
def suppliedAfter (supply : ℤ) (t : HolderTransfer) : ℤ :=
  if t.toAccount = 0 then supply - t.value else supply

/-- A transfer is covered if it is no mint, and the sender has what it sends. -/
def Covered (balance : Address → ℕ) (t : HolderTransfer) : Prop :=
  t.fromAccount ≠ 0 ∧ t.value ≤ balance t.fromAccount

/-- The balances of a replay add up to its supply. -/
def HolderReplay.Sound (s : HolderReplay) : Prop :=
  Table.total (fun _ (b : ℕ) => (b : ℤ)) s.balances = s.supply

theorem balanceOf_insert (m : Table Address ℕ) (a x : Address) (b : ℕ) :
    balanceOf (m.insert a b) x = if x = a then b else balanceOf m x := by
  unfold balanceOf
  split_ifs with h
  · rw [h, AList.lookup_insert, Option.getD_some]
  · rw [AList.lookup_insert_ne h]

theorem total_insert_balance (m : Table Address ℕ) (a : Address) (b : ℕ) :
    Table.total (fun _ (b : ℕ) => (b : ℤ)) (m.insert a b)
      = Table.total (fun _ (b : ℕ) => (b : ℤ)) m + b - balanceOf m a := by
  rw [Table.total_insert, Table.elim_getD m a 0 (fun b : ℕ => (b : ℤ)) rfl]
  rfl

theorem length_insert_le (m : Table Address ℕ) (a : Address) (b : ℕ) :
    (m.insert a b).entries.length ≤ m.entries.length + 1 := by
  rw [AList.entries_insert, List.length_cons]
  exact Nat.succ_le_succ ((List.kerase_sublist a m.entries).length_le)

/-- A balance is part of the total. -/
theorem balanceOf_le_total (m : Table Address ℕ) (a : Address) :
    (balanceOf m a : ℤ) ≤ Table.total (fun _ (b : ℕ) => (b : ℤ)) m := by
  have herase := Table.total_erase (fun _ (b : ℕ) => (b : ℤ)) a m
  rw [Table.elim_getD m a 0 (fun b : ℕ => (b : ℤ)) rfl] at herase
  have hnonneg : 0 ≤ Table.total (fun _ (b : ℕ) => (b : ℤ)) (m.erase a) := by
    refine List.sum_nonneg fun x hx => ?_
    obtain ⟨e, -, rfl⟩ := List.mem_map.mp hx
    exact Int.natCast_nonneg _
  rw [balanceOf]
  omega

section Moves

variable {input : HolderInput} {s : HolderReplay} {t : HolderTransfer}

/-- The debit of a burn. -/
theorem balanceOf_burned (m : Table Address ℕ) (hfrom : t.fromAccount ≠ 0)
    (hto : t.toAccount = 0) :
    balanceOf (m.insert t.fromAccount (balanceOf m t.fromAccount - t.value))
      = moved (balanceOf m) t := by
  funext a
  have hne : t.fromAccount ≠ t.toAccount := fun heq => hfrom (heq.trans hto)
  rw [balanceOf_insert, moved, if_neg hne]
  split_ifs with ha hzero
  · rw [ha]
  · exact absurd (hzero.1.trans hto) hzero.2
  · rfl

/-- The debit and the credit of a transfer, also of one to oneself. -/
theorem balanceOf_transferred (m : Table Address ℕ) (hto : t.toAccount ≠ 0)
    (hle : t.value ≤ balanceOf m t.fromAccount) :
    balanceOf ((m.insert t.fromAccount (balanceOf m t.fromAccount - t.value)).insert t.toAccount
        (balanceOf (m.insert t.fromAccount (balanceOf m t.fromAccount - t.value)) t.toAccount
          + t.value))
      = moved (balanceOf m) t := by
  funext a
  simp only [balanceOf_insert, moved]
  rcases eq_or_ne t.fromAccount t.toAccount with heq | hne
  · rw [if_pos heq, if_pos heq.symm]
    split_ifs with ha hfrom
    · rw [ha, ← heq]
      omega
    · exact absurd (hfrom.trans heq) ha
    · rfl
  · rw [if_neg hne, if_neg hne.symm]
    by_cases ha : a = t.fromAccount
    · rw [if_neg (ha ▸ hne), if_pos ha, if_pos ha, ha]
    · rw [if_neg ha, if_neg ha]
      by_cases hat : a = t.toAccount
      · rw [if_pos hat, if_pos ⟨hat, hat ▸ hto⟩, hat]
      · rw [if_neg hat, if_neg fun h => hat h.1]

/-- **What a replay makes of a covered transfer**, if holders may burn. -/
theorem move_of_covered (hburn : input.allowSelfBurn = true)
    (h : Covered (balanceOf s.balances) t) :
    ∃ s', s.move input t = .ok s' ∧ balanceOf s'.balances = moved (balanceOf s.balances) t ∧
      s'.supply = suppliedAfter s.supply t ∧ (s.Sound → s'.Sound) ∧
      s'.balances.entries.length ≤ s.balances.entries.length + 2 := by
  obtain ⟨hfrom, hle⟩ := h
  have hlength := length_insert_le s.balances t.fromAccount
    (balanceOf s.balances t.fromAccount - t.value)
  unfold HolderReplay.move throwIf HolderReplay.Sound
  rw [revertIf_neg hfrom, ok_bind]
  dsimp only
  rw [revertIf_neg (Nat.not_lt.mpr hle), ok_bind]
  split_ifs with hto
  · rw [revertIf_neg (by simp [hburn]), ok_bind]
    refine ⟨_, rfl, balanceOf_burned _ hfrom hto, by rw [suppliedAfter, if_pos hto],
      fun hsound => ?_, hlength.trans (Nat.le_succ _)⟩
    dsimp only
    rw [total_insert_balance, hsound]
    omega
  · refine ⟨_, rfl, balanceOf_transferred _ hto hle, by rw [suppliedAfter, if_neg hto],
      fun hsound => ?_, (length_insert_le _ _ _).trans (Nat.succ_le_succ hlength)⟩
    dsimp only
    rw [total_insert_balance, total_insert_balance, hsound]
    omega

theorem move_of_not_covered (h : ¬ Covered (balanceOf s.balances) t) :
    ∃ e, s.move input t = .error e := by
  unfold HolderReplay.move throwIf
  dsimp only
  by_cases hfrom : t.fromAccount = 0
  · rw [revertIf_pos hfrom]
    exact ⟨_, rfl⟩
  · rw [revertIf_neg hfrom, ok_bind, revertIf_pos (Nat.lt_of_not_le fun hle => h ⟨hfrom, hle⟩)]
    exact ⟨_, rfl⟩

/-- **What the incremental path makes of it.** -/
theorem advanceTransfer_of_covered {after : Table Address ℕ} {supply : ℤ}
    (h : Covered (balanceOf after) t) (hsupply : (t.value : ℤ) ≤ supply) :
    ∃ after', advanceTransfer (after, supply) t = .ok (after', suppliedAfter supply t) ∧
      balanceOf after' = moved (balanceOf after) t := by
  obtain ⟨hfrom, hle⟩ := h
  unfold advanceTransfer throwIf suppliedAfter
  dsimp only
  rw [revertIf_neg hfrom, ok_bind, revertIf_neg (Nat.not_lt.mpr hle), ok_bind]
  rcases eq_or_ne t.fromAccount t.toAccount with heq | hne
  · rw [if_neg (not_not.mpr heq), if_neg (heq ▸ hfrom)]
    refine ⟨after, rfl, ?_⟩
    funext a
    rw [moved, if_pos heq]
  · rw [if_pos hne]
    split_ifs with hto
    · rw [revertIf_neg (not_lt.mpr hsupply), ok_bind]
      exact ⟨_, rfl, balanceOf_burned _ hfrom hto⟩
    · exact ⟨_, rfl, balanceOf_transferred _ hto hle⟩

theorem advanceTransfer_of_not_covered {after : Table Address ℕ} {supply : ℤ}
    (h : ¬ Covered (balanceOf after) t) : ∃ e, advanceTransfer (after, supply) t = .error e := by
  unfold advanceTransfer throwIf
  dsimp only
  by_cases hfrom : t.fromAccount = 0
  · rw [revertIf_pos hfrom]
    exact ⟨_, rfl⟩
  · rw [revertIf_neg hfrom, ok_bind, revertIf_pos (Nat.lt_of_not_le fun hle => h ⟨hfrom, hle⟩)]
    exact ⟨_, rfl⟩

end Moves

/-! ### A batch of transfers -/

/-- The accounts a batch touches include both ends of its transfers. -/
def Touches (touched : List Address) (ts : List HolderTransfer) : Prop :=
  ∀ t ∈ ts, (t.fromAccount ≠ 0 → t.fromAccount ∈ touched) ∧
    (t.toAccount ≠ 0 → t.toAccount ∈ touched)

theorem mem_uniqueAddresses {a : Address} {values : List Address} :
    a ∈ uniqueAddresses values ↔ a ∈ values := by
  rw [uniqueAddresses, List.mem_insertionSort, List.mem_dedup]

theorem nodup_uniqueAddresses (values : List Address) : (uniqueAddresses values).Nodup :=
  (List.perm_insertionSort _ _).nodup_iff.mpr (List.nodup_dedup values)

theorem touches_touchedAccounts (ts : List HolderTransfer) : Touches (touchedAccounts ts) ts := by
  intro t ht
  have hmem : ∀ a, a ∈ [t.fromAccount, t.toAccount] → a ≠ 0 → a ∈ touchedAccounts ts := by
    intro a ha hne
    rw [touchedAccounts, mem_uniqueAddresses, List.mem_filter, List.mem_flatMap]
    exact ⟨⟨t, ht, ha⟩, decide_eq_true hne⟩
  exact ⟨hmem _ List.mem_cons_self, hmem _ (List.mem_cons_of_mem _ List.mem_cons_self)⟩

/-- Accounts a transfer does not name keep their balances. -/
theorem moved_of_notMem {touched : List Address} {balance : Address → ℕ} {t : HolderTransfer}
    (hfrom : t.fromAccount ∈ touched) (hto : t.toAccount ≠ 0 → t.toAccount ∈ touched) {a : Address}
    (ha : a ∉ touched) : moved balance t a = balance a := by
  rw [moved]
  split_ifs with hself hsender hrecipient
  · rfl
  · exact absurd (hsender ▸ hfrom) ha
  · obtain ⟨rfl, hne⟩ := hrecipient
    exact absurd (hto hne) ha
  · rfl

/-- Transfers move alike what is alike before. -/
theorem moved_congr {f g : Address → ℕ} {t : HolderTransfer} {a : Address} (h : f a = g a) :
    moved f t a = moved g t a := by
  rw [moved, moved, h]

section Batch

variable {input : HolderInput} {touched : List Address}

/-- **A batch, replayed and applied to the balances of the touched accounts.** Either both
succeed, with the same supply and the same balances of these accounts, and the replay leaves
all other balances alone; or both fail. -/
theorem advance_batch (hburn : input.allowSelfBurn = true) {ts : List HolderTransfer}
    (hts : Touches touched ts) {s : HolderReplay} (hs : s.Sound) {after : Table Address ℕ}
    (hagree : ∀ a ∈ touched, balanceOf after a = balanceOf s.balances a) :
    (∃ s' after', ts.foldlM (HolderReplay.move input) s = .ok s' ∧
      ts.foldlM advanceTransfer (after, s.supply) = .ok (after', s'.supply) ∧
      s'.Sound ∧ (∀ a ∈ touched, balanceOf after' a = balanceOf s'.balances a) ∧
      (∀ a ∉ touched, balanceOf s'.balances a = balanceOf s.balances a) ∧
      s'.supply ≤ s.supply ∧
      s'.balances.entries.length ≤ s.balances.entries.length + 2 * ts.length) ∨
    ((∃ e, ts.foldlM (HolderReplay.move input) s = .error e) ∧
      ∃ e, ts.foldlM advanceTransfer (after, s.supply) = .error e) := by
  induction ts generalizing s after with
  | nil => exact Or.inl ⟨s, after, rfl, rfl, hs, hagree, fun _ _ => rfl, le_rfl, le_rfl⟩
  | cons t ts ih =>
    obtain ⟨hfrom, hto⟩ := hts t List.mem_cons_self
    rw [List.foldlM_cons, List.foldlM_cons]
    by_cases hcovered : Covered (balanceOf s.balances) t
    · have hmem := hfrom hcovered.1
      have hle : (t.value : ℤ) ≤ s.supply := by
        have hpart := balanceOf_le_total s.balances t.fromAccount
        rw [hs] at hpart
        exact (Int.ofNat_le.mpr hcovered.2).trans hpart
      have hcovered' : Covered (balanceOf after) t :=
        ⟨hcovered.1, (hagree _ hmem).symm ▸ hcovered.2⟩
      obtain ⟨u, hu, hbalance, hsupply, hsound, hlength⟩ := move_of_covered hburn hcovered
      obtain ⟨after', hafter, hbalance'⟩ := advanceTransfer_of_covered hcovered' hle
      rw [hu, hafter, ok_bind, ok_bind, ← hsupply]
      have hnext : ∀ a ∈ touched, balanceOf after' a = balanceOf u.balances a := by
        intro a ha
        rw [hbalance, hbalance']
        exact moved_congr (hagree a ha)
      rcases ih (fun t' ht' => hts t' (List.mem_cons_of_mem t ht')) (hsound hs) hnext with
        ⟨s', after'', h1, h2, h3, h4, h5, h6, h7⟩ | hfails
      · refine Or.inl ⟨s', after'', h1, h2, h3, h4, fun a ha => ?_, ?_, ?_⟩
        · rw [h5 a ha, hbalance]
          exact moved_of_notMem hmem hto ha
        · refine h6.trans ?_
          rw [hsupply, suppliedAfter]
          split_ifs <;> omega
        · rw [List.length_cons]
          omega
      · exact Or.inr hfails
    · have hcovered' : ¬ Covered (balanceOf after) t := by
        rintro ⟨hne, hle⟩
        exact hcovered ⟨hne, (hagree _ (hfrom hne)) ▸ hle⟩
      obtain ⟨e, he⟩ := @move_of_not_covered input s t hcovered
      obtain ⟨e', he'⟩ := @advanceTransfer_of_not_covered t after s.supply hcovered'
      rw [he, he']
      exact Or.inr ⟨⟨e, rfl⟩, ⟨e', rfl⟩⟩

end Batch

/-! ### Settling the touched accounts -/

section Settle

variable {exclusions : List Address} {before after : Table Address ℕ}

/-- What an account adds to the count of holders. -/
def holds (balances : Table Address ℕ) (a : Address) : ℤ := if 0 < balanceOf balances a then 1 else 0

/-- The row of an account with a balance: none, if there is nothing in it. -/
def rowOf (exclusions : List Address) (a : Address) (balance : ℕ) : Option HolderRow :=
  if 0 < balance then some ⟨balance, decide (a ∈ exclusions)⟩ else none

theorem rowOf_holds (balances : Table Address ℕ) (a : Address) :
    (rowOf exclusions a (balanceOf balances a)).elim 0 (fun _ => 1) = holds balances a := by
  rw [rowOf, holds]
  split_ifs <;> rfl

theorem rowOf_includes (balances : Table Address ℕ) (a : Address) :
    (rowOf exclusions a (balanceOf balances a)).elim 0
        (fun row => if row.excluded then (0 : ℤ) else 1)
      = if a ∈ exclusions then 0 else holds balances a := by
  rw [rowOf, holds]
  by_cases ha : a ∈ exclusions <;> split_ifs <;> simp_all

theorem settle_positive (touched : List Address) (w : HolderWrites) :
    (touched.foldl (settleAccount exclusions before after) w).positive
      = w.positive + (touched.map fun a => holds after a - holds before a).sum := by
  induction touched generalizing w with
  | nil => exact (add_zero _).symm
  | cons a touched ih =>
    rw [List.foldl_cons, ih, List.map_cons, List.sum_cons, ← add_assoc]
    congr 1
    simp only [settleAccount, holds]
    by_cases hw : 0 < balanceOf before a <;> by_cases hn : 0 < balanceOf after a <;>
      simp [hw, hn, sub_eq_add_neg]

theorem settle_included (touched : List Address) (w : HolderWrites) :
    (touched.foldl (settleAccount exclusions before after) w).included
      = w.included + (touched.map fun a =>
          if a ∈ exclusions then 0 else holds after a - holds before a).sum := by
  induction touched generalizing w with
  | nil => exact (add_zero _).symm
  | cons a touched ih =>
    rw [List.foldl_cons, ih, List.map_cons, List.sum_cons, ← add_assoc]
    congr 1
    simp only [settleAccount, holds]
    by_cases he : a ∈ exclusions
    · simp [he]
    · by_cases hw : 0 < balanceOf before a <;> by_cases hn : 0 < balanceOf after a <;>
        simp [he, hw, hn, sub_eq_add_neg]

theorem settle_saved (touched : List Address) (w : HolderWrites) :
    (touched.foldl (settleAccount exclusions before after) w).saved
      = w.saved ++ (touched.filter fun a => 0 < balanceOf after a).map fun a =>
          (a, ⟨balanceOf after a, decide (a ∈ exclusions)⟩) := by
  induction touched generalizing w with
  | nil => exact (List.append_nil _).symm
  | cons a touched ih =>
    rw [List.foldl_cons, ih]
    by_cases hn : 0 < balanceOf after a
    · rw [List.filter_cons_of_pos (by simpa using hn), List.map_cons]
      simp [settleAccount, hn]
    · rw [List.filter_cons_of_neg (by simpa using hn)]
      simp [settleAccount, hn]

theorem settle_rows (touched : List Address) (w : HolderWrites) (k : Address) :
    (touched.foldl (settleAccount exclusions before after) w).rows.lookup k
      = if k ∈ touched ∧ balanceOf after k = 0 then none else w.rows.lookup k := by
  induction touched generalizing w with
  | nil => simp
  | cons a touched ih =>
    rw [List.foldl_cons, ih]
    have hrow : (settleAccount exclusions before after w a).rows.lookup k
        = if k = a ∧ balanceOf after k = 0 then none else w.rows.lookup k := by
      simp only [settleAccount]
      by_cases hn : 0 < balanceOf after a
      · rw [if_pos (decide_eq_true hn), if_neg]
        rintro ⟨rfl, hzero⟩
        omega
      · rw [if_neg (by simpa using hn)]
        rcases eq_or_ne k a with rfl | hne
        · rw [AList.lookup_erase, if_pos ⟨rfl, by omega⟩]
        · rw [AList.lookup_erase_ne hne, if_neg fun h => hne h.1]
    rw [hrow]
    by_cases hzero : balanceOf after k = 0 <;> by_cases hmem : k ∈ touched <;>
      simp [hzero, hmem, List.mem_cons]

/-- **What is stored after settling**: the touched accounts have their new balance, if it is
positive, and no row otherwise; all other rows are left alone. -/
theorem settle_lookup {touched : List Address} (w : HolderWrites) (hsaved : w.saved = []) (k : Address) :
    ((touched.foldl (settleAccount exclusions before after) w).saved.foldl
      (fun rows row => rows.insert row.1 row.2)
      (touched.foldl (settleAccount exclusions before after) w).rows).lookup k
      = if k ∈ touched then rowOf exclusions k (balanceOf after k) else w.rows.lookup k := by
  rw [settle_saved, hsaved, List.nil_append, List.foldl_map]
  dsimp only
  have hfilter : k ∈ (touched.filter fun a => 0 < balanceOf after a)
      ↔ k ∈ touched ∧ 0 < balanceOf after k := by
    rw [List.mem_filter, decide_eq_true_eq]
  rw [Table.lookup_foldl_insert_key fun a =>
    (⟨balanceOf after a, decide (a ∈ exclusions)⟩ : HolderRow), settle_rows, rowOf]
  by_cases hmem : k ∈ touched
  · rw [if_pos hmem]
    by_cases hpos : 0 < balanceOf after k
    · rw [if_pos (hfilter.mpr ⟨hmem, hpos⟩), if_pos hpos]
    · rw [if_neg fun h => hpos (hfilter.mp h).2, if_pos ⟨hmem, by omega⟩, if_neg hpos]
  · rw [if_neg fun h => hmem (hfilter.mp h).1, if_neg fun h => hmem h.1, if_neg hmem]

end Settle

/-! ### What is stored -/

/-- **The stored holders are those of a replay**: its positive balances, its supply, and the
counts of the stored rows. -/
structure Shows (exclusions : List Address) (s : HolderReplay) (stored : StoredHolders) : Prop where
  row : ∀ a, stored.balances.lookup a = rowOf exclusions a (balanceOf s.balances a)
  state : stored.snapshot = some {
    totalSupplyRaw := s.supply
    positiveAddressCount := Table.total (fun _ _ => 1) stored.balances
    includedAddressCount := Table.total (fun _ row => if row.excluded then 0 else 1) stored.balances
    excludedAccounts := exclusions }

/-- **The stored holders are those of a snapshot.** -/
structure StoredHolders.Holds (stored : StoredHolders) (exclusions : List Address)
    (snapshot : HolderSnapshot) : Prop where
  row : ∀ account row, stored.balances.lookup account = some row ↔
    { account, balanceRaw := row.balanceRaw, excluded := row.excluded } ∈ snapshot.balances
  state : stored.snapshot = some {
    totalSupplyRaw := snapshot.totalSupplyRaw
    positiveAddressCount := snapshot.positiveAddressCount
    includedAddressCount := snapshot.includedAddressCount
    excludedAccounts := exclusions }

section Stored

variable {exclusions : List Address} {s : HolderReplay} {stored : StoredHolders}

/-- The total of ones is a count. -/
theorem total_one {κ β : Type} [DecidableEq κ] (m : Table κ β) :
    Table.total (fun _ _ => 1) m = m.entries.length := by
  rw [Table.total, List.map_const', List.sum_replicate]
  simp

/-- The total of an indicator is a count. -/
theorem total_indicator {κ β : Type} [DecidableEq κ] (p : β → Bool) (m : Table κ β) :
    Table.total (fun _ b => if p b then 0 else 1) m
      = (m.entries.filter fun e => !p e.2).length := by
  rw [Table.total]
  induction m.entries with
  | nil => rfl
  | cons e l ih =>
    rw [List.map_cons, List.sum_cons, ih]
    cases hp : p e.2
    · rw [List.filter_cons_of_pos (by simp [hp]), List.length_cons, Nat.cast_succ, add_comm]
      rfl
    · rw [List.filter_cons_of_neg (by simp [hp])]
      exact zero_add _

/-- The rows of a replay are among its balances. -/
theorem length_le_of_row {s : HolderReplay} {stored : StoredHolders}
    (hrow : ∀ a, stored.balances.lookup a = rowOf exclusions a (balanceOf s.balances a)) :
    stored.balances.entries.length ≤ s.balances.entries.length := by
  have hkeys : stored.balances.keys ⊆ s.balances.keys := by
    intro a ha
    rw [← AList.mem_keys, ← AList.lookup_isSome, hrow, rowOf] at ha
    rw [← AList.mem_keys, ← AList.lookup_isSome]
    split_ifs at ha with hpos
    · rw [balanceOf] at hpos
      cases hlookup : s.balances.lookup a with
      | none =>
        rw [hlookup] at hpos
        exact absurd hpos (lt_irrefl 0)
      | some b => rfl
    · cases ha
  have hle := (stored.balances.keys_nodup.subperm hkeys).length_le
  rwa [AList.keys, AList.keys, List.keys, List.keys, List.length_map, List.length_map] at hle

/-- The counts of what is stored are exact numbers, if the balances are not too many. -/
theorem saveSnapshot_isOk (m : Table Address HolderRow) (hle : m.entries.length ≤ maxSafeInteger)
    (supply : ℤ) :
    saveSnapshot supply (Table.total (fun _ _ => 1) m)
        (Table.total (fun _ row => if row.excluded then 0 else 1) m) exclusions
      = .ok { totalSupplyRaw := supply
              positiveAddressCount := Table.total (fun _ _ => 1) m
              includedAddressCount := Table.total (fun _ row => if row.excluded then 0 else 1) m
              excludedAccounts := exclusions } := by
  have hincluded := List.length_filter_le (fun e : Sigma fun _ : Address => HolderRow =>
    !e.2.excluded) m.entries
  unfold saveSnapshot throwIf
  rw [revertIf_neg, ok_bind]
  · rfl
  · rw [total_one, total_indicator HolderRow.excluded]
    omega

end Stored

/-! ### One batch -/

/-- **The stored holders follow a replay** of some number of transfers. -/
structure Tracks (input : HolderInput) (n : ℕ) (s : HolderReplay) (stored : StoredHolders) : Prop
    extends Shows input.excludedAccounts s stored where
  sound : s.Sound
  supply_le : s.supply ≤ input.initialSupplyRaw
  length_le : s.balances.entries.length ≤ 2 * n

section Update

variable {input : HolderInput} {s : HolderReplay} {stored : StoredHolders}

theorem balanceOf_balancesBefore {touched : List Address}
    (hrow : ∀ a, stored.balances.lookup a
      = rowOf input.excludedAccounts a (balanceOf s.balances a)) {a : Address} (ha : a ∈ touched) :
    balanceOf (balancesBefore stored touched) a = balanceOf s.balances a := by
  rw [balanceOf, balancesBefore, Table.lookup_foldl_insert_key, if_pos ha, Option.getD_some, hrow,
    rowOf]
  split_ifs with hpos
  · rfl
  · rw [Option.elim_none]
    omega

/-- **A later batch is applied as it is replayed**, or fails in both. -/
theorem update_tracks (hburn : input.allowSelfBurn = true) {n : ℕ} {ts : List HolderTransfer}
    (h : Tracks input n s stored) (hbound : 2 * (n + ts.length) ≤ maxSafeInteger)
    {current : HolderState} (hcurrent : stored.snapshot = some current) :
    (∃ s' stored', ts.foldlM (HolderReplay.move input) s = .ok s' ∧
      updateHolders input.excludedAccounts input.initialSupplyRaw stored current ts = .ok stored' ∧
      Tracks input (n + ts.length) s' stored') ∨
    ((∃ e, ts.foldlM (HolderReplay.move input) s = .error e) ∧
      ∃ e, updateHolders input.excludedAccounts input.initialSupplyRaw stored current ts
        = .error e) := by
  obtain rfl := Option.some.inj (hcurrent.symm.trans h.state)
  have hnodup := nodup_uniqueAddresses ((ts.flatMap fun transfer =>
    [transfer.fromAccount, transfer.toAccount]).filter fun account => account ≠ 0)
  change (touchedAccounts ts).Nodup at hnodup
  have hguard : ¬ (input.excludedAccounts ≠ input.excludedAccounts ∨
      s.supply > input.initialSupplyRaw) := by
    have := h.supply_le
    rintro (hne | hlt)
    · exact hne rfl
    · omega
  have hbefore : ∀ a ∈ touchedAccounts ts,
      balanceOf (balancesBefore stored (touchedAccounts ts)) a = balanceOf s.balances a :=
    fun a ha => balanceOf_balancesBefore h.row ha
  unfold updateHolders throwIf
  rw [revertIf_neg hguard, ok_bind]
  dsimp only
  rcases advance_batch hburn (touches_touchedAccounts ts) h.sound hbefore with
    ⟨s', after, hreplay, hadvance, hsound, hafter, hoff, hsupply, hlength⟩ | ⟨hreplay, e, he⟩
  · rw [hadvance, ok_bind]
    dsimp only
    -- the new rows: those of the touched accounts are settled, the others are as before
    generalize hw : (touchedAccounts ts).foldl (settleAccount input.excludedAccounts
      (balancesBefore stored (touchedAccounts ts)) after) _ = w
    have hrow : ∀ a, (w.saved.foldl (fun rows row => rows.insert row.1 row.2) w.rows).lookup a
        = rowOf input.excludedAccounts a (balanceOf s'.balances a) := by
      intro a
      rw [← hw, settle_lookup _ rfl]
      split_ifs with hmem
      · rw [hafter a hmem]
      · rw [hoff a hmem]
        exact h.row a
    have hsame : ∀ a, a ∉ touchedAccounts ts →
        (w.saved.foldl (fun rows row => rows.insert row.1 row.2) w.rows).lookup a
          = stored.balances.lookup a := by
      intro a ha
      rw [hrow, h.row, hoff a ha]
    have hpositive : w.positive = Table.total (fun _ _ => 1)
        (w.saved.foldl (fun rows row => rows.insert row.1 row.2) w.rows) := by
      rw [← hw, settle_positive, hw, Table.total_eq_off _ hnodup hsame]
      refine congrArg _ (congrArg List.sum (List.map_congr_left fun a ha => ?_))
      rw [hrow, h.row, ← hafter a ha, ← hbefore a ha, rowOf_holds, rowOf_holds]
    have hincluded : w.included = Table.total (fun _ row => if row.excluded then 0 else 1)
        (w.saved.foldl (fun rows row => rows.insert row.1 row.2) w.rows) := by
      rw [← hw, settle_included, hw, Table.total_eq_off _ hnodup hsame]
      refine congrArg _ (congrArg List.sum (List.map_congr_left fun a ha => ?_))
      rw [hrow, h.row, ← hafter a ha, ← hbefore a ha, rowOf_includes, rowOf_includes]
      split_ifs
      · rfl
      · rfl
    have hsave := @saveSnapshot_isOk input.excludedAccounts
      (w.saved.foldl (fun rows row => rows.insert row.1 row.2) w.rows)
      (by
        have hle := @length_le_of_row _ s' ⟨_, none⟩ hrow
        have := h.length_le
        dsimp only at hle
        omega) s'.supply
    rw [← hpositive, ← hincluded] at hsave
    rw [hsave, ok_bind]
    refine Or.inl ⟨s', _, hreplay, rfl, ⟨⟨hrow, ?_⟩, hsound, hsupply.trans h.supply_le, ?_⟩⟩
    · dsimp only
      rw [← hpositive, ← hincluded]
    · have := h.length_le
      omega
  · rw [he]
    exact Or.inr ⟨hreplay, e, rfl⟩

end Update

/-! ### The end of a rebuild -/

/-- A row of a snapshot, as an entry of a table. -/
def HolderBalance.entry (r : HolderBalance) : Sigma fun _ : Address => HolderRow :=
  ⟨r.account, r.balanceRaw, r.excluded⟩

/-- **The facts of a snapshot** of a replay: its rows are the positive balances, each account
once, and its counts are those of its rows. -/
structure HolderSnapshot.Sound (snapshot : HolderSnapshot) (exclusions : List Address)
    (s : HolderReplay) : Prop where
  supply_eq : snapshot.totalSupplyRaw = s.supply
  positive_eq : snapshot.positiveAddressCount = snapshot.balances.length
  included_eq : snapshot.includedAddressCount
    = (snapshot.balances.filter fun row => !row.excluded).length
  nodup : (snapshot.balances.map HolderBalance.account).Nodup
  mem_iff : ∀ a row, ({ account := a, balanceRaw := row.balanceRaw, excluded := row.excluded }
    : HolderBalance) ∈ snapshot.balances
      ↔ rowOf exclusions a (balanceOf s.balances a) = some row

/-- **A sound replay has a snapshot**: its supply reconciles. -/
theorem finishSnapshot_isOk {input : HolderInput} {s : HolderReplay} (hs : s.Sound) :
    ∃ snapshot, finishSnapshot input s = .ok snapshot ∧
      snapshot.Sound input.excludedAccounts s := by
  have hsum : (((Table.rows BitVec.toNat s.balances).filter fun row => 0 < row.2).map
      fun row => (row.2 : ℤ)).sum = s.supply := by
    rw [← hs, Table.total, Table.rows]
    have hperm := (List.perm_insertionSort (fun x y : Address × ℕ => x.1.toNat ≤ y.1.toNat)
      (s.balances.entries.map fun e => (e.1, e.2))).filter fun row => 0 < row.2
    rw [(hperm.map fun row => (row.2 : ℤ)).sum_eq]
    induction s.balances.entries with
    | nil => rfl
    | cons e l ih =>
      rw [List.map_cons, List.map_cons, List.sum_cons, ← ih]
      by_cases he : 0 < e.2
      · rw [List.filter_cons_of_pos (by simpa using he)]
        rfl
      · rw [List.filter_cons_of_neg (by simpa using he)]
        simp [Nat.eq_zero_of_not_pos he]
  unfold finishSnapshot throwIf
  dsimp only
  rw [revertIf_neg (not_not.mpr hsum), ok_bind]
  refine ⟨_, rfl, rfl, rfl, rfl, ?_, fun a row => ?_⟩
  · dsimp only
    rw [List.map_map]
    exact (Table.nodup_rows BitVec.toNat s.balances).sublist
      (List.filter_sublist.map Prod.fst)
  · dsimp only
    rw [List.mem_map]
    constructor
    · rintro ⟨⟨a', b⟩, hmem, heq⟩
      obtain ⟨hrow, hpos⟩ := List.mem_filter.mp hmem
      rw [Table.mem_rows] at hrow
      obtain ⟨rfl, hb, he⟩ := HolderBalance.mk.injEq .. ▸ heq
      dsimp only at hb he hpos hrow
      rw [rowOf, balanceOf, hrow, Option.getD_some, if_pos (of_decide_eq_true hpos)]
      cases row
      exact congrArg some (HolderRow.mk.injEq .. ▸ ⟨hb, he⟩)
    · rw [rowOf]
      split_ifs with hpos
      · intro heq
        obtain rfl := Option.some.inj heq
        refine ⟨(a, balanceOf s.balances a), List.mem_filter.mpr ⟨?_, decide_eq_true hpos⟩, rfl⟩
        rw [Table.mem_rows]
        rw [balanceOf] at hpos ⊢
        cases hlookup : s.balances.lookup a with
        | none =>
          rw [hlookup] at hpos
          exact absurd hpos (lt_irrefl 0)
        | some b => rfl
      · exact False.elim

section Snapshot

variable {exclusions : List Address} {s : HolderReplay} {snapshot : HolderSnapshot}
  {m : Table Address HolderRow}

/-- A table with the rows of a snapshot has its entries. -/
theorem perm_entries (h : snapshot.Sound exclusions s)
    (hrow : ∀ a, m.lookup a = rowOf exclusions a (balanceOf s.balances a)) :
    (snapshot.balances.map HolderBalance.entry).Perm m.entries := by
  have hnodup : (snapshot.balances.map HolderBalance.entry).Nodup := by
    refine List.Nodup.of_map Sigma.fst ?_
    rw [List.map_map]
    exact h.nodup
  refine (List.perm_ext_iff_of_nodup hnodup m.nodupKeys.nodup).mpr ?_
  rintro ⟨a, row⟩
  rw [← AList.mem_lookup_iff, Option.mem_def, hrow, ← h.mem_iff, List.mem_map]
  constructor
  · rintro ⟨⟨a', b, e⟩, hmem, heq⟩
    cases heq
    exact hmem
  · exact fun hmem => ⟨_, hmem, rfl⟩

/-- **The counts of a snapshot** are those of a table with its rows. -/
theorem counts_eq (h : snapshot.Sound exclusions s)
    (hrow : ∀ a, m.lookup a = rowOf exclusions a (balanceOf s.balances a)) :
    Table.total (fun _ _ => 1) m = snapshot.positiveAddressCount ∧
      Table.total (fun _ row => if row.excluded then 0 else 1) m = snapshot.includedAddressCount := by
  have hperm := perm_entries h hrow
  constructor
  · rw [total_one, h.positive_eq, ← hperm.length_eq, List.length_map]
  · rw [total_indicator HolderRow.excluded, h.included_eq,
      ← (hperm.filter fun e => !e.2.excluded).length_eq, List.filter_map, List.length_map]
    rfl

/-- Holders that are those of a replay are those of its snapshot. -/
theorem Shows.holds {stored : StoredHolders} (hshows : Shows exclusions s stored)
    (h : snapshot.Sound exclusions s) : stored.Holds exclusions snapshot := by
  obtain ⟨hpositive, hincluded⟩ := counts_eq h hshows.row
  refine ⟨fun a row => ?_, ?_⟩
  · rw [hshows.row, h.mem_iff]
  · rw [hshows.state, hpositive, hincluded, h.supply_eq]

/-- **What is stored of a snapshot.** -/
theorem load_shows (h : snapshot.Sound exclusions s) :
    Shows exclusions s {
      balances := snapshot.balances.foldl (fun rows balance =>
        rows.insert balance.account ⟨balance.balanceRaw, balance.excluded⟩) ∅
      snapshot := some {
        totalSupplyRaw := snapshot.totalSupplyRaw
        positiveAddressCount := snapshot.positiveAddressCount
        includedAddressCount := snapshot.includedAddressCount
        excludedAccounts := exclusions } } := by
  have hrow : ∀ a, (snapshot.balances.foldl (fun rows balance =>
      rows.insert balance.account ⟨balance.balanceRaw, balance.excluded⟩)
        (∅ : Table Address HolderRow)).lookup a = rowOf exclusions a (balanceOf s.balances a) := by
    intro a
    have hfold : snapshot.balances.foldl (fun rows balance =>
        rows.insert balance.account ⟨balance.balanceRaw, balance.excluded⟩)
          (∅ : Table Address HolderRow)
        = (snapshot.balances.map fun r => (r.account, (⟨r.balanceRaw, r.excluded⟩ : HolderRow))).foldl
          (fun m x => m.insert x.1 x.2) ∅ := by
      rw [List.foldl_map]
    have hnodup : ((snapshot.balances.map fun r =>
        (r.account, (⟨r.balanceRaw, r.excluded⟩ : HolderRow))).map Prod.fst).Nodup := by
      rw [List.map_map]
      exact h.nodup
    ext row
    rw [hfold, Table.lookup_foldl_insert hnodup, ← h.mem_iff, List.mem_map]
    constructor
    · rintro ⟨⟨a', b, e⟩, hmem, heq⟩
      cases heq
      exact hmem
    · exact fun hmem => ⟨_, hmem, rfl⟩
  obtain ⟨hpositive, hincluded⟩ := counts_eq h hrow
  refine ⟨hrow, ?_⟩
  dsimp only
  rw [hpositive, hincluded, h.supply_eq]

end Snapshot

/-! ### The loop of a rebuild -/

section Replay

variable {input : HolderInput}

/-- A transfer the service may find in a history of the token. -/
def ValidTransfer (input : HolderInput) (t : HolderTransfer) : Prop :=
  t.source.chainId = input.chainId ∧ t.source.emitter = input.token ∧ t.value < 2 ^ 256

theorem checkTransfer_isOk {seen : List EventKey} {t : HolderTransfer} (h : ValidTransfer input t)
    (hnew : t.source.eventKey ∉ seen) : checkTransfer input seen t = .ok () := by
  obtain ⟨hchain, htoken, hvalue⟩ := h
  unfold checkTransfer throwIf
  rw [revertIf_neg (by simp [hchain, htoken, hnew]), ok_bind,
    revertIf_neg (Nat.not_le.mpr hvalue)]

/-- After the first transfer, the loop replays a history of distinct events. -/
theorem replayTransfer_foldlM {ts : List HolderTransfer} (hvalid : ∀ t ∈ ts, ValidTransfer input t)
    (hnodup : (ts.map fun t => t.source.eventKey).Nodup) {seen : List EventKey}
    (hnew : ∀ t ∈ ts, t.source.eventKey ∉ seen) {i : ℕ} (hi : i ≠ 0) (s : HolderReplay) :
    ((ts.zipIdx i).foldlM (replayTransfer input) (s, seen)).map Prod.fst
      = ts.foldlM (HolderReplay.move input) s := by
  induction ts generalizing seen i s with
  | nil => rfl
  | cons t ts ih =>
    obtain ⟨ht, hts⟩ := List.nodup_cons.mp hnodup
    rw [List.zipIdx_cons, List.foldlM_cons, List.foldlM_cons, replayTransfer,
      checkTransfer_isOk (hvalid t List.mem_cons_self) (hnew t List.mem_cons_self), ok_bind,
      if_neg hi]
    cases hmove : s.move input t with
    | error e => rfl
    | ok u =>
      refine ih (fun t' h' => hvalid t' (List.mem_cons_of_mem t h')) hts (fun t' h' => ?_)
        (Nat.succ_ne_zero i) u
      rw [List.mem_cons, not_or]
      refine ⟨fun heq => ht (List.mem_map.mpr ⟨t', h', heq⟩), hnew t' (List.mem_cons_of_mem t h')⟩

/-- A replay of a history that begins with a mint. -/
def replayHistory (input : HolderInput) (t : HolderTransfer) (ts : List HolderTransfer) :
    Except JsError HolderReplay := do
  checkHolderInput input
  let minted ← HolderReplay.mint input { balances := ∅, supply := 0 } t
  ts.foldlM (HolderReplay.move input) minted

theorem replayHistory_append (t : HolderTransfer) (ts us : List HolderTransfer) :
    replayHistory input t (ts ++ us)
      = replayHistory input t ts >>= fun s => us.foldlM (HolderReplay.move input) s := by
  unfold replayHistory
  cases checkHolderInput input with
  | error e => rfl
  | ok u =>
    cases HolderReplay.mint input { balances := ∅, supply := 0 } t with
    | error e => rfl
    | ok minted => exact List.foldlM_append

/-- **A rebuild, step by step**: the checks, the mint, the moves and the end. -/
theorem rebuildHolderSnapshot_eq {t : HolderTransfer} {ts : List HolderTransfer}
    (hperm : input.transfers.Perm (t :: ts))
    (hordered : (t :: ts).Pairwise fun a b => compareSources a.source b.source < 0)
    (hvalid : ∀ t' ∈ t :: ts, ValidTransfer input t')
    (hnodup : ((t :: ts).map fun t => t.source.eventKey).Nodup) :
    rebuildHolderSnapshot input = replayHistory input t ts >>= finishSnapshot input := by
  obtain ⟨ht, hts⟩ := List.nodup_cons.mp hnodup
  unfold replayHistory
  rw [rebuildHolderSnapshot, orderedTransfers_eq hperm hordered, List.zipIdx_cons,
    List.foldlM_cons, replayTransfer, checkTransfer_isOk (hvalid t List.mem_cons_self)
      List.not_mem_nil, ok_bind, if_pos rfl]
  cases hmint : HolderReplay.mint input { balances := ∅, supply := 0 } t with
  | error e => cases checkHolderInput input <;> rfl
  | ok minted =>
    have hloop := replayTransfer_foldlM (fun t' h' => hvalid t' (List.mem_cons_of_mem t h')) hts
      (fun t' h' hmem => ht (List.mem_map.mpr
        ⟨t', h', List.mem_singleton.mp hmem⟩)) (Nat.succ_ne_zero 0) minted
    cases checkHolderInput input with
    | error e => rfl
    | ok u =>
      change ((ts.zipIdx (0 + 1)).foldlM (replayTransfer input) (minted, [t.source.eventKey]) >>=
        fun state => finishSnapshot input state.1)
          = (ts.foldlM (HolderReplay.move input) minted >>= finishSnapshot input)
      rw [← hloop]
      cases (ts.zipIdx (0 + 1)).foldlM (replayTransfer input) (minted, [t.source.eventKey]) <;> rfl

/-- The mint is sound. -/
theorem mint_sound {s : HolderReplay} {t : HolderTransfer}
    (h : HolderReplay.mint input { balances := ∅, supply := 0 } t = .ok s) :
    s.Sound ∧ s.supply = input.initialSupplyRaw ∧ s.balances.entries.length ≤ 1 := by
  simp only [HolderReplay.mint, throwIf, bind_eq_ok, revertIf_eq_ok, pure_eq_ok, Except.ok.injEq,
    not_or, not_not] at h
  obtain ⟨-, ⟨-, -, hvalue⟩, rfl⟩ := h
  refine ⟨?_, by rw [hvalue], ?_⟩
  · unfold HolderReplay.Sound
    rw [total_insert_balance, Table.total_empty]
    simp [balanceOf]
  · exact (length_insert_le _ _ _).trans_eq rfl

end Replay

/-! ### The first batch -/

section Load

variable {catalog : Catalog} {chainId : ℕ} {market : HolderMarket}

/-- **The first batch is stored as it is replayed**, or fails in both. -/
theorem load_tracks {t : HolderTransfer} {ts : List HolderTransfer}
    (hordered : (t :: ts).Pairwise fun a b => compareSources a.source b.source < 0)
    (hvalid : ∀ t' ∈ t :: ts, ValidTransfer (holderInput catalog chainId market (t :: ts)) t')
    (hnodup : ((t :: ts).map fun t => t.source.eventKey).Nodup)
    (hbound : 2 * (1 + ts.length) ≤ maxSafeInteger) :
    (∃ s stored, replayHistory (holderInput catalog chainId market (t :: ts)) t ts = .ok s ∧
      loadHolders catalog chainId market ⟨∅, none⟩ (t :: ts) = .ok stored ∧
      Tracks (holderInput catalog chainId market (t :: ts)) (1 + ts.length) s stored) ∨
    ((∃ e, replayHistory (holderInput catalog chainId market (t :: ts)) t ts = .error e) ∧
      ∃ e, loadHolders catalog chainId market ⟨∅, none⟩ (t :: ts) = .error e) := by
  unfold loadHolders throwIf
  rw [revertIf_neg (by simp), ok_bind,
    rebuildHolderSnapshot_eq (List.Perm.refl _) hordered hvalid hnodup]
  cases hreplay : replayHistory (holderInput catalog chainId market (t :: ts)) t ts with
  | error e => exact Or.inr ⟨⟨e, rfl⟩, e, rfl⟩
  | ok s =>
    obtain ⟨-, -, minted, hmint, hmoves⟩ : ∃ u, checkHolderInput _ = .ok u ∧ ∃ minted,
        HolderReplay.mint _ _ t = .ok minted ∧
        ts.foldlM (HolderReplay.move (holderInput catalog chainId market (t :: ts))) minted
          = .ok s := by
      simpa only [replayHistory, bind_eq_ok] using hreplay
    obtain ⟨hminted, hsupply, hlength⟩ := mint_sound hmint
    -- what the moves keep, read off the batch lemma for the balances themselves
    have hburn : (holderInput catalog chainId market (t :: ts)).allowSelfBurn = true := rfl
    have hsame : ∀ a ∈ touchedAccounts ts,
        balanceOf minted.balances a = balanceOf minted.balances a := fun _ _ => rfl
    rcases advance_batch hburn (touches_touchedAccounts ts) hminted hsame with
      ⟨s', -, hs', -, hsound, -, -, hle, hlen⟩ | ⟨⟨e, he⟩, -⟩
    · obtain rfl := Except.ok.inj (hs'.symm.trans hmoves)
      obtain ⟨snapshot, hfinish, hsnapshot⟩ :=
        @finishSnapshot_isOk (holderInput catalog chainId market (t :: ts)) s' hsound
      have hshows := load_shows hsnapshot
      obtain ⟨hpositive, hincluded⟩ := counts_eq hsnapshot hshows.row
      have hrows := length_le_of_row hshows.row
      have hsave := @saveSnapshot_isOk (marketExclusions catalog market) _
        (hrows.trans (by omega)) snapshot.totalSupplyRaw
      rw [hpositive, hincluded] at hsave
      rw [ok_bind, hfinish, ok_bind, hsave, ok_bind]
      refine Or.inl ⟨s', _, rfl, rfl, hshows, hsound, ?_, by omega⟩
      rw [hsupply] at hle
      exact hle
    · rw [hmoves] at he
      cases he

end Load

/-! ### Histories in batches -/

/-- A transfer event, with the transfer it is. -/
structure TransferLog (chainId : ℕ) where
  observation : EventObservation
  transfer : HolderTransfer
  decoded : transferFromObservation observation chainId = .ok transfer

/-- **A history of the transfers of a token**: its events in the order of their positions in
the chain, each of which is there once. -/
structure TransferHistory {chainId : ℕ} (token : Address) (logs : List (TransferLog chainId)) :
    Prop where
  emitted : ∀ l ∈ logs, l.transfer.source.emitter = token
  ordered : logs.Pairwise fun a b => compareSources a.transfer.source b.transfer.source < 0
  keys : (logs.map fun l => l.transfer.source.eventKey).Nodup

section History

variable {catalog : Catalog} {chainId : ℕ} {market : HolderMarket}

/-- The holders of a market after some batches. -/
def advanceBatches (catalog : Catalog) (market : HolderMarket)
    (batches : List (List (TransferLog chainId))) (stored : StoredHolders) :
    Except JsError StoredHolders :=
  batches.foldlM (fun stored batch =>
    advanceHolders catalog chainId market stored (batch.map TransferLog.observation)) stored

/-- The transfer of an event is one of its chain, of a word. -/
theorem TransferLog.valid (l : TransferLog chainId) :
    l.transfer.source.chainId = chainId ∧ l.transfer.value < 2 ^ 256 := by
  have h := l.decoded
  simp only [transferFromObservation, throwIf, bind_eq_ok, pure_eq_ok, Except.ok.injEq] at h
  obtain ⟨-, -, src, hsrc, f, -, g, -, value, hvalue, heq⟩ := h
  simp only [source, bind_eq_ok, pure_eq_ok, Except.ok.injEq] at hsrc
  obtain ⟨_, -, _, -, rfl⟩ := hsrc
  rw [← heq]
  refine ⟨rfl, ?_⟩
  dsimp only
  unfold uint256 at hvalue
  split at hvalue
  · split_ifs at hvalue with hneg hmax
    · cases hvalue
    · cases hvalue
    · obtain rfl := Except.ok.inj hvalue
      omega
  · cases hvalue

theorem advanceHolders_eq (stored : StoredHolders) (batch : List (TransferLog chainId)) :
    advanceHolders catalog chainId market stored (batch.map TransferLog.observation)
      = match stored.snapshot with
        | none => loadHolders catalog chainId market stored (batch.map TransferLog.transfer)
        | some current => updateHolders (marketExclusions catalog market) market.initialSupply
            stored current (batch.map TransferLog.transfer) := by
  have hdecoded : (batch.map TransferLog.observation).mapM
      (fun observation => transferFromObservation observation chainId)
        = .ok (batch.map TransferLog.transfer) := by
    induction batch with
    | nil => rfl
    | cons l batch ih =>
      rw [List.map_cons, List.mapM_cons, l.decoded, ok_bind, ih]
      rfl
  rw [advanceHolders, hdecoded]
  rfl

/-- **Later batches are applied as they are replayed**, or fail in both. -/
theorem batches_track {input : HolderInput} (hburn : input.allowSelfBurn = true)
    (hexclusions : input.excludedAccounts = marketExclusions catalog market)
    (hsupply : input.initialSupplyRaw = market.initialSupply)
    {batches : List (List (TransferLog chainId))} {n : ℕ} {s : HolderReplay}
    {stored : StoredHolders} (h : Tracks input n s stored)
    (hbound : 2 * (n + batches.flatten.length) ≤ maxSafeInteger) :
    (∃ m s' stored', (batches.flatten.map TransferLog.transfer).foldlM
        (HolderReplay.move input) s = .ok s' ∧
      advanceBatches catalog market batches stored = .ok stored' ∧ Tracks input m s' stored') ∨
    ((∃ e, (batches.flatten.map TransferLog.transfer).foldlM
        (HolderReplay.move input) s = .error e) ∧
      ∃ e, advanceBatches catalog market batches stored = .error e) := by
  induction batches generalizing n s stored with
  | nil => exact Or.inl ⟨n, s, stored, rfl, rfl, h⟩
  | cons batch batches ih =>
    rw [List.flatten_cons, List.length_append] at hbound
    rw [List.flatten_cons, List.map_append, List.foldlM_append, advanceBatches, List.foldlM_cons,
      advanceHolders_eq, h.state]
    dsimp only
    rw [← hexclusions, ← hsupply]
    have hbatch : 2 * (n + (batch.map TransferLog.transfer).length) ≤ maxSafeInteger := by
      rw [List.length_map]
      omega
    rcases update_tracks hburn h hbatch h.state with
      ⟨u, stored', hu, hstored', htracks⟩ | ⟨⟨e, he⟩, e', he'⟩
    · rw [hu, hstored', ok_bind, ok_bind]
      rw [List.length_map] at htracks
      exact ih htracks (by omega)
    · rw [he, he']
      exact Or.inr ⟨⟨e, rfl⟩, e', rfl⟩

/-- A replay of a market does not depend on how many transfers there are, up to the bound. -/
theorem replayHistory_congr {xs ys : List HolderTransfer} (hx : 0 < xs.length)
    (hxmax : xs.length ≤ 1000000) (hy : 0 < ys.length) (hymax : ys.length ≤ 1000000)
    (t : HolderTransfer) (ts : List HolderTransfer) :
    replayHistory (holderInput catalog chainId market xs) t ts
      = replayHistory (holderInput catalog chainId market ys) t ts := by
  have hcheck : checkHolderInput (holderInput catalog chainId market xs)
      = checkHolderInput (holderInput catalog chainId market ys) := by
    unfold checkHolderInput holderInput throwIf
    dsimp only
    simp only [hx.ne', hy.ne', Nat.not_lt.mpr hxmax, Nat.not_lt.mpr hymax, gt_iff_lt]
  rw [replayHistory, replayHistory, hcheck]
  rfl

/-- **Incremental holders equal a rebuild.** Let the history of the transfers of a token, of no
more events than a rebuild accepts, be cut into a first batch that is not empty and any number
of later ones. A rebuild does not depend on the order the transfers are supplied in; the
batches are accepted exactly when the rebuild of the whole history is; and then they have
stored its balances, its supply and its counts. -/
theorem advance_eq_rebuild {first : List (TransferLog chainId)}
    {batches : List (List (TransferLog chainId))}
    (hhistory : TransferHistory market.memeToken (first :: batches).flatten) (hfirst : first ≠ [])
    (hbound : (first :: batches).flatten.length ≤ 1000000) {supplied : List HolderTransfer}
    (hperm : supplied.Perm ((first :: batches).flatten.map TransferLog.transfer)) :
    rebuildHolderSnapshot (holderInput catalog chainId market supplied)
      = rebuildHolderSnapshot (holderInput catalog chainId market
          ((first :: batches).flatten.map TransferLog.transfer)) ∧
    (∀ stored, advanceBatches catalog market (first :: batches) ⟨∅, none⟩ = .ok stored →
      ∃ snapshot, rebuildHolderSnapshot (holderInput catalog chainId market supplied)
          = .ok snapshot ∧ stored.Holds (marketExclusions catalog market) snapshot) ∧
    ∀ snapshot, rebuildHolderSnapshot (holderInput catalog chainId market supplied) = .ok snapshot →
      ∃ stored, advanceBatches catalog market (first :: batches) ⟨∅, none⟩ = .ok stored ∧
        stored.Holds (marketExclusions catalog market) snapshot := by
  obtain ⟨l, ls, rfl⟩ := List.exists_cons_of_ne_nil hfirst
  have hwhole : ((l :: ls) :: batches).flatten.map TransferLog.transfer
      = l.transfer :: (ls.map TransferLog.transfer ++ batches.flatten.map TransferLog.transfer) := by
    rw [List.flatten_cons, List.map_append, List.map_cons, List.cons_append]
  have hlength := congrArg List.length hwhole
  rw [List.length_map] at hlength
  have hordered : (((l :: ls) :: batches).flatten.map TransferLog.transfer).Pairwise
      fun a b => compareSources a.source b.source < 0 := List.pairwise_map.mpr hhistory.ordered
  have hnodup : ((((l :: ls) :: batches).flatten.map TransferLog.transfer).map
      fun t => t.source.eventKey).Nodup := by
    rw [List.map_map]
    exact hhistory.keys
  have hvalid : ∀ xs, ∀ t ∈ ((l :: ls) :: batches).flatten.map TransferLog.transfer,
      ValidTransfer (holderInput catalog chainId market xs) t := by
    intro xs t ht
    obtain ⟨l', hl', rfl⟩ := List.mem_map.mp ht
    exact ⟨l'.valid.1, hhistory.emitted l' hl', l'.valid.2⟩
  rw [hwhole] at hperm hordered hnodup hvalid
  rw [hwhole]
  generalize hfirsts : ls.map TransferLog.transfer = ts at *
  generalize hlaters : batches.flatten.map TransferLog.transfer = us at *
  have hlen := hperm.length_eq
  simp only [List.length_cons, List.length_append] at hlength hlen
  have hfirstLength : (l.transfer :: ts).length = ts.length + 1 := rfl
  -- the rebuild of the whole history, in whatever order, goes on where that of the first batch ends
  have hrebuild : ∀ xs : List HolderTransfer, xs.Perm (l.transfer :: (ts ++ us)) →
      rebuildHolderSnapshot (holderInput catalog chainId market xs)
        = (replayHistory (holderInput catalog chainId market (l.transfer :: ts)) l.transfer ts >>=
            fun s => us.foldlM (HolderReplay.move
              (holderInput catalog chainId market (l.transfer :: ts))) s) >>=
            finishSnapshot (holderInput catalog chainId market (l.transfer :: ts)) := by
    intro xs hxs
    have hxsLength := hxs.length_eq
    simp only [List.length_cons, List.length_append] at hxsLength
    rw [rebuildHolderSnapshot_eq hxs hordered (hvalid xs) hnodup, ← replayHistory_append,
      @replayHistory_congr _ _ _ xs (l.transfer :: ts) (by omega) (by omega) (by omega) (by omega)]
    rfl
  refine ⟨(hrebuild supplied hperm).trans (hrebuild _ (List.Perm.refl _)).symm, ?_⟩
  rw [hrebuild supplied hperm, advanceBatches, List.foldlM_cons, advanceHolders_eq, List.map_cons,
    hfirsts]
  dsimp only
  have hsub : (l.transfer :: ts).Sublist (l.transfer :: (ts ++ us)) :=
    (List.sublist_append_left ts us).cons_cons _
  rcases @load_tracks catalog chainId market l.transfer ts (hordered.sublist hsub)
    (fun t' ht' => hvalid _ t' (hsub.subset ht')) (hnodup.sublist (hsub.map _))
    (by rw [maxSafeInteger]; omega) with
    ⟨s, stored, hreplay, hload, htracks⟩ | ⟨⟨e, he⟩, e', he'⟩
  · have hlater : 2 * (1 + ts.length + batches.flatten.length) ≤ maxSafeInteger := by
      rw [← hlaters, List.length_map] at hlength
      rw [maxSafeInteger]
      omega
    rw [hreplay, hload, ok_bind, ok_bind]
    rcases batches_track rfl rfl rfl htracks hlater with
      ⟨m, s', stored', hs', hstored', htracks'⟩ | ⟨⟨e, he⟩, e', he'⟩
    · rw [hlaters] at hs'
      obtain ⟨snapshot, hfinish, hsnapshot⟩ :=
        @finishSnapshot_isOk (holderInput catalog chainId market (l.transfer :: ts)) s' htracks'.sound
      have hholds := htracks'.toShows.holds hsnapshot
      rw [advanceBatches] at hstored'
      rw [hs', hstored', ok_bind, hfinish]
      refine ⟨fun _ h => ?_, fun _ h => ?_⟩
      · obtain rfl := Except.ok.inj h
        exact ⟨snapshot, rfl, hholds⟩
      · obtain rfl := Except.ok.inj h
        exact ⟨stored', rfl, hholds⟩
    · rw [hlaters] at he
      rw [advanceBatches] at he'
      rw [he, he']
      exact ⟨fun _ h => (nomatch h), fun _ h => (nomatch h)⟩
  · rw [he, he']
    exact ⟨fun _ h => (nomatch h), fun _ h => (nomatch h)⟩

end History

/-! ### A small history

A token of supply 1000, minted to its curve 7, some of which goes to account 20. -/

namespace HolderSample

/-- The market of the sample. -/
def market : HolderMarket where
  memeToken := 5
  curve := 7
  gauge := 0
  hook := 0x2044
  initialSupply := 1000

/-- The contracts of the protocol, which are not holders. -/
def catalog : Catalog where
  holderRewardsDistributor := 30
  protocolFeeVault := 8
  uniswapV4PoolManager := 31
  tickerGardenFactory := 32

/-- The transfer event in a block. -/
def observation (block : ℕ) (sender recipient : Address) (amount : ℕ) : EventObservation where
  event := {
    module := .tickerMemeToken
    eventName := .transfer
    args := args [(.fromAccount, .address sender), (.toAccount, .address recipient),
      (.value, .bigint amount)]
    log := {
      address := 5, blockHash := 1, blockNumber := block, transactionHash := 1,
      transactionIndex := 0, logIndex := block % 2 ^ 53,
      transactionIndex_le := Nat.zero_le _
      logIndex_le := Nat.le_of_lt_succ (Nat.mod_lt _ (by decide)) } }
  timestamp := 0

/-- It, with its transfer. -/
def log (block : ℕ) (sender recipient : Address) (amount : ℕ) (h : amount < 2 ^ 256) :
    TransferLog 46630 where
  observation := observation block sender recipient amount
  transfer := {
    source := {
      chainId := 46630, blockNumber := block, blockHash := 1, transactionHash := 1,
      transactionIndex := 0, logIndex := block % 2 ^ 53, emitter := 5,
      eventKey := (46630, 1, block % 2 ^ 53) }
    fromAccount := sender, toAccount := recipient, value := amount }
  decoded := by
    have hvalue : uint256 (some (.bigint amount)) "transfer value" = .ok amount := by
      unfold uint256
      dsimp only
      rw [if_neg (by omega), if_neg (by omega), Int.toNat_natCast]
    unfold transferFromObservation throwIf
    rw [revertIf_neg (by simp [observation]), ok_bind]
    unfold source
    dsimp only
    rw [safeNumber_transactionIndex, ok_bind, safeNumber_logIndex, ok_bind]
    change (uint256 (some (.bigint amount)) "transfer value" >>= fun value => pure _) = _
    rw [hvalue]
    rfl

/-- The mint, and a transfer, in the first batch. -/
def first : List (TransferLog 46630) :=
  [log 0 0 7 1000 (by decide), log 1 7 20 600 (by decide)]

/-- A burn and a transfer to oneself, then a transfer of all that is left. -/
def later : List (List (TransferLog 46630)) :=
  [[log 2 20 0 100 (by decide), log 3 20 20 5 (by decide)], [log 4 20 21 500 (by decide)]]

/-- What is stored after all batches. -/
def stored : Except JsError StoredHolders :=
  advanceBatches catalog market (first :: later) ⟨∅, none⟩

theorem stored_isOk : stored.isOk = true := by decide +kernel

theorem history : TransferHistory market.memeToken (first :: later).flatten :=
  ⟨by decide +kernel, by decide +kernel, by decide +kernel⟩

/-- A mint. -/
def mint : TransferLog 46630 := log 0 0 7 1000 (by decide)

/-- Events in which an account sends nothing to itself. -/
def idle (n : ℕ) : List (TransferLog 46630) :=
  (List.range n).map fun i => log (i + 1) 20 20 0 (by decide)

theorem length_idle (n : ℕ) : (idle n).length = n := by rw [idle, List.length_map, List.length_range]

theorem flatten_idle (n : ℕ) : ([mint] :: [idle n]).flatten = mint :: idle n := by
  rw [List.flatten_cons, List.flatten_cons, List.flatten_nil, List.append_nil, List.singleton_append]

theorem history_idle {n : ℕ} (hn : n + 1 < 2 ^ 53) :
    TransferHistory market.memeToken ([mint] :: [idle n]).flatten := by
  rw [flatten_idle]
  refine ⟨fun l hl => ?_, List.pairwise_cons.mpr ⟨fun l hl => ?_, ?_⟩, List.nodup_cons.mpr ⟨?_, ?_⟩⟩
  · rcases List.mem_cons.mp hl with rfl | hl
    · rfl
    · obtain ⟨i, -, rfl⟩ := List.mem_map.mp hl
      rfl
  · obtain ⟨i, -, rfl⟩ := List.mem_map.mp hl
    exact compareSources_lt_iff.mpr (Or.inl (Nat.succ_pos i))
  · refine List.pairwise_map.mpr (List.pairwise_lt_range.imp fun h => ?_)
    exact compareSources_lt_iff.mpr (Or.inl (Nat.succ_lt_succ h))
  · intro hmem
    obtain ⟨l, hl, heq⟩ := List.mem_map.mp hmem
    obtain ⟨i, hi, rfl⟩ := List.mem_map.mp hl
    have hkey : (i + 1) % 2 ^ 53 = 0 % 2 ^ 53 := congrArg (fun k : EventKey => k.2.2) heq
    rw [List.mem_range] at hi
    omega
  · rw [idle, List.map_map]
    refine List.Nodup.map_on ?_ List.nodup_range
    intro i hi j hj heq
    have hkey : (i + 1) % 2 ^ 53 = (j + 1) % 2 ^ 53 := congrArg (fun k : EventKey => k.2.2) heq
    rw [List.mem_range] at hi hj
    omega

theorem load_isOk :
    (loadHolders catalog 46630 market ⟨∅, none⟩ [mint.transfer]).isOk = true := by
  decide +kernel

end HolderSample

open HolderSample

/-- Transfers of nothing are covered. -/
theorem move_idle {input : HolderInput} (hburn : input.allowSelfBurn = true)
    {ts : List HolderTransfer} (h : ∀ t ∈ ts, t.fromAccount ≠ 0 ∧ t.value = 0) (s : HolderReplay) :
    ∃ s', ts.foldlM (HolderReplay.move input) s = .ok s' := by
  induction ts generalizing s with
  | nil => exact ⟨s, rfl⟩
  | cons t ts ih =>
    obtain ⟨hfrom, hvalue⟩ := h t List.mem_cons_self
    have hcovered : Covered (balanceOf s.balances) t := ⟨hfrom, hvalue.le.trans (Nat.zero_le _)⟩
    obtain ⟨u, hu, -⟩ := move_of_covered hburn hcovered
    rw [List.foldlM_cons, hu, ok_bind]
    exact ih (fun t' ht' => h t' (List.mem_cons_of_mem t ht')) u

/-- Idle events are accepted in a batch of their own. -/
theorem advance_idle {n : ℕ} (hn : 2 * (1 + n) ≤ maxSafeInteger) :
    ∃ stored, advanceBatches catalog market ([mint] :: [idle n]) ⟨∅, none⟩ = .ok stored := by
  have hvalid : ∀ t ∈ [mint.transfer],
      ValidTransfer (holderInput catalog 46630 market [mint.transfer]) t := by
    intro t ht
    obtain rfl := List.mem_singleton.mp ht
    exact ⟨rfl, rfl, mint.valid.2⟩
  have hflatten : [idle n].flatten = idle n := by
    rw [List.flatten_cons, List.flatten_nil, List.append_nil]
  rw [advanceBatches, List.foldlM_cons, advanceHolders_eq]
  rcases @load_tracks catalog 46630 market mint.transfer [] (List.pairwise_singleton _ _) hvalid
    (List.nodup_singleton _) (by decide) with ⟨s, stored, -, hstored, htracks⟩ | ⟨-, e, he⟩
  · have hstep : ([mint].map TransferLog.transfer) = [mint.transfer] := rfl
    dsimp only
    rw [hstep, hstored, ok_bind]
    have hlength : 2 * (1 + 0 + [idle n].flatten.length) ≤ maxSafeInteger := by
      rw [hflatten, length_idle]
      exact hn
    rcases batches_track rfl rfl rfl htracks hlength with
      ⟨m, s', stored', -, hs', -⟩ | ⟨⟨e, he⟩, -⟩
    · exact ⟨stored', hs'⟩
    · have hzero : ∀ t ∈ [idle n].flatten.map TransferLog.transfer,
          t.fromAccount ≠ 0 ∧ t.value = 0 := by
        intro t ht
        obtain ⟨l, hl, rfl⟩ := List.mem_map.mp ht
        rw [hflatten] at hl
        obtain ⟨i, -, rfl⟩ := List.mem_map.mp hl
        exact ⟨show (20 : Address) ≠ 0 by decide, rfl⟩
      have hburn : (holderInput catalog 46630 market [mint.transfer]).allowSelfBurn = true := rfl
      obtain ⟨s', hs'⟩ := move_idle hburn hzero s
      rw [he] at hs'
      cases hs'
  · have hload := load_isOk
    rw [he] at hload
    cases hload

/-- **A history longer than a rebuild accepts is still accepted in batches.** -/
theorem rebuild_refuses_long_history :
    ¬ ∀ (first : List (TransferLog 46630)) (batches : List (List (TransferLog 46630))),
      TransferHistory market.memeToken (first :: batches).flatten → first ≠ [] →
      ∀ stored, advanceBatches catalog market (first :: batches) ⟨∅, none⟩ = .ok stored →
        ∃ snapshot, rebuildHolderSnapshot (holderInput catalog 46630 market
          ((first :: batches).flatten.map TransferLog.transfer)) = .ok snapshot := by
  intro h
  have hlength : ∀ n, (([mint] :: [idle n]).flatten.map TransferLog.transfer).length = n + 1 := by
    intro n
    rw [List.length_map, flatten_idle, List.length_cons, length_idle]
  obtain ⟨n, hn⟩ : ∃ n, n = 1000000 := ⟨_, rfl⟩
  obtain ⟨stored, hstored⟩ := @advance_idle n (by rw [hn]; decide)
  obtain ⟨snapshot, hsnapshot⟩ :=
    h [mint] [idle n] (history_idle (by omega)) (List.cons_ne_nil _ _) stored hstored
  simp only [rebuildHolderSnapshot, checkHolderInput, holderInput, throwIf, bind_eq_ok,
    revertIf_eq_ok, hlength] at hsnapshot
  obtain ⟨-, ⟨-, -, -, hbound, -⟩, -⟩ := hsnapshot
  exact hbound (Or.inr (Or.inr (Or.inl (by omega))))

/-- The small history, rebuilt from its transfers in the reverse order. -/
theorem advance_eq_rebuild_sample :
    ∃ snapshot, rebuildHolderSnapshot (holderInput catalog 46630 market
        ((first :: later).flatten.map TransferLog.transfer).reverse) = .ok snapshot ∧
      (value stored stored_isOk).Holds (marketExclusions catalog market) snapshot :=
  (advance_eq_rebuild history (by decide) (by decide) (List.reverse_perm _)).2.1 _
    (eq_ok_value stored_isOk)

end Analytics

end Backend

end TickerGarden
