import TickerGarden.Backend.Projection

/-!
# What an event does to the projection

* **A stage is a copy of the tables** (`TickerGarden.Backend.EventProjection.Stage.view`): what is
  staged is what the tables will be, and each operation on the stage is one insertion into the copy.
* **The order of a map does not matter** where the code looks for one entry, since there is only
  one (`TickerGarden.Backend.EventProjection.run_order`): the markets have distinct curves, and two
  swaps of one transaction have distinct positions.
* **What an event does to the tables of the fees** is one of five cases
  (`TickerGarden.Backend.EventProjection.Effect`); all other events leave these four tables alone.
-/

namespace TickerGarden

open Checked Function

namespace Backend

namespace EventProjection

/-! ### Texts -/

theorem toList_lower (s : String) : (lower s).toList = s.toList.map Char.toLower :=
  String.toList_ofList

/-- A key is made of its parts in lower case. -/
theorem toList_key (parts : List String) : (key parts).toList
    = [':'].intercalate ((parts.map lower).map String.toList) := by
  have hcolon : [':'].map Char.toLower = [':'] := by decide
  have hlower : ∀ l : List (List Char), ([':'].intercalate l).map Char.toLower
      = [':'].intercalate (l.map (List.map Char.toLower)) := by
    intro l
    induction l with
    | nil => rfl
    | cons a l ih =>
      cases l with
      | nil => simp [List.intercalate]
      | cons b l =>
        rw [List.intercalate_cons_cons, List.map_append, List.map_append, ih, hcolon]
        exact List.intercalate_cons_cons.symm
  rw [key, toList_lower, String.toList_intercalate]
  refine (hlower _).trans ?_
  rw [List.map_map, List.map_map]
  congr 1
  exact List.map_congr_left fun s _ => (toList_lower s).symm

/-- Keys do not depend on the case of their parts. -/
theorem key_congr {parts parts' : List String}
    (h : parts.map lower = parts'.map lower) : key parts = key parts' := by
  rw [← String.toList_inj, toList_key, toList_key, h]

theorem equalFold_iff {s t : String} : equalFold s t = true ↔ lower s = lower t :=
  decide_eq_true_iff

@[simp] theorem equalFold_refl (s : String) : equalFold s s = true := equalFold_iff.mpr rfl

theorem equalFold_symm {s t : String} (h : equalFold s t = true) : equalFold t s = true :=
  equalFold_iff.mpr (equalFold_iff.mp h).symm

theorem equalFold_trans {s t u : String} (h : equalFold s t = true) (k : equalFold t u = true) :
    equalFold s u = true :=
  equalFold_iff.mpr ((equalFold_iff.mp h).trans (equalFold_iff.mp k))

theorem eq_empty_of_equalFold {s : String} (h : equalFold "" s = true) : s = "" := by
  have heq := congrArg String.toList (equalFold_iff.mp h)
  rw [toList_lower, toList_lower] at heq
  simpa using heq.symm

theorem natural_toDigits (n : ℕ) : natural (Nat.toDigits 10 n) = some n := by
  have hdigits : (Nat.toDigits 10 n).all Char.isDigit = true := List.all_eq_true.mpr fun c hc =>
    Nat.isDigit_of_mem_toDigits (by omega) (by omega) hc
  rw [natural, if_pos ⟨Nat.toDigits_ne_nil, hdigits⟩, Nat.ofDigitChars_ten_toDigits]

/-- **A number is read back.** -/
theorem bigInt_toString (n : ℤ) : bigInt (toString n) = some n := by
  rw [Int.toString_eq_repr, bigInt]
  cases n with
  | ofNat n =>
    have hread := natural_toDigits n
    have hdigits : ∀ c ∈ Nat.toDigits 10 n, c.isDigit = true := fun c hc =>
      Nat.isDigit_of_mem_toDigits (by omega) (by omega) hc
    rw [Int.repr, Nat.toList_repr]
    -- neither sign is a digit
    split
    next heq => exact nomatch hdigits '-' (heq ▸ List.mem_cons_self)
    next heq => exact nomatch hdigits '+' (heq ▸ List.mem_cons_self)
    next => rw [hread]; rfl
  | negSucc n =>
    rw [Int.repr, String.toList_append, Nat.toList_repr]
    show (natural (Nat.toDigits 10 n.succ)).map (fun n : ℕ => -(n : ℤ)) = some (Int.negSucc n)
    rw [natural_toDigits]
    rfl

/-! ### Orders of a map -/

theorem mem_range {o : MapOrder} {β : Type} {m : Table String β} {e : String × β} :
    e ∈ o.range m ↔ m.lookup e.1 = some e.2 := by
  rw [MapOrder.range, (o.perm _).mem_iff, List.mem_map, ← Option.mem_def, AList.mem_lookup_iff]
  constructor
  · rintro ⟨f, hf, rfl⟩
    exact hf
  · exact fun h => ⟨_, h, rfl⟩

theorem range_perm (o o' : MapOrder) {β : Type} (m : Table String β) :
    (o.range m).Perm (o'.range m) :=
  (o.perm _).trans (o'.perm _).symm

/-- **One entry at most is looked for**, so that it does not matter which comes first. -/
theorem find?_perm {α : Type} {p : α → Bool} {l l' : List α} (h : l.Perm l')
    (hone : ∀ a ∈ l, ∀ b ∈ l, p a = true → p b = true → a = b) : l.find? p = l'.find? p := by
  cases hfind : l.find? p with
  | none =>
    refine (List.find?_eq_none.mpr fun a ha => ?_).symm
    exact List.find?_eq_none.mp hfind a (h.mem_iff.mpr ha)
  | some a =>
    have ha := List.mem_of_find?_eq_some hfind
    obtain ⟨b, hb⟩ := Option.isSome_iff_exists.mp
      (List.find?_isSome.mpr ⟨a, h.mem_iff.mp ha, List.find?_some hfind⟩)
    rw [hb, hone a ha b (h.mem_iff.mpr (List.mem_of_find?_eq_some hb)) (List.find?_some hfind)
      (List.find?_some hb)]

/-- **One entry at most is the greatest.** -/
theorem argmax_perm {α : Type} {f : α → ℕ} {l l' : List α} (h : l.Perm l')
    (hone : ∀ a ∈ l, ∀ b ∈ l, f a = f b → a = b) : l.argmax f = l'.argmax f := by
  cases hmax : l.argmax f with
  | none =>
    rw [List.argmax_eq_none] at hmax
    subst hmax
    rw [← h.nil_eq, List.argmax_nil]
  | some a =>
    have ha := List.argmax_mem hmax
    cases hmax' : l'.argmax f with
    | none =>
      rw [List.argmax_eq_none] at hmax'
      subst hmax'
      exact nomatch h.mem_iff.mp ha
    | some b =>
      have hb := h.mem_iff.mpr (List.argmax_mem hmax')
      have hle := List.le_of_mem_argmax hb hmax
      have hge := List.le_of_mem_argmax (h.mem_iff.mp ha) hmax'
      rw [hone a ha b hb (le_antisymm hge hle)]

/-! ### Values -/

@[simp] theorem lookup_combine (a b : Values) (k : String) :
    (combine a b).lookup k = (b.lookup k).or (a.lookup k) :=
  Table.lookup_union b a k

theorem lookup_fields {entries : List (String × Value)} (hnodup : (entries.map Prod.fst).Nodup)
    {k : String} {v : Value} : (fields entries).lookup k = some v ↔ (k, v) ∈ entries :=
  Table.lookup_foldl_insert hnodup

theorem lookup_fields_eq_none {entries : List (String × Value)}
    (hnodup : (entries.map Prod.fst).Nodup) {k : String} (hk : k ∉ entries.map Prod.fst) :
    (fields entries).lookup k = none :=
  Option.eq_none_iff_forall_ne_some.mpr fun _ hv =>
    hk (List.mem_map_of_mem ((lookup_fields hnodup).mp hv))

/-- What is not among the new values is kept. -/
theorem field_combine_of_none {a b : Values} {k : String} (h : b.lookup k = none) :
    field (combine a b) k = field a k := by
  rw [field, lookup_combine, h, Option.none_or, field]

/-- What is among them is taken from them. -/
theorem field_combine_of_isSome {a b : Values} {k : String} (h : (b.lookup k).isSome = true) :
    field (combine a b) k = field b k := by
  obtain ⟨v, hv⟩ := Option.isSome_iff_exists.mp h
  rw [field, field, lookup_combine, hv, Option.some_or]

theorem field_combine_of_some {a b : Values} {k : String} {v : Value} (h : b.lookup k = some v) :
    field (combine a b) k = v := by
  rw [field, lookup_combine, h, Option.some_or, Option.getD_some]

/-- A text that is the same in both, up to its case, is so in the combination. -/
theorem equalFold_combine {a b : Values} {k : String}
    (h : equalFold (str b k) (str a k) = true) :
    equalFold (str (combine a b) k) (str a k) = true := by
  cases hb : b.lookup k with
  | none => rw [str, field_combine_of_none hb, ← str, equalFold_refl]
  | some v =>
    have heq : str (combine a b) k = str b k := by
      rw [str, str, field_combine_of_some hb, field, hb, Option.getD_some]
    rw [heq]
    exact h

/-- `last`: the arguments of an event, and its signature. -/
abbrev withSignature (a : Values) (signature : String) : Values :=
  combine a (fields [("lastEvent", .text signature)])

theorem lookup_withSignature {a : Values} {signature k : String} (hk : k ≠ "lastEvent") :
    (withSignature a signature).lookup k = a.lookup k := by
  have hnone : (fields [("lastEvent", .text signature)]).lookup k = none :=
    lookup_fields_eq_none (by simp) (by simpa using hk)
  rw [lookup_combine, hnone, Option.none_or]

theorem field_withSignature {a : Values} {signature k : String} (hk : k ≠ "lastEvent") :
    field (withSignature a signature) k = field a k := by
  rw [field, lookup_withSignature hk, ← field]

theorem str_withSignature {a : Values} {signature k : String} (hk : k ≠ "lastEvent") :
    str (withSignature a signature) k = str a k := by
  rw [str, field_withSignature hk, ← str]

theorem isSome_of_str_ne {a : Values} {k : String} (h : str a k ≠ "") :
    (a.lookup k).isSome = true := by
  cases hk : a.lookup k with
  | none =>
    rw [str, field, hk] at h
    exact absurd rfl h
  | some v => rfl

theorem str_claimTotal (a : Values) (total count : ℤ) (first : String) :
    str (claimTotal a total count first) "claimedAmount" = toString total ∧
      str (claimTotal a total count first) "claimCount" = toString count := by
  have hread (k : String) (n : ℤ) (hmem : (k, Value.text (toString n)) ∈
      [("marketId", field a "marketId"), ("feeAsset", field a "feeAsset"),
        ("beneficiaryType", field a "beneficiaryType"), ("beneficiary", field a "beneficiary"),
        ("beneficiaryEpoch", field a "beneficiaryEpoch"),
        ("claimedAmount", .text (toString total)), ("claimCount", .text (toString count)),
        ("firstClaimEventKey", .text first), ("historyComplete", .flag false)]) :
      str (claimTotal a total count first) k = toString n := by
    rw [str, field, claimTotal, (lookup_fields (by simp)).mpr hmem]
    rfl
  exact ⟨hread _ _ (by simp), hread _ _ (by simp)⟩

/-! ### Stages -/

/-- The tables as they are when a stage is committed. -/
def Stage.view (x : Stage) : Tables := x.changes.onto x.state.tables

@[simp] theorem get_eq_view (x : Stage) (t : TableName) (k : String) :
    x.get t k = (x.view.keyed t).lookup k :=
  (Table.lookup_union _ _ _).symm

/-- The tables with a new row in one of them. -/
def Tables.put (t : TableName) (k : String) (row : KeyedRow) (m : Tables) : Tables :=
  { m with keyed := update m.keyed t ((m.keyed t).insert k row) }

@[simp] theorem keyed_put_self (t : TableName) (k : String) (row : KeyedRow) (m : Tables) :
    (m.put t k row).keyed t = (m.keyed t).insert k row :=
  update_self ..

theorem keyed_put_of_ne {t u : TableName} (hne : u ≠ t) (k : String) (row : KeyedRow)
    (m : Tables) : (m.put t k row).keyed u = m.keyed u :=
  update_of_ne hne ..

/-- The row of a swap, in the tables as an event sees them. -/
def Tables.setSwap (k : String) (row : SwapRow) (m : Tables) : Tables :=
  { m with swaps := m.swaps.insert k row }

@[simp] theorem keyed_setSwap (k : String) (row : SwapRow) (m : Tables) :
    (m.setSwap k row).keyed = m.keyed := rfl

theorem view_setSwap (k : String) (row : SwapRow) (x : Stage) :
    (x.setSwap k row).view = x.view.setSwap k row := by
  have hswaps : (x.setSwap k row).view.swaps = x.view.swaps.insert k row := AList.insert_union.symm
  have hview : (x.setSwap k row).view = { x.view with swaps := (x.setSwap k row).view.swaps } := rfl
  rw [hview, hswaps]
  rfl

/-- **A row is staged**: it is put into the copy. -/
theorem view_put (t : TableName) (k : String) (v : Values) (x : Stage) :
    (x.put t k v).view = x.view.put t k ⟨k, v, x.provenance⟩ := by
  have hkeyed (u : TableName) : (x.put t k v).view.keyed u
      = (x.view.put t k ⟨k, v, x.provenance⟩).keyed u := by
    rw [Tables.put, Stage.view, Stage.put, Tables.onto]
    dsimp only
    rcases eq_or_ne u t with rfl | hne
    · rw [update_self, update_self]
      exact (AList.insert_union).symm
    · rw [update_of_ne hne, update_of_ne hne]
      rfl
  have hview : (x.put t k v).view = { x.view with keyed := (x.put t k v).view.keyed } := rfl
  rw [hview, funext hkeyed]
  rfl

/-- The keyed tables that say what fees there are. -/
def feeTables : List TableName := [.feeCredits, .feeClaims, .feeClaimTotals]

/-- Nothing is said of the fees. -/
structure SameFees (m n : Tables) : Prop where
  swaps : n.swaps = m.swaps
  keyed : ∀ t ∈ feeTables, n.keyed t = m.keyed t

theorem SameFees.refl (m : Tables) : SameFees m m := ⟨rfl, fun _ _ => rfl⟩

theorem SameFees.trans {m n k : Tables} (h : SameFees m n) (h' : SameFees n k) : SameFees m k :=
  ⟨h'.swaps.trans h.swaps, fun t ht => (h'.keyed t ht).trans (h.keyed t ht)⟩

/-- What is staged from one stage to another has nothing to do with the fees. -/
structure Quiet (x y : Stage) : Prop where
  state : y.state = x.state
  provenance : y.provenance = x.provenance
  fees : SameFees x.view y.view

namespace Quiet

variable {x y z : Stage}

theorem refl (x : Stage) : Quiet x x := ⟨rfl, rfl, .refl _⟩

theorem trans (h : Quiet x y) (h' : Quiet y z) : Quiet x z :=
  ⟨h'.state.trans h.state, h'.provenance.trans h.provenance, h.fees.trans h'.fees⟩

theorem put (h : Quiet x y) {t : TableName} (ht : t ∉ feeTables) (k : String) (v : Values) :
    Quiet x (y.put t k v) := by
  refine h.trans ⟨rfl, rfl, rfl, fun u hu => ?_⟩
  rw [view_put]
  exact keyed_put_of_ne (fun heq : u = t => ht (heq ▸ hu)) ..

theorem merge (h : Quiet x y) {t : TableName} (ht : t ∉ feeTables) (k : String) (v : Values) :
    Quiet x (y.merge t k v) :=
  h.put ht k _

theorem market (h : Quiet x y) (id : String) (v : Values) : Quiet x (y.market id v) :=
  h.trans ⟨rfl, rfl, rfl, fun _ _ => rfl⟩

theorem config (h : Quiet x y) (kind id status : String) (v : Values) (replace : Bool) :
    Quiet x (y.config kind id status v replace) :=
  h.trans ⟨rfl, rfl, rfl, fun _ _ => rfl⟩

theorem setEvent (h : Quiet x y) (k : String) (row : EventRow) : Quiet x (y.setEvent k row) :=
  h.trans ⟨rfl, rfl, rfl, fun _ _ => rfl⟩

theorem allocationForGauge (h : Quiet x y) (user market : String) (patch : Values) :
    Quiet x (y.allocationForGauge user market patch) := by
  rw [Stage.allocationForGauge]
  split
  · exact h.merge (by decide) _ _
  · exact h

end Quiet

/-- The events that change the tables of the fees. -/
def feeEvents : List EventName :=
  [.stakerFeeCredited, .feeBucketsCredited, .curveFeesSwept, .v4FeeAccrued, .forfeitureReserved,
    .forfeitureReserveConverted, .feeClaimed, .swap]

/-- **All other events** leave these tables alone. -/
theorem quiet_apply {o : MapOrder} {x y : Stage} {name : EventName} {signature : String}
    {a : Values} (hname : name ∉ feeEvents) (h : x.apply o name signature a = .ok y) :
    Quiet x y := by
  have hx := Quiet.refl x
  unfold Stage.apply at h
  obtain ⟨-, -, h⟩ := bind_eq_ok.mp h
  cases name with
  | assetRegistered | quoteAssetConfigAdded | tickerGardenBaselineAdded | launchTemplateAdded
  | assetStatusChanged | quoteAssetStatusChanged | tickerGardenBaselineStatusChanged
  | launchTemplateStatusChanged =>
    obtain rfl := Except.ok.inj h
    exact hx.config ..
  | assetMinimumAllocationChanged =>
    obtain rfl := Except.ok.inj h
    exact hx.config ..
  | stockTokenFingerprintRegistered | assetImplementationAccepted =>
    obtain rfl := Except.ok.inj h
    exact (hx.merge (by decide) _ _).config ..
  | quoteAssetIdentityPinned | stockQuoteConfigBound =>
    obtain ⟨old, -, h⟩ := bind_eq_ok.mp h
    obtain rfl := Except.ok.inj h
    exact hx.config ..
  | marketCreated | marketRegistered | launchPhaseChanged | creatorRevenueEpochInitialized
  | creatorRevenueBeneficiaryUpdated | forfeitureRecordFlushed =>
    obtain rfl := Except.ok.inj h
    exact hx.market ..
  | curveBuy | curveSell | curveBuyRefunded =>
    obtain ⟨id, -, h⟩ := bind_eq_ok.mp h
    obtain rfl := Except.ok.inj h
    exact hx.put (by decide) _ _
  | curveFeeTransferred | donate | activationBucketProcessed =>
    obtain rfl := Except.ok.inj h
    exact hx.put (by decide) _ _
  | curveCompleted =>
    obtain rfl := Except.ok.inj h
    exact (hx.put (by decide) _ _).market ..
  | expectedPoolRegistered | poolBindingActivated | poolGraduated =>
    obtain rfl := Except.ok.inj h
    exact ((hx.merge (by decide) _ _).put (by decide) _ _).market ..
  | stockDeposited | stockWithdrawn | allocationLocked | allocationReleased | allocationRageQuit
  | allocationRageQuitExecuted | gaugeRageQuit | pendingScheduled | pendingRescheduled
  | pendingMaterialized | rawRewardExitRequested | rawRewardExitCancelled =>
    obtain rfl := Except.ok.inj h
    exact hx.merge (by decide) _ _
  | rageQuitRewardSettlementQueued | rageQuitRewardSettlementCompleted =>
    obtain rfl := Except.ok.inj h
    exact (hx.merge (by decide) _ _).merge (by decide) _ _
  | rageQuitRewardSettlementDeferred | rageQuitRewardSettlementFinalized =>
    obtain rfl := Except.ok.inj h
    exact (hx.merge (by decide) _ _).allocationForGauge ..
  | rewardConverted =>
    dsimp only at h
    split at h
    · obtain rfl := Except.ok.inj h
      exact hx.merge (by decide) _ _
    · obtain rfl := Except.ok.inj h
      exact hx
  | forfeitureRecordDeferred =>
    obtain rfl := Except.ok.inj h
    exact (hx.merge (by decide) _ _).market ..
  | other =>
    obtain rfl := Except.ok.inj h
    exact hx
  | stakerFeeCredited | feeBucketsCredited | curveFeesSwept | v4FeeAccrued | forfeitureReserved
  | forfeitureReserveConverted | feeClaimed | swap => exact absurd (by decide) hname

theorem quiet_observe {x y : Stage} {ob : Observation} (h : x.observe ob = .ok y) :
    Quiet x y := by
  rw [Stage.observe] at h
  obtain ⟨-, -, h⟩ := bind_eq_ok.mp h
  obtain ⟨v, -, h⟩ := bind_eq_ok.mp h
  have hx := (Quiet.refl x).put (t := .observations) (by decide) (key [ob.kind, ob.key]) v
  rw [Stage.hydrate] at h
  split at h
  · obtain rfl := Except.ok.inj h
    exact hx.market ..
  split at h
  · obtain rfl := Except.ok.inj h
    exact hx.put (by decide) _ _
  split at h
  · obtain rfl := Except.ok.inj h
    exact hx.put (by decide) _ _
  split at h
  · obtain rfl := Except.ok.inj h
    exact hx.put (by decide) _ _
  split at h
  · obtain ⟨old, -, h⟩ := bind_eq_ok.mp h
    obtain rfl := Except.ok.inj h
    exact hx.config ..
  · obtain rfl := Except.ok.inj h
    exact hx

theorem quiet_observations {x y : Stage} {l : List Observation}
    (h : l.foldlM Stage.observe x = .ok y) : Quiet x y := by
  induction l generalizing x with
  | nil =>
    obtain rfl := Except.ok.inj h
    exact .refl x
  | cons ob l ih =>
    rw [List.foldlM_cons] at h
    obtain ⟨z, hz, h⟩ := bind_eq_ok.mp h
    exact (quiet_observe hz).trans (ih h)

/-! ### The order of a map -/

/-- Distinct markets have distinct curves. -/
def DistinctCurves (m : Tables) : Prop :=
  ∀ k k' row row', m.markets.lookup k = some row → m.markets.lookup k' = some row' →
    str row.values "curve" ≠ "" →
    equalFold (str row.values "curve") (str row'.values "curve") = true → k = k'

/-- Two swaps of one transaction have distinct positions. -/
def DistinctSwaps (m : Tables) : Prop :=
  ∀ k k' row row', m.swaps.lookup k = some row → m.swaps.lookup k' = some row' →
    row.provenance.transactionHash = row'.provenance.transactionHash →
    row.provenance.logIndex = row'.provenance.logIndex → k = k'

section Orders

variable {o o' : MapOrder} {x : Stage}

theorem curveMarket_order (o o' : MapOrder) (h : DistinctCurves x.state.tables) {emitter : String}
    (hemitter : emitter ≠ "") : x.curveMarket o emitter = x.curveMarket o' emitter := by
  have hfind : (o.range x.state.tables.markets).find?
        (fun e => equalFold (str e.2.values "curve") emitter)
      = (o'.range x.state.tables.markets).find?
        (fun e => equalFold (str e.2.values "curve") emitter) := by
    refine find?_perm (range_perm o o' _) ?_
    rintro ⟨k, row⟩ hrow ⟨k', row'⟩ hrow' hcurve hcurve'
    rw [mem_range] at hrow hrow'
    have hne : str row.values "curve" ≠ "" := fun heq =>
      hemitter (eq_empty_of_equalFold (heq ▸ hcurve))
    obtain rfl := h k k' row row' hrow hrow' hne (equalFold_trans hcurve (equalFold_symm hcurve'))
    exact congrArg _ (Option.some.inj (hrow.symm.trans hrow'))
  rw [Stage.curveMarket, Stage.curveMarket, hfind]

theorem mem_swaps {swap : SwapRow} :
    swap ∈ (o.range x.state.tables.swaps).map Prod.snd ↔
      ∃ k, x.state.tables.swaps.lookup k = some swap := by
  rw [List.mem_map]
  constructor
  · rintro ⟨⟨k, row⟩, hmem, rfl⟩
    exact ⟨k, mem_range.mp hmem⟩
  · rintro ⟨k, hk⟩
    exact ⟨(k, swap), mem_range.mpr hk, rfl⟩

theorem selectSwap_order (h : DistinctSwaps x.state.tables) (poolId : String) :
    x.selectSwap o poolId = x.selectSwap o' poolId := by
  refine argmax_perm (((range_perm o o' _).map _).filter _) ?_
  intro swap hswap swap' hswap' hindex
  rw [List.mem_filter, decide_eq_true_iff, mem_swaps] at hswap hswap'
  obtain ⟨⟨k, hk⟩, -, htransaction, -⟩ := hswap
  obtain ⟨⟨k', hk'⟩, -, htransaction', -⟩ := hswap'
  obtain rfl := h k k' swap swap' hk hk' (htransaction.trans htransaction'.symm) hindex
  exact Option.some.inj (hk.symm.trans hk')

/-- A fee conflicts with one of the rows, whatever comes first. -/
theorem exists_conflict_iff {a : Values} :
    (∃ row ∈ o.range (x.state.tables.keyed .feeCredits), conflicts a row.1 row.2.values) ↔
      ∃ k row, (x.state.tables.keyed .feeCredits).lookup k = some row ∧
        conflicts a k row.values := by
  constructor
  · rintro ⟨⟨k, row⟩, hmem, hconflict⟩
    exact ⟨k, row, mem_range.mp hmem, hconflict⟩
  · rintro ⟨k, row, hk, hconflict⟩
    exact ⟨(k, row), mem_range.mpr hk, hconflict⟩

theorem accrue_order (o o' : MapOrder) (h : DistinctSwaps x.state.tables) (a last : Values) :
    x.accrue o a last = x.accrue o' a last := by
  have hrevert : (revertIf (∃ row ∈ o.range (x.state.tables.keyed .feeCredits),
        conflicts a row.1 row.2.values) "conflicting V4 fee nonce" : Except String Unit)
      = revertIf (∃ row ∈ o'.range (x.state.tables.keyed .feeCredits),
        conflicts a row.1 row.2.values) "conflicting V4 fee nonce" := by
    rw [revertIf, revertIf]
    exact if_congr (exists_conflict_iff.trans exists_conflict_iff.symm) rfl rfl
  rw [Stage.accrue, Stage.accrue, hrevert, selectSwap_order h]

/-- **Everything that an event changes** is the same in any order of the maps. -/
theorem run_order {b : Body} (hcurves : DistinctCurves x.state.tables)
    (hswaps : DistinctSwaps x.state.tables) (hemitter : x.provenance.emitter ≠ "") :
    x.run o b = x.run o' b := by
  have happly : x.apply o (nameOf b.signature) b.signature b.args
      = x.apply o' (nameOf b.signature) b.signature b.args := by
    unfold Stage.apply
    simp only [curveMarket_order o o' hcurves hemitter, accrue_order o o' hswaps]
  rw [Stage.run, Stage.run, happly]

end Orders

/-! ### What an event does to the fees -/

/-- The name of an event. -/
def Body.name (b : Body) : EventName := nameOf b.signature

/-- The key of an event. -/
def Body.eventKey (b : Body) : String := b.provenance.eventKey

/-- The key of the fee that an event is about. -/
def Body.feeKey (b : Body) : String := key [str b.args "feeId"]

/-- The events that are credited to a fee, other than the fee itself. -/
def creditEvents : List EventName :=
  [.stakerFeeCredited, .feeBucketsCredited, .curveFeesSwept, .forfeitureReserved,
    .forfeitureReserveConverted]

/-- What is known of the event of a log of the protocol. -/
structure Body.Lawful (b : Body) : Prop where
  emitter : b.provenance.emitter ≠ ""
  eventKey : ∃ transactionHash : String, lower transactionHash = b.provenance.transactionHash ∧
    b.eventKey = key [toString b.provenance.chainId, transactionHash,
      toString b.provenance.logIndex]
  credit : b.name ∈ creditEvents →
    b.args.lookup "feeNonce" = none ∧ b.args.lookup "poolId" = none
  accrued : b.name = .v4FeeAccrued →
    str b.args "marketId" ≠ "" ∧ (str b.args "feeId").toList.head? = some '0' ∧
      (b.args.lookup "feeNonce").isSome = true ∧ (b.args.lookup "poolId").isSome = true

/-- The row of a credit, with what an event says of it. -/
def creditRow (m : Tables) (k : String) (v : Values) (p : Provenance) : KeyedRow :=
  ⟨k, combine (values ((m.keyed .feeCredits).lookup k)) v, p⟩

/-- A swap, with the fee that is paired with it. -/
def pairedRow (swap : SwapRow) (b : Body) : SwapRow :=
  { swap with hookFeeEventKey := some b.eventKey, feeId := some b.feeKey }

/-- **What an accepted event does to the tables of the fees.** -/
inductive Effect (b : Body) (m n : Tables) : Prop
  /-- The event is of something else. -/
  | quiet (hname : b.name ∉ feeEvents) (h : SameFees m n)
  /-- The event is credited to a fee, or to the reserve of a market. -/
  | credited (hname : b.name ∈ creditEvents) (k : String) (v : Values)
      (hnonce : v.lookup "feeNonce" = none) (hpool : v.lookup "poolId" = none)
      (hmarket : (∀ id : String, id.toList.head? = some '0' → k ≠ key [id]) ∨
        (str (values ((m.keyed .feeCredits).lookup k)) "marketId" ≠ "" →
          equalFold (str v "marketId")
            (str (values ((m.keyed .feeCredits).lookup k)) "marketId") = true))
      (h : SameFees (m.put .feeCredits k (creditRow m k v b.provenance)) n)
  /-- A claim is added to the total of its key. -/
  | claimed (hname : b.name = .feeClaimed) (total count amount : ℤ) (v : Values)
      (htotal : cumulative (values ((m.keyed .feeClaimTotals).lookup (claimKey b.args)))
        "claimedAmount" "invalid cumulative claimed amount" = .ok total)
      (hcount : cumulative (values ((m.keyed .feeClaimTotals).lookup (claimKey b.args)))
        "claimCount" "invalid cumulative claim count" = .ok count)
      (hamount : bigInt (str b.args "amount") = some amount)
      (hclaimed : str v "claimedAmount" = toString (total + amount))
      (hnumber : str v "claimCount" = toString (count + 1))
      (h : SameFees ((m.put .feeClaims b.eventKey ⟨b.eventKey, b.args, b.provenance⟩).put
        .feeClaimTotals (claimKey b.args) ⟨claimKey b.args, v, b.provenance⟩) n)
  /-- A swap is recorded, without a fee. -/
  | swapped (hname : b.name = .swap)
      (h : SameFees (m.setSwap b.eventKey
        ⟨b.eventKey, key [str b.args "id"], b.args, b.provenance, none, none⟩) n)
  /-- A fee accrues, and is paired with a swap. -/
  | accrued (hname : b.name = .v4FeeAccrued) (k : String) (swap : SwapRow)
      (hconflict : ∀ k row, (m.keyed .feeCredits).lookup k = some row →
        ¬ conflicts b.args k row.values)
      (hmarket : str (values ((m.keyed .feeCredits).lookup b.feeKey)) "marketId" ≠ "" →
        equalFold (str b.args "marketId")
          (str (values ((m.keyed .feeCredits).lookup b.feeKey)) "marketId") = true)
      (hlookup : m.swaps.lookup k = some swap) (hpool : swap.poolId = key [str b.args "poolId"])
      (htransaction : swap.provenance.transactionHash = b.provenance.transactionHash)
      (hindex : swap.provenance.logIndex < b.provenance.logIndex)
      (hunpaired : swap.hookFeeEventKey = none)
      (h : SameFees ((m.put .feeCredits b.feeKey
        (creditRow m b.feeKey (withSignature b.args b.signature) b.provenance)).setSwap
          swap.eventKey (pairedRow swap b)) n)

theorem Effect.before_quiet {b : Body} {m n n' : Tables} (h : Effect b m n) (h' : SameFees n n') :
    Effect b m n' := by
  cases h with
  | quiet hname h => exact .quiet hname (h.trans h')
  | credited hname k v hnonce hpool hmarket h =>
    exact .credited hname k v hnonce hpool hmarket (h.trans h')
  | claimed hname total count amount v htotal hcount hamount hclaimed hnumber h =>
    exact .claimed hname total count amount v htotal hcount hamount hclaimed hnumber (h.trans h')
  | swapped hname h => exact .swapped hname (h.trans h')
  | accrued hname k swap hconflict hmarket hlookup hpool htransaction hindex hunpaired h =>
    exact .accrued hname k swap hconflict hmarket hlookup hpool htransaction hindex hunpaired
      (h.trans h')

theorem view_merge (t : TableName) (k : String) (v : Values) (x : Stage) :
    (x.merge t k v).view
      = x.view.put t k ⟨k, combine (values ((x.view.keyed t).lookup k)) v, x.provenance⟩ := by
  rw [Stage.merge, view_put, get_eq_view]

/-- The key of a reserve is not that of a fee. -/
theorem key_reserve_ne {id market asset : String} (hid : id.toList.head? = some '0') :
    key ["forfeiture-reserve", market, asset] ≠ key [id] := by
  intro heq
  have hhead := congrArg (fun s => s.toList.head?) heq
  simp only [key, toList_lower, String.toList_intercalate, List.map_cons, List.map_nil,
    List.head?_map, List.intercalate_cons_cons, List.intercalate_singleton, hid] at hhead
  revert hhead
  simp

section Effects

variable {o : MapOrder} {b : Body} {x y z : Stage}

theorem market_of_feeIdentity {id market asset : String} {u : Unit}
    (h : x.feeIdentity id market asset = .ok u) :
    str (values ((x.view.keyed .feeCredits).lookup (key [id]))) "marketId" ≠ "" →
      equalFold market
        (str (values ((x.view.keyed .feeCredits).lookup (key [id]))) "marketId") = true := by
  intro hne
  rw [Stage.feeIdentity, get_eq_view, revertIf_eq_ok] at h
  by_contra hfold
  refine h ⟨_, List.mem_cons_self, hne, ?_⟩
  rw [Bool.eq_false_iff]
  exact fun heq => hfold (equalFold_symm heq)

theorem effect_credit (hb : b.Lawful) (hp : x.provenance = b.provenance)
    (hname : b.name ∈ creditEvents) {asset : String} {u : Unit}
    (hcheck : x.feeIdentity (str b.args "feeId") (str b.args "marketId") asset = .ok u) :
    Effect b x.view (x.merge .feeCredits b.feeKey (withSignature b.args b.signature)).view := by
  obtain ⟨hnonce, hpool⟩ := hb.credit hname
  refine .credited hname b.feeKey (withSignature b.args b.signature) ?_ ?_ (Or.inr ?_) ?_
  · rw [lookup_withSignature (by decide), hnonce]
  · rw [lookup_withSignature (by decide), hpool]
  · rw [str_withSignature (by decide)]
    exact market_of_feeIdentity hcheck
  · rw [view_merge, hp, creditRow]
    exact .refl _

theorem effect_reserve (hp : x.provenance = b.provenance) (hname : b.name ∈ creditEvents)
    {market asset : String} {v : Values} (hnonce : v.lookup "feeNonce" = none)
    (hpool : v.lookup "poolId" = none) :
    Effect b x.view
      (x.merge .feeCredits (key ["forfeiture-reserve", market, asset]) v).view := by
  refine .credited hname (key ["forfeiture-reserve", market, asset]) v hnonce hpool
    (Or.inl fun id hid => key_reserve_ne hid) ?_
  rw [view_merge, hp, creditRow]
  exact .refl _

theorem effect_claim (hp : x.provenance = b.provenance) (hname : b.name = .feeClaimed)
    (h : x.claim b.args = .ok y) : Effect b x.view y.view ∧ y.state = x.state := by
  rw [Stage.claim] at h
  obtain ⟨total, htotal, h⟩ := bind_eq_ok.mp h
  obtain ⟨count, hcount, h⟩ := bind_eq_ok.mp h
  obtain ⟨amount, hamount, h⟩ := bind_eq_ok.mp h
  obtain rfl := Except.ok.inj h
  have hget : (x.put .feeClaims x.provenance.eventKey b.args).get .feeClaimTotals
      (claimKey b.args) = (x.view.keyed .feeClaimTotals).lookup (claimKey b.args) := by
    rw [get_eq_view, view_put]
    rfl
  rw [hget] at htotal hcount
  rw [orRevert_eq_ok] at hamount
  obtain ⟨hclaimed, hnumber⟩ := str_claimTotal b.args (total + amount) (count + 1) _
  refine ⟨.claimed hname total count amount _ htotal hcount hamount hclaimed hnumber ?_, rfl⟩
  have hp' : (x.put .feeClaims x.provenance.eventKey b.args).provenance = b.provenance := hp
  rw [view_put, view_put, hp', hp]
  exact .refl _

theorem effect_accrue (hp : x.provenance = b.provenance) (hview : x.view = x.state.tables)
    (hname : b.name = .v4FeeAccrued) {asset : String} {u : Unit}
    (hcheck : x.feeIdentity (str b.args "feeId") (str b.args "marketId") asset = .ok u)
    (h : x.accrue o b.args (withSignature b.args b.signature) = .ok y) :
    Effect b x.view y.view ∧ y.state = x.state := by
  rw [Stage.accrue] at h
  obtain ⟨_, hconflict, h⟩ := bind_eq_ok.mp h
  obtain ⟨swap, hswap, h⟩ := bind_eq_ok.mp h
  obtain rfl := Except.ok.inj h
  rw [revertIf_eq_ok, exists_conflict_iff, ← hview] at hconflict
  rw [orRevert_eq_ok] at hswap
  have hmem := List.argmax_mem hswap
  rw [List.mem_filter, decide_eq_true_iff, mem_swaps, ← hview, hp] at hmem
  obtain ⟨⟨k, hk⟩, hpool, htransaction, hindex, hunpaired⟩ := hmem
  refine ⟨.accrued hname k swap (fun k row hrow hc => hconflict ⟨k, row, hrow, hc⟩)
    (market_of_feeIdentity hcheck) hk hpool htransaction hindex hunpaired ?_, rfl⟩
  have hp' : (x.merge .feeCredits b.feeKey (withSignature b.args b.signature)).provenance
      = b.provenance := hp
  rw [view_setSwap, view_merge, hp]
  exact ⟨by rw [← Body.feeKey, hp']; rfl, fun _ _ => rfl⟩

theorem effect_apply (hb : b.Lawful) (hp : x.provenance = b.provenance)
    (hview : x.view = x.state.tables) (h : x.apply o b.name b.signature b.args = .ok y) :
    Effect b x.view y.view ∧ y.state = x.state := by
  by_cases hname : b.name ∈ feeEvents
  · unfold Stage.apply at h
    obtain ⟨u, hcheck, h⟩ := bind_eq_ok.mp h
    simp only [feeEvents, List.mem_cons, List.not_mem_nil, or_false] at hname
    rcases hname with heq | heq | heq | heq | heq | heq | heq | heq
    all_goals rw [heq] at h hcheck
    · obtain rfl := Except.ok.inj h
      exact ⟨effect_credit hb hp (by simp [creditEvents, heq]) hcheck, rfl⟩
    · obtain rfl := Except.ok.inj h
      exact ⟨effect_credit hb hp (by simp [creditEvents, heq]) hcheck, rfl⟩
    · obtain rfl := Except.ok.inj h
      exact ⟨effect_credit hb hp (by simp [creditEvents, heq]) hcheck, rfl⟩
    · exact effect_accrue hp hview heq hcheck h
    · obtain ⟨hnonce, hpool⟩ := hb.credit (by simp [creditEvents, heq])
      obtain rfl := Except.ok.inj h
      refine ⟨effect_reserve hp (by simp [creditEvents, heq]) ?_ ?_, rfl⟩
      · rw [lookup_withSignature (by decide), hnonce]
      · rw [lookup_withSignature (by decide), hpool]
    · obtain ⟨hnonce, hpool⟩ := hb.credit (by simp [creditEvents, heq])
      obtain rfl := Except.ok.inj h
      refine ⟨effect_reserve hp (by simp [creditEvents, heq]) ?_ ?_, rfl⟩
      all_goals
        rw [lookup_combine, lookup_fields_eq_none (by simp) (by simp), Option.none_or,
          lookup_withSignature (by decide)]
      · exact hnonce
      · exact hpool
    · exact effect_claim hp heq h
    · obtain rfl := Except.ok.inj h
      refine ⟨.swapped heq ?_, rfl⟩
      rw [view_setSwap, hp]
      exact .refl _
  · have hquiet := quiet_apply hname h
    exact ⟨.quiet hname hquiet.fees, hquiet.state⟩

/-- **An event that is accepted** has one of the effects. -/
theorem effect_run (hb : b.Lawful) (hp : x.provenance = b.provenance)
    (hview : x.view = x.state.tables) (h : x.run o b = .ok z) :
    Effect b x.view z.view ∧ z.state = x.state := by
  rw [Stage.run] at h
  obtain ⟨y, hy, h⟩ := bind_eq_ok.mp h
  obtain ⟨y', hy', h⟩ := bind_eq_ok.mp h
  obtain rfl := Except.ok.inj h
  obtain ⟨heffect, hstate⟩ := effect_apply hb hp hview hy
  have hquiet := (quiet_observations hy').setEvent b.provenance.eventKey
    ⟨b.provenance, b.signature, b.args⟩
  exact ⟨heffect.before_quiet hquiet.fees, hquiet.state.trans hstate⟩

end Effects

end EventProjection

end Backend

end TickerGarden
