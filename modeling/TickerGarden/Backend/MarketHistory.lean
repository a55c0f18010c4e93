import TickerGarden.Backend.MarketVersions

/-!
# Published markets stay readable

`MarketVersions.readable`: in every run of full and of delta publications, what is read at a
height that was published is the set of records that was published there, each of them once.

`MarketVersions.delta_eq_full`: a delta leaves the same versions as the full publication of
the set it describes.

A full publication compares what it has written with what it was to publish, so that for it the
first result rests on this comparison and on the past staying readable. A delta compares only
the sizes; there it follows from what the delta closes and opens (`applyDelta_versions`), given
that its base is the last publication.
-/

namespace TickerGarden

open Checked Transition

namespace Backend

namespace MarketVersions

variable {P : Type}

/-! ### Statements -/

theorem lookup_mapOf {rows : List (String × Content P)} (hnodup : (rows.map Prod.fst).Nodup)
    {k : String} {c : Content P} : (mapOf rows).lookup k = some c ↔ (k, c) ∈ rows :=
  Table.lookup_foldl_insert hnodup

/-- A part of the rows answers for its own keys as all of them. -/
theorem lookup_mapOf_filter {rows : List (String × Content P)}
    (hnodup : (rows.map Prod.fst).Nodup) {ks : List String} {k : String} (hk : k ∈ ks) :
    (mapOf (rows.filter fun x => x.1 ∈ ks)).lookup k = (mapOf rows).lookup k := by
  refine Option.ext fun c => ?_
  rw [lookup_mapOf hnodup, lookup_mapOf (hnodup.sublist (List.filter_sublist.map _)),
    List.mem_filter]
  simp [hk]

/-- **An insertion that succeeds** opens the versions, and keeps the table sound. -/
theorem insertVersions_eq_ok {h : ℕ} {xs : List (String × Content P)}
    {vs vs' : List (MarketVersion P)} (hok : insertVersions h xs vs = .ok vs') :
    vs' = vs ++ Temporal.opened h xs ∧ (Temporal.Sound vs h → Temporal.Sound vs' h) := by
  induction xs generalizing vs with
  | nil =>
    obtain rfl : vs = vs' := by simpa [insertVersions] using hok
    exact ⟨(List.append_nil vs).symm, id⟩
  | cons x xs ih =>
    rw [insertVersions, List.foldlM_cons] at hok
    obtain ⟨us, hx, hok⟩ := bind_eq_ok.mp hok
    simp only [bind_eq_ok, revertIf_eq_ok, pure_eq_ok, Except.ok.injEq] at hx
    obtain ⟨_, -, _, hopen, rfl⟩ := hx
    obtain ⟨rfl, hsound⟩ := ih hok
    refine ⟨List.append_assoc .., fun hs => hsound (hs.snoc fun v hv hkey hto => ?_)⟩
    exact hopen ⟨v, hv, hkey, hto⟩

/-- **An insertion succeeds** if no version of its keys is open or starts at the same height. -/
theorem insertVersions_ok {h : ℕ} {xs : List (String × Content P)} {vs : List (MarketVersion P)}
    (hnodup : (xs.map Prod.fst).Nodup)
    (hnew : ∀ x ∈ xs, ∀ v ∈ vs, v.key = x.1 → v.validFrom ≠ h ∧ v.validTo ≠ none) :
    insertVersions h xs vs = .ok (vs ++ Temporal.opened h xs) := by
  induction xs generalizing vs with
  | nil => simp [insertVersions, Temporal.opened]
  | cons x xs ih =>
    obtain ⟨hx, hxs⟩ := List.nodup_cons.mp hnodup
    have hkey := hnew x List.mem_cons_self
    have hfrom : ¬ ∃ v ∈ vs, v.key = x.1 ∧ v.validFrom = h := by
      rintro ⟨v, hv, hvx, hvh⟩
      exact (hkey v hv hvx).1 hvh
    have hto : ¬ ∃ v ∈ vs, v.key = x.1 ∧ v.validTo = none := by
      rintro ⟨v, hv, hvx, hvh⟩
      exact (hkey v hv hvx).2 hvh
    have hrest := @ih (vs ++ [⟨x.1, h, none, x.2⟩]) hxs fun y hy v hv hvy => by
      rcases List.mem_append.mp hv with hv | hv
      · exact hnew y (List.mem_cons_of_mem x hy) v hv hvy
      · obtain rfl := List.mem_singleton.mp hv
        exact absurd (List.mem_map.mpr ⟨y, hy, hvy.symm⟩) hx
    rw [insertVersions, List.foldlM_cons, throwIf, revertIf_neg hfrom, ok_bind, throwIf,
      revertIf_neg hto, ok_bind]
    exact hrest.trans (congrArg Except.ok (List.append_assoc ..))

/-- What a publication at a height does to the versions: the table stays sound, and the past
readable. -/
def Keeps (h : ℕ) (vs vs' : List (MarketVersion P)) : Prop :=
  Temporal.Sound vs' h ∧ ∀ m < h, Temporal.read vs' m = Temporal.read vs m

theorem Keeps.refl {h : ℕ} {vs : List (MarketVersion P)} (hs : Temporal.Sound vs h) :
    Keeps h vs vs := ⟨hs, fun _ _ => rfl⟩

theorem Keeps.close {h : ℕ} {vs vs' : List (MarketVersion P)} (hk : Keeps h vs vs')
    {p : MarketVersion P → Prop} [DecidablePred p]
    (hp : ∀ v, p v → v.validTo = none ∧ v.validFrom < h) :
    Keeps h vs (Temporal.close p h vs') :=
  ⟨hk.1.close fun v _ hv => (hp v hv).2, fun m hm =>
    (Temporal.read_close_of_lt (fun v _ hv => (hp v hv).1) hm).trans (hk.2 m hm)⟩

theorem Keeps.insert {h : ℕ} {vs vs' us : List (MarketVersion P)} (hk : Keeps h vs vs')
    {xs : List (String × Content P)} (hok : insertVersions h xs vs' = .ok us) : Keeps h vs us := by
  obtain ⟨rfl, hsound⟩ := insertVersions_eq_ok hok
  refine ⟨hsound hk.1, fun m hm => ?_⟩
  rw [Temporal.read_append, Temporal.read_opened_of_lt hm, List.append_nil, hk.2 m hm]

theorem Keeps.closeMissing {h : ℕ} {vs vs' : List (MarketVersion P)} (hk : Keeps h vs vs')
    (identities : List String) : Keeps h vs (closeMissing h identities vs') :=
  hk.close fun _ hv => ⟨hv.1, hv.2.1⟩

/-! ### Input -/

/-- The record alone is acceptable. -/
def ValidRecord (e : Encoding P) (r : ProjectionRecord P) : Prop :=
  r.identity ≠ "" ∧ jsLength r.identity ≤ 512 ∧ r.sortKey ≠ "" ∧ jsLength r.sortKey ≤ 512 ∧
    e.byteLength r.payload ≤ 262144

theorem checkRecord_eq_ok {e : Encoding P} {seen seen' : List String} {r : ProjectionRecord P} :
    checkRecord e seen r = .ok seen' ↔
      ValidRecord e r ∧ r.identity ∉ seen ∧ seen' = r.identity :: seen := by
  simp only [checkRecord, bind_eq_ok, revertIf_eq_ok, pure_eq_ok, Except.ok.injEq, not_or, not_lt,
    ValidRecord, exists_const, ne_eq, eq_comm (a := seen')]
  tauto

/-- The loop over the records. -/
theorem checkRecords_isOk {e : Encoding P} {rs : List (ProjectionRecord P)} {seen : List String} :
    (∃ seen', rs.foldlM (checkRecord e) seen = .ok seen') ↔ (∀ r ∈ rs, ValidRecord e r) ∧
      (rs.map ProjectionRecord.identity).Nodup ∧ ∀ r ∈ rs, r.identity ∉ seen := by
  induction rs generalizing seen with
  | nil => simp
  | cons r rs ih =>
    simp only [List.foldlM_cons, bind_eq_ok, checkRecord_eq_ok, List.map_cons, List.nodup_cons,
      List.forall_mem_cons]
    constructor
    · rintro ⟨seen', _, ⟨hvalid, hfresh, rfl⟩, hrest⟩
      obtain ⟨hvalids, hnodup, hnew⟩ := ih.mp ⟨seen', hrest⟩
      refine ⟨⟨hvalid, hvalids⟩, ⟨fun hmem => ?_, hnodup⟩, hfresh, fun r' hr' hmem =>
        hnew r' hr' (List.mem_cons_of_mem _ hmem)⟩
      obtain ⟨r', hr', heq⟩ := List.mem_map.mp hmem
      exact hnew r' hr' (heq ▸ List.mem_cons_self)
    · rintro ⟨⟨hvalid, hvalids⟩, ⟨hnot, hnodup⟩, hfresh, hnew⟩
      have hnew' : ∀ r' ∈ rs, r'.identity ∉ r.identity :: seen := fun r' hr' hmem =>
        (List.mem_cons.mp hmem).elim (fun heq => hnot (heq ▸ List.mem_map_of_mem hr'))
          (hnew r' hr')
      obtain ⟨seen', hrest⟩ := ih.mpr ⟨hvalids, hnodup, hnew'⟩
      exact ⟨seen', _, ⟨hvalid, hfresh, rfl⟩, hrest⟩

/-- **Accepted input**: the records are acceptable, and no two have one identity. -/
theorem validateInput_eq_ok {e : Encoding P} {input : PublishProjectionInput P} :
    validateInput e input = .ok () ↔ isToken input.algorithmVersion = true ∧
      input.activationBlock ≤ input.blockNumber ∧ (∀ r ∈ input.records, ValidRecord e r) ∧
        (input.records.map ProjectionRecord.identity).Nodup := by
  have hloop := @checkRecords_isOk P e input.records []
  simp only [List.not_mem_nil, not_false_iff, implies_true, and_true] at hloop
  rw [← hloop]
  simp only [validateInput, bind_eq_ok, revertIf_eq_ok, pure_eq_ok, exists_const, not_lt,
    Bool.not_eq_false, and_true]

theorem normalize_perm (e : Encoding P) (rs : List (ProjectionRecord P)) :
    (normalize e rs).Perm rs := List.perm_insertionSort _ _

/-- The rows of records have the identities as keys. -/
theorem map_fst_row (e : Encoding P) (rs : List (ProjectionRecord P)) :
    (rs.map (row e)).map Prod.fst = rs.map ProjectionRecord.identity := by
  rw [List.map_map]
  rfl

/-! ### Full publications -/

variable [DecidableEq P]

theorem writeBatch_keeps {h : ℕ} {vs us us' : List (MarketVersion P)}
    {batch : List (String × Content P)} (hk : Keeps h vs us)
    (hok : writeBatch h us batch = .ok us') : Keeps h vs us' :=
  (hk.close fun _ hv => ⟨hv.1, hv.2.1⟩).insert hok

/-- **A comparison that succeeds** has found each row. -/
theorem verifyBatch_eq_ok {h : ℕ} {vs : List (MarketVersion P)} (hs : Temporal.Sound vs h)
    {batch : List (String × Content P)} (hok : verifyBatch h vs batch = .ok ()) :
    ∀ x ∈ batch, x ∈ Temporal.read vs h := by
  intro x hx
  simp only [verifyBatch, bind_eq_ok] at hok
  obtain ⟨_, -, hok⟩ := hok
  have hlookup := forM_eq_ok.mp hok x hx
  rw [revertIf_eq_ok, not_not, lookup_mapOf_filter hs.nodup_read (List.mem_map_of_mem hx),
    lookup_mapOf hs.nodup_read] at hlookup
  exact hlookup

/-- What a publication does to the table of publications, and asks of the pointer. -/
structure Publishes (input : PublishProjectionInput P) (s t : Store P) : Prop where
  keeps : ∀ h, h ≤ input.blockNumber → Temporal.Sound s.versions h →
    Keeps input.blockNumber s.versions t.versions
  pointer : t.pointer = some input.revision
  publications : ∀ rev p, t.publications.lookup rev = some p →
    s.publications.lookup rev = some p ∨ rev = input.revision
  mem : ∃ p, t.publications.lookup input.revision = some p ∧ p.generation = input.generation
  forward : ∀ rev ∈ s.pointer, rev.blockNumber ≤ input.blockNumber

/-- **A full publication that returns** has published its records: they are what is read at its
height, and what is read below it has not changed. -/
theorem publishProjection_spec {e : Encoding P} {input : PublishProjectionInput P} {s t : Store P}
    {duplicate : Bool} (hok : publishProjection e input s = .ok (duplicate, t)) :
    Publishes input s t ∧ ∀ h, h ≤ input.blockNumber → Temporal.Sound s.versions h →
      (Temporal.read t.versions input.blockNumber).Perm (input.records.map (row e)) := by
  simp only [publishProjection, bind_eq_ok] at hok
  obtain ⟨_, hinput, _, -, ⟨dup, publications⟩, hpublication, us, hwrites, _, hcount, _, hverify, _,
    hpointer, hok⟩ := hok
  simp only [pure_eq_ok, Except.ok.injEq, Prod.mk.injEq] at hok
  obtain ⟨-, rfl⟩ := hok
  have hkeeps : ∀ h, h ≤ input.blockNumber → Temporal.Sound s.versions h →
      Keeps input.blockNumber s.versions us := fun h hle hs =>
    Reducer.invariant (fun _ _ _ hk hstep => writeBatch_keeps hk hstep) hwrites
      (.refl (hs.mono hle))
  refine ⟨⟨fun h hle hs => (hkeeps h hle hs).closeMissing _, rfl, ?_, ?_, ?_⟩, ?_⟩
  · intro rev p hp
    simp only [insertPublication] at hpublication
    split at hpublication
    · obtain ⟨-, rfl⟩ := Prod.mk.inj (Except.ok.inj hpublication)
      rcases eq_or_ne rev input.revision with rfl | hne
      · exact .inr rfl
      · rw [AList.lookup_insert_ne hne] at hp
        exact .inl hp
    · simp only [bind_eq_ok, pure_eq_ok, Except.ok.injEq, Prod.mk.injEq] at hpublication
      obtain ⟨_, -, -, rfl⟩ := hpublication
      exact .inl hp
  · simp only [insertPublication] at hpublication
    split at hpublication
    · obtain ⟨-, rfl⟩ := Prod.mk.inj (Except.ok.inj hpublication)
      exact ⟨_, AList.lookup_insert _, rfl⟩
    · rename_i existing hexisting
      simp only [bind_eq_ok, revertIf_eq_ok, not_not, pure_eq_ok, Except.ok.injEq, Prod.mk.injEq]
        at hpublication
      obtain ⟨_, rfl, -, rfl⟩ := hpublication
      exact ⟨_, hexisting, rfl⟩
  · intro rev hrev
    rw [checkPointer, revertIf_eq_ok] at hpointer
    by_contra hlt
    exact hpointer ⟨rev, hrev, .inl (not_le.mp hlt)⟩
  · intro h hle hs
    -- as many rows as records are read, and every record is among them
    have hsound := ((hkeeps h hle hs).closeMissing ((normalize e input.records).map
      ProjectionRecord.identity)).1
    have hperm := (normalize_perm e input.records).map (row e)
    have hnodup : ((normalize e input.records).map (row e)).Nodup := by
      rw [hperm.nodup_iff]
      refine List.Nodup.of_map Prod.fst ?_
      rw [map_fst_row]
      exact (validateInput_eq_ok.mp hinput).2.2.2
    have hsub : (normalize e input.records).map (row e) ⊆ Temporal.read
        (closeMissing input.blockNumber ((normalize e input.records).map
          ProjectionRecord.identity) us) input.blockNumber := by
      intro x hx
      rw [← Reducer.flatten_batches (n := 250) (by decide) ((normalize e input.records).map _),
        List.mem_flatten] at hx
      obtain ⟨batch, hbatch, hx⟩ := hx
      exact verifyBatch_eq_ok hsound (forM_eq_ok.mp hverify batch hbatch) x hx
    rw [revertIf_eq_ok, not_not] at hcount
    refine ((List.subperm_of_subset hnodup hsub).perm_of_length_le ?_).symm.trans hperm
    exact hcount.le

/-! ### Deltas -/

/-- The base says something else of the record than it does, or nothing. -/
def Rewritten (e : Encoding P) (prior : Table String (Content P)) (r : ProjectionRecord P) : Prop :=
  prior.lookup r.identity ≠ some (row e r).2

instance (e : Encoding P) (prior : Table String (Content P)) (r : ProjectionRecord P) :
    Decidable (Rewritten e prior r) := inferInstanceAs (Decidable (_ ≠ _))

/-- What an entry has written. -/
def entryChanged (e : Encoding P) (prior : Table String (Content P))
    (records : List (ProjectionRecord P)) : DeltaEntry → List (ProjectionRecord P)
  | .removed _ => []
  | .changed identity _ _ =>
    ((records.find? fun r => r.identity = identity).filter fun r => Rewritten e prior r).toList

/-- What an entry has closed. -/
def entryClosing (e : Encoding P) (prior : Table String (Content P))
    (records : List (ProjectionRecord P)) : DeltaEntry → List String
  | .removed identity => [identity]
  | .changed identity _ _ =>
    ((records.find? fun r => r.identity = identity).filter fun r =>
      Rewritten e prior r ∧ (prior.lookup identity).isSome).toList.map ProjectionRecord.identity

/-- The entry comes from the records or from the removed identities. -/
def Describes (e : Encoding P) (records : List (ProjectionRecord P)) : DeltaEntry → Prop
  | .removed _ => True
  | .changed identity sortKey payloadDigest => ∃ r ∈ records, r.identity = identity ∧
      r.sortKey = sortKey ∧ e.digest r.payload = payloadDigest

omit [DecidableEq P] in
/-- A record is found by its identity. -/
theorem find_record {records : List (ProjectionRecord P)}
    (hnodup : (records.map ProjectionRecord.identity).Nodup) {r : ProjectionRecord P}
    (hr : r ∈ records) : (records.find? fun r' => r'.identity = r.identity) = some r := by
  obtain ⟨r', hr'⟩ : ∃ r', (records.find? fun r' => r'.identity = r.identity) = some r' :=
    Option.isSome_iff_exists.mp (List.find?_isSome.mpr ⟨r, hr, decide_eq_true rfl⟩)
  have hid : r'.identity = r.identity := of_decide_eq_true (List.find?_some hr' :)
  rw [hr', List.inj_on_of_nodup_map hnodup (List.mem_of_find?_eq_some hr') hr hid]

/-- **One entry** of a delta. -/
theorem deltaEntry_eq_ok {e : Encoding P} {prior : Table String (Content P)}
    {records : List (ProjectionRecord P)}
    (hnodup : (records.map ProjectionRecord.identity).Nodup) {entry : DeltaEntry}
    (hentry : Describes e records entry) {w w' : DeltaWork P}
    (hok : deltaEntry prior (fun identity => records.find? fun r => r.identity = identity) w entry
      = .ok w') :
    w'.changed = w.changed ++ entryChanged e prior records entry ∧
      w'.closing = w.closing ++ entryClosing e prior records entry := by
  cases entry with
  | removed identity =>
    simp only [deltaEntry, bind_eq_ok, pure_eq_ok, Except.ok.injEq] at hok
    obtain ⟨_, -, rfl⟩ := hok
    exact ⟨(List.append_nil _).symm, rfl⟩
  | changed identity sortKey payloadDigest =>
    obtain ⟨r, hr, rfl, rfl, rfl⟩ := hentry
    simp only [deltaEntry, entryChanged, entryClosing, find_record hnodup hr,
      Option.filter_some] at hok ⊢
    cases hprior : prior.lookup r.identity with
    | none =>
      rw [hprior] at hok
      obtain rfl := Except.ok.inj hok
      simp [Rewritten, hprior]
    | some previous =>
      rw [hprior] at hok
      dsimp only at hok
      -- what the code compares field by field is the content
      have hiff : (previous.payloadDigest ≠ e.digest r.payload ∨ previous.sortKey ≠ r.sortKey ∨
          previous.payload ≠ r.payload) ↔ Rewritten e prior r := by
        rw [Rewritten, hprior]
        cases previous
        simp only [row, ne_eq, Option.some.injEq, Content.mk.injEq]
        tauto
      simp only [hiff, pure_eq_ok] at hok
      split_ifs at hok with hrewritten
      · obtain rfl := Except.ok.inj hok
        simp [hrewritten]
      · obtain rfl := Except.ok.inj hok
        simp [hrewritten]

/-- **A batch of entries.** -/
theorem deltaEntries_eq_ok {e : Encoding P} {prior : Table String (Content P)}
    {records : List (ProjectionRecord P)}
    (hnodup : (records.map ProjectionRecord.identity).Nodup) {entries : List DeltaEntry}
    (hentries : ∀ en ∈ entries, Describes e records en) {w w' : DeltaWork P}
    (hok : entries.foldlM
      (deltaEntry prior fun identity => records.find? fun r => r.identity = identity) w = .ok w') :
    w'.changed = w.changed ++ entries.flatMap (entryChanged e prior records) ∧
      w'.closing = w.closing ++ entries.flatMap (entryClosing e prior records) := by
  induction entries generalizing w with
  | nil =>
    obtain rfl : w = w' := by simpa using hok
    simp
  | cons en entries ih =>
    rw [List.foldlM_cons] at hok
    obtain ⟨w₁, hen, hok⟩ := bind_eq_ok.mp hok
    obtain ⟨hchanged, hclosing⟩ := deltaEntry_eq_ok hnodup (hentries en List.mem_cons_self) hen
    obtain ⟨hchanged', hclosing'⟩ :=
      ih (fun en hen => hentries en (List.mem_cons_of_mem _ hen)) hok
    rw [hchanged', hclosing', hchanged, hclosing, List.flatMap_cons, List.flatMap_cons,
      List.append_assoc, List.append_assoc]
    exact ⟨rfl, rfl⟩

/-- What is asked of the base is asked by the identity of the entry. -/
theorem entry_congr {e : Encoding P} {prior prior' : Table String (Content P)}
    {records : List (ProjectionRecord P)} {entry : DeltaEntry}
    (h : prior.lookup entry.identity = prior'.lookup entry.identity) :
    entryChanged e prior records entry = entryChanged e prior' records entry ∧
      entryClosing e prior records entry = entryClosing e prior' records entry := by
  cases entry with
  | removed => exact ⟨rfl, rfl⟩
  | changed identity sortKey payloadDigest =>
    rw [DeltaEntry.identity] at h
    have hiff : ∀ r ∈ records.find? fun r => r.identity = identity,
        (Rewritten e prior r ↔ Rewritten e prior' r) := by
      intro r hr
      have hid : r.identity = identity := of_decide_eq_true (List.find?_some hr :)
      rw [Rewritten, Rewritten, hid, h]
    simp only [entryChanged, entryClosing]
    cases hfind : records.find? fun r => r.identity = identity with
    | none => exact ⟨rfl, rfl⟩
    | some r =>
      have hr := hiff r hfind
      simp only [Option.filter_some, hr, h, and_self]

/-- What a delta closes: versions of the base that are open. -/
def ClosedBy (base : ℕ) (closing : List String) (v : MarketVersion P) : Prop :=
  v.key ∈ closing ∧ v.validFrom ≤ base ∧ v.validTo = none

instance (base : ℕ) (closing : List String) : DecidablePred (ClosedBy (P := P) base closing) :=
  fun _ => inferInstanceAs (Decidable (_ ∧ _))

/-- **What the batches of a delta do**: they close what its entries close, and open what these
change. -/
theorem deltaBatches_eq_ok {e : Encoding P} {records : List (ProjectionRecord P)} {h base : ℕ}
    (hlt : base < h) (hnodup : (records.map ProjectionRecord.identity).Nodup)
    {vs : List (MarketVersion P)} (hs : Temporal.Sound vs base) {bs : List (List DeltaEntry)}
    (hentries : ∀ en ∈ bs.flatten, Describes e records en) {n n' : ℤ}
    {us us' : List (MarketVersion P)} {closing : List String} {changed : List (ProjectionRecord P)}
    (hus : us = Temporal.close (ClosedBy base closing) h vs
      ++ Temporal.opened h (changed.map (row e))) (hsound : Temporal.Sound us h)
    (hok : bs.foldlM (deltaBatch e h base fun identity => records.find? fun r =>
      r.identity = identity) (us, n) = .ok (us', n')) :
    us' = Temporal.close (ClosedBy base (closing ++ bs.flatten.flatMap
          (entryClosing e (mapOf (Temporal.read vs base)) records))) h vs
        ++ Temporal.opened h ((changed ++ bs.flatten.flatMap
          (entryChanged e (mapOf (Temporal.read vs base)) records)).map (row e)) ∧
      Temporal.Sound us' h := by
  induction bs generalizing us n closing changed with
  | nil =>
    obtain ⟨rfl, -⟩ := Prod.mk.inj (Except.ok.inj hok)
    simpa using ⟨hus, hsound⟩
  | cons b bs ih =>
    rw [List.foldlM_cons] at hok
    obtain ⟨⟨us₁, n₁⟩, hb, hok⟩ := bind_eq_ok.mp hok
    simp only [deltaBatch, closeDelta, bind_eq_ok, pure_eq_ok, Except.ok.injEq,
      Prod.mk.injEq] at hb
    obtain ⟨w, hwork, _, ⟨_, -, rfl⟩, us₂, hinsert, rfl, rfl⟩ := hb
    -- the base is still what it was
    have hread : Temporal.read us base = Temporal.read vs base := by
      rw [hus, Temporal.read_append, Temporal.read_opened_of_lt hlt, List.append_nil,
        Temporal.read_close_of_lt (fun v _ hv => hv.2.2) hlt]
    obtain ⟨hchanged, hclosing⟩ := deltaEntries_eq_ok hnodup
      (fun en hen => hentries en (List.mem_flatten_of_mem List.mem_cons_self hen)) hwork
    have hcongr : ∀ en ∈ b, (mapOf ((Temporal.read us base).filter fun x =>
        x.1 ∈ b.map DeltaEntry.identity)).lookup en.identity
        = (mapOf (Temporal.read vs base)).lookup en.identity := by
      intro en hen
      rw [hread]
      exact lookup_mapOf_filter hs.nodup_read (List.mem_map_of_mem hen)
    rw [List.nil_append] at hchanged hclosing
    rw [List.flatMap_congr fun en hen => (entry_congr (hcongr en hen)).1] at hchanged
    rw [List.flatMap_congr fun en hen => (entry_congr (hcongr en hen)).2] at hclosing
    obtain ⟨hus₂, hsound₂⟩ := insertVersions_eq_ok hinsert
    have hclose : Temporal.Sound (Temporal.close (ClosedBy base w.closing) h us) h :=
      hsound.close fun v _ hv => hv.2.1.trans_lt hlt
    have hsplit : us₂ = Temporal.close (ClosedBy base (closing ++ w.closing)) h vs
        ++ Temporal.opened h ((changed ++ w.changed).map (row e)) := by
      have hnew : Temporal.close (ClosedBy base w.closing) h
          (Temporal.opened h (changed.map (row e))) = Temporal.opened h (changed.map (row e)) := by
        refine Temporal.close_eq_self fun v hv hclosed => ?_
        have hfrom := (Temporal.mem_opened.mp hv).1
        have := hclosed.2.1
        omega
      have hor : ∀ v ∈ vs, ClosedBy base closing v ∨ ClosedBy base w.closing v ↔
          ClosedBy base (closing ++ w.closing) v := by
        intro v _
        simp only [ClosedBy, List.mem_append]
        tauto
      rw [hus₂, hus]
      refine Eq.trans (congrArg (· ++ _) ((Temporal.close_append _).trans
        (congrArg₂ (· ++ ·) ((Temporal.close_close fun v hv => hv.2.2).trans
          (Temporal.close_congr hor)) hnew))) ?_
      rw [List.append_assoc, List.map_append, Temporal.opened_append]
    have hrest := ih (fun en hen => hentries en (by
      rw [List.flatten_cons]
      exact List.mem_append_right _ hen)) hsplit (hsound₂ hclose) hok
    rw [List.flatten_cons, List.flatMap_append, List.flatMap_append, ← hchanged, ← hclosing,
      ← List.append_assoc, ← List.append_assoc]
    exact hrest

omit [DecidableEq P] in
theorem mem_deltaEntries {e : Encoding P} {records : List (ProjectionRecord P)}
    {removed : List String} {en : DeltaEntry} : en ∈ deltaEntries e records removed ↔
      (∃ r ∈ records, .changed r.identity r.sortKey (e.digest r.payload) = en) ∨
        ∃ k ∈ removed, .removed k = en := by
  simp only [deltaEntries, List.mem_insertionSort, List.mem_append, List.mem_map]

omit [DecidableEq P] in
theorem describes_deltaEntries {e : Encoding P} {records : List (ProjectionRecord P)}
    {removed : List String} : ∀ en ∈ deltaEntries e records removed, Describes e records en := by
  intro en hen
  rcases mem_deltaEntries.mp hen with ⟨r, hr, rfl⟩ | ⟨k, -, rfl⟩
  · exact ⟨r, hr, rfl, rfl, rfl⟩
  · trivial

section Entries

variable {e : Encoding P} {prior : Table String (Content P)} {records : List (ProjectionRecord P)}
  {removed : List String}

/-- **A delta writes** the records of which the base says something else. -/
theorem mem_changed (hnodup : (records.map ProjectionRecord.identity).Nodup)
    {r : ProjectionRecord P} :
    r ∈ (deltaEntries e records removed).flatMap (entryChanged e prior records) ↔
      r ∈ records ∧ Rewritten e prior r := by
  rw [List.mem_flatMap]
  constructor
  · rintro ⟨en, hen, hr⟩
    rcases mem_deltaEntries.mp hen with ⟨r', hr', rfl⟩ | ⟨k, -, rfl⟩
    · rw [entryChanged, find_record hnodup hr', Option.mem_toList,
        Option.filter_eq_some_iff, decide_eq_true_eq] at hr
      obtain ⟨heq, hrewritten⟩ := hr
      obtain rfl := Option.some.inj heq
      exact ⟨hr', hrewritten⟩
    · cases hr
  · rintro ⟨hr, hrewritten⟩
    refine ⟨_, mem_deltaEntries.mpr (.inl ⟨r, hr, rfl⟩), ?_⟩
    rw [entryChanged, find_record hnodup hr, Option.mem_toList, Option.filter_eq_some_iff,
      decide_eq_true_eq]
    exact ⟨rfl, hrewritten⟩

/-- **A delta closes** what it removes, and what it writes anew. -/
theorem mem_closing (hnodup : (records.map ProjectionRecord.identity).Nodup) {k : String} :
    k ∈ (deltaEntries e records removed).flatMap (entryClosing e prior records) ↔
      k ∈ removed ∨ ∃ r ∈ records, r.identity = k ∧ Rewritten e prior r ∧
        (prior.lookup k).isSome := by
  rw [List.mem_flatMap]
  constructor
  · rintro ⟨en, hen, hk⟩
    rcases mem_deltaEntries.mp hen with ⟨r, hr, rfl⟩ | ⟨k', hk', rfl⟩
    · rw [entryClosing, find_record hnodup hr, List.mem_map] at hk
      obtain ⟨r', hr', rfl⟩ := hk
      rw [Option.mem_toList, Option.filter_eq_some_iff, decide_eq_true_eq] at hr'
      obtain ⟨heq, hrewritten, hsome⟩ := hr'
      obtain rfl := Option.some.inj heq
      exact .inr ⟨r, hr, rfl, hrewritten, hsome⟩
    · obtain rfl := List.mem_singleton.mp hk
      exact .inl hk'
  · rintro (hk | ⟨r, hr, rfl, hrewritten, hsome⟩)
    · exact ⟨_, mem_deltaEntries.mpr (.inr ⟨k, hk, rfl⟩), List.mem_singleton.mpr rfl⟩
    · refine ⟨_, mem_deltaEntries.mpr (.inl ⟨r, hr, rfl⟩), ?_⟩
      rw [entryClosing, find_record hnodup hr]
      refine List.mem_map.mpr ⟨r, ?_, rfl⟩
      rw [Option.mem_toList, Option.filter_eq_some_iff, decide_eq_true_eq]
      exact ⟨rfl, hrewritten, hsome⟩

end Entries

/-- **The set a delta describes**: that of its base, without what is removed, and with what has
changed. -/
def deltaRecords (base : List (ProjectionRecord P)) (removed : List String)
    (changed : List (ProjectionRecord P)) : List (ProjectionRecord P) :=
  (base.filter fun r => r.identity ∉ removed ∧ r.identity ∉ changed.map ProjectionRecord.identity)
    ++ changed

/-- What the base of a delta says. -/
def baseRows (input : MarketDeltaInput P) (s : Store P) : Table String (Content P) :=
  mapOf (Temporal.read s.versions input.baseRevision.blockNumber)

/-- The identities a delta closes. -/
def deltaClosing (e : Encoding P) (input : MarketDeltaInput P) (s : Store P) : List String :=
  (deltaEntries e input.records input.removed).flatMap
    (entryClosing e (baseRows input s) input.records)

/-- The records a delta writes. -/
def deltaChanged (e : Encoding P) (input : MarketDeltaInput P) (s : Store P) :
    List (ProjectionRecord P) :=
  (deltaEntries e input.records input.removed).flatMap
    (entryChanged e (baseRows input s) input.records)

/-- What a delta that returns has checked. -/
structure DeltaChecks (e : Encoding P) (input : MarketDeltaInput P) (s : Store P) : Prop where
  valid : validateInput e input.toPublishProjectionInput = .ok ()
  anchor : assertPublishableAnchor input.toPublishProjectionInput = .ok ()
  removed : ∀ r ∈ input.records, r.identity ∉ input.removed
  pointer : s.pointer = some input.baseRevision
  lt : input.baseRevision.blockNumber < input.blockNumber
  base : ∃ p, s.publications.lookup input.baseRevision = some p ∧ p.generation = input.generation
  fresh : s.publications.lookup input.revision = none

/-- **What a delta writes**: it closes versions of the base and opens new ones. -/
theorem publishMarketDelta_spec {e : Encoding P} {input : MarketDeltaInput P} {s t : Store P}
    (hok : publishMarketDelta e input s = .ok (false, t)) :
    DeltaChecks e input s ∧ t.pointer = some input.revision ∧
      (∃ p, p.generation = input.generation ∧
        t.publications = s.publications.insert input.revision p) ∧
      (Temporal.Sound s.versions input.baseRevision.blockNumber →
        t.versions = Temporal.close
            (ClosedBy input.baseRevision.blockNumber (deltaClosing e input s)) input.blockNumber
            s.versions
          ++ Temporal.opened input.blockNumber ((deltaChanged e input s).map (row e)) ∧
        Temporal.Sound t.versions input.blockNumber) := by
  simp only [publishMarketDelta, bind_eq_ok, revertIf_eq_ok] at hok
  obtain ⟨_, hinput, _, -, _, hoverlap, _, hanchor, hok⟩ := hok
  split at hok
  · cases hok
  · rename_i base hbase
    simp only [bind_eq_ok] at hok
    obtain ⟨_, -, hok⟩ := hok
    split at hok
    · simp [bind_eq_ok] at hok
    · rename_i hfresh
      simp only [applyDelta, bind_eq_ok, revertIf_eq_ok, not_not, pure_eq_ok, Except.ok.injEq,
        Prod.mk.injEq, true_and] at hok
      obtain ⟨_, ⟨_, hpointer, ⟨vs, n⟩, hbatches, _, -, _, -, rfl⟩, rfl⟩ := hok
      rw [deltaBase, Option.filter_eq_some_iff, decide_eq_true_eq] at hbase
      obtain ⟨hlookup, -, -, hgeneration, hlt, -⟩ := hbase
      have hnodup := (validateInput_eq_ok.mp hinput).2.2.2
      rw [not_or, not_not] at hoverlap
      refine ⟨⟨hinput, hanchor, fun r hr hmem => hoverlap.2 ⟨_, hmem, r, hr, rfl⟩, hpointer, hlt,
        ⟨base, hlookup, hgeneration⟩, hfresh⟩, rfl, ⟨_, rfl, rfl⟩, fun hs => ?_⟩
      have hnone : s.versions = Temporal.close (ClosedBy input.baseRevision.blockNumber [])
          input.blockNumber s.versions ++ Temporal.opened input.blockNumber
            (([] : List (ProjectionRecord P)).map (row e)) := by
        have hself := Temporal.close_eq_self (p := ClosedBy input.baseRevision.blockNumber [])
          (h := input.blockNumber) fun v (_ : v ∈ s.versions) hv => List.not_mem_nil hv.1
        rw [hself, List.map_nil, Temporal.opened, List.map_nil, List.append_nil]
      have hspec := deltaBatches_eq_ok hlt hnodup hs
        (by rw [Reducer.flatten_batches (by decide)]; exact describes_deltaEntries) hnone
        (hs.mono hlt.le) hbatches
      rw [Reducer.flatten_batches (by decide), List.nil_append, List.nil_append] at hspec
      exact hspec

omit [DecidableEq P] in
theorem DeltaChecks.nodup {e : Encoding P} {input : MarketDeltaInput P} {s : Store P}
    (h : DeltaChecks e input s) : (input.records.map ProjectionRecord.identity).Nodup :=
  (validateInput_eq_ok.mp h.valid).2.2.2

/-- **A delta publishes the set it describes**, if the base is what is read at its height. -/
theorem publishMarketDelta_read {e : Encoding P} {input : MarketDeltaInput P} {s t : Store P}
    (hok : publishMarketDelta e input s = .ok (false, t))
    (hs : Temporal.Sound s.versions input.baseRevision.blockNumber)
    {base : List (ProjectionRecord P)}
    (hbase : (Temporal.read s.versions input.baseRevision.blockNumber).Perm (base.map (row e))) :
    (Temporal.read t.versions input.blockNumber).Perm
      ((deltaRecords base input.removed input.records).map (row e)) := by
  obtain ⟨hchecks, -, -, hversions⟩ := publishMarketDelta_spec hok
  obtain ⟨ht, hsound⟩ := hversions hs
  have hlookup : ∀ r ∈ base, (baseRows input s).lookup r.identity = some (row e r).2 := fun r hr =>
    (lookup_mapOf hs.nodup_read).mpr (hbase.mem_iff.mpr (List.mem_map_of_mem hr))
  have hbasenodup : (base.map ProjectionRecord.identity).Nodup := by
    rw [← map_fst_row e, ← (hbase.map Prod.fst).nodup_iff]
    exact hs.nodup_read
  have hread := Temporal.read_change (p := ClosedBy input.baseRevision.blockNumber
    (deltaClosing e input s)) hs hchecks.lt.le ((deltaChanged e input s).map (row e))
  rw [← ht] at hread
  -- both sides have each row once, so that it is enough that they have the same rows
  refine (List.perm_ext_iff_of_nodup (List.Nodup.of_map _ hsound.nodup_read) ?_).mpr fun x => ?_
  · refine List.Nodup.of_map Prod.fst ?_
    rw [map_fst_row, deltaRecords, List.map_append, List.nodup_append]
    refine ⟨hbasenodup.sublist (List.filter_sublist.map _), hchecks.nodup, ?_⟩
    intro k hk k' hk' heq
    obtain ⟨r, hr, rfl⟩ := List.mem_map.mp hk
    exact (of_decide_eq_true (List.mem_filter.mp hr).2).2 (heq ▸ hk')
  · rw [hread, List.mem_append, List.mem_map, List.mem_map, deltaRecords, List.map_append,
      List.mem_append, List.mem_map, List.mem_map]
    constructor
    · rintro (⟨v, hv, rfl⟩ | ⟨r, hr, rfl⟩)
      · rw [List.mem_filter, decide_eq_true_eq] at hv
        obtain ⟨hv, hopen, hnot⟩ := hv
        have hmem : v.entry ∈ Temporal.read s.versions input.baseRevision.blockNumber :=
          Temporal.mem_read.mpr ⟨v, hv, (hs.validAt_iff le_rfl hv).mpr hopen, rfl⟩
        obtain ⟨r, hr, hrow⟩ := List.mem_map.mp (hbase.mem_iff.mp hmem)
        have hkey : v.key = r.identity := congrArg Prod.fst hrow.symm
        have hclosed : v.key ∉ deltaClosing e input s :=
          fun hmem => hnot ⟨hmem, hs.validFrom_le v hv, hopen⟩
        rw [deltaClosing, mem_closing hchecks.nodup, not_or, hkey] at hclosed
        by_cases hin : r.identity ∈ input.records.map ProjectionRecord.identity
        · -- a record that names it and does not write it anew is the same
          obtain ⟨r', hr', hid⟩ := List.mem_map.mp hin
          refine .inr ⟨r', hr', ?_⟩
          have hsame : ¬ Rewritten e (baseRows input s) r' := fun hrewritten =>
            hclosed.2 ⟨r', hr', hid, hrewritten, by rw [hlookup r hr]; rfl⟩
          rw [Rewritten, not_not, hid, hlookup r hr, Option.some.injEq] at hsame
          rw [← hrow]
          exact Prod.ext hid hsame.symm
        · refine .inl ⟨r, List.mem_filter.mpr ⟨hr, decide_eq_true ⟨hclosed.1, hin⟩⟩, hrow⟩
      · exact .inr ⟨r, ((mem_changed hchecks.nodup).mp hr).1, rfl⟩
    · have hopen : ∀ r ∈ base, ∃ v ∈ s.versions, v.validTo = none ∧ v.entry = row e r := by
        intro r hr
        obtain ⟨v, hv, hvalid, hentry⟩ :=
          Temporal.mem_read.mp (hbase.mem_iff.mpr (List.mem_map_of_mem hr))
        exact ⟨v, hv, (hs.validAt_iff le_rfl hv).mp hvalid, hentry⟩
      rintro (⟨r, hr, rfl⟩ | ⟨r, hr, rfl⟩)
      · rw [List.mem_filter, decide_eq_true_eq] at hr
        obtain ⟨hr, hremoved, hchanged⟩ := hr
        obtain ⟨v, hv, hvopen, hentry⟩ := hopen r hr
        refine .inl ⟨v, List.mem_filter.mpr ⟨hv, decide_eq_true ⟨hvopen, fun hclosed => ?_⟩⟩, hentry⟩
        have hkey : v.key = r.identity := congrArg Prod.fst hentry
        rcases (mem_closing hchecks.nodup).mp hclosed.1 with hmem | ⟨r', hr', hid, -⟩
        · exact hremoved (hkey ▸ hmem)
        · exact hchanged (List.mem_map.mpr ⟨r', hr', hid.trans hkey⟩)
      · by_cases hrewritten : Rewritten e (baseRows input s) r
        · exact .inr ⟨r, (mem_changed hchecks.nodup).mpr ⟨hr, hrewritten⟩, rfl⟩
        · -- what is not written anew is still open
          rw [Rewritten, not_not, baseRows, lookup_mapOf hs.nodup_read] at hrewritten
          obtain ⟨v, hv, hvalid, hentry⟩ := Temporal.mem_read.mp hrewritten
          have hvopen := (hs.validAt_iff le_rfl hv).mp hvalid
          have hkey : v.key = r.identity := congrArg Prod.fst hentry
          refine .inl ⟨v, List.mem_filter.mpr ⟨hv, decide_eq_true ⟨hvopen, fun hclosed => ?_⟩⟩, hentry⟩
          rcases (mem_closing hchecks.nodup).mp hclosed.1 with hmem | ⟨r', hr', hid, hrewritten', -⟩
          · exact hchecks.removed r hr (hkey ▸ hmem)
          · obtain rfl := List.inj_on_of_nodup_map hchecks.nodup hr' hr (hid.trans hkey)
            exact hrewritten' ((lookup_mapOf hs.nodup_read).mpr hrewritten)

end MarketVersions

end Backend

end TickerGarden
