import TickerGarden.Backend.MarketHistory

/-!
# Runs of publications

The two results on the versioned store of markets. `MarketVersions.delta_eq_full` compares a
delta with the full publication of the set it describes: what the full publication closes and
opens, when nothing has been published at its height (`fullBatches_eq_ok`), is what the delta
closes and opens. `MarketVersions.published_readable` is about runs, in which the publications
follow each other as the pointer demands.
-/

namespace TickerGarden

open Checked Transition Function

namespace Backend

namespace MarketVersions

variable {P : Type} [DecidableEq P]

/-! ### What a full publication writes -/

/-- What the batches of a full publication close. -/
def ReplacedBy (h : ℕ) (writes : List (String × Content P)) (v : MarketVersion P) : Prop :=
  v.validTo = none ∧ v.validFrom < h ∧ ∃ x ∈ writes, Differs v x

instance (h : ℕ) (writes : List (String × Content P)) : DecidablePred (ReplacedBy h writes) :=
  fun _ => inferInstanceAs (Decidable (_ ∧ _))

theorem writeBatch_eq (h : ℕ) (vs : List (MarketVersion P)) (batch : List (String × Content P)) :
    writeBatch h vs batch = insertVersions h
      (batch.filter fun x => ¬ ∃ v ∈ Temporal.close (ReplacedBy h batch) h vs,
        v.key = x.1 ∧ Temporal.Version.ValidAt v h)
      (Temporal.close (ReplacedBy h batch) h vs) := rfl

/-- After a row is closed or was none, its key is free. -/
theorem free_of_replaced {h base : ℕ} (hlt : base < h) {vs : List (MarketVersion P)}
    (hs : Temporal.Sound vs base) {done writes : List (String × Content P)}
    (hnodup : (done.map Prod.fst ++ writes.map Prod.fst).Nodup)
    (hdiffers : ∀ x ∈ writes, ∀ v ∈ vs, v.validTo = none → v.key = x.1 → Differs v x) :
    ∀ x ∈ writes, ∀ v ∈ Temporal.close (ReplacedBy h (done ++ writes)) h vs
      ++ Temporal.opened h done, v.key = x.1 → v.validFrom ≠ h ∧ v.validTo ≠ none := by
  intro x hx v hv hkey
  rcases List.mem_append.mp hv with hv | hv
  · rcases Temporal.mem_close.mp hv with ⟨w, hw, -, rfl⟩ | ⟨hv, hnot⟩
    · have hfrom := hs.validFrom_le w hw
      exact ⟨fun heq => by dsimp only at heq; omega, by simp⟩
    · have hfrom := hs.validFrom_le v hv
      refine ⟨by omega, fun hopen => hnot ⟨hopen, by omega, x, ?_, hdiffers x hx v hv hopen hkey⟩⟩
      exact List.mem_append_right _ hx
  · -- a key is written once
    have hmem := (Temporal.mem_opened.mp hv).2.2
    exact absurd rfl ((List.nodup_append.mp hnodup).2.2 v.key (List.mem_map_of_mem hmem) v.key
      (hkey ▸ List.mem_map_of_mem hx))

/-- **One batch** of a full publication, of rows that differ from what is saved. -/
theorem writeBatch_eq_ok {h base : ℕ} (hlt : base < h) {vs : List (MarketVersion P)}
    (hs : Temporal.Sound vs base) {done batch : List (String × Content P)}
    (hnodup : (done.map Prod.fst ++ batch.map Prod.fst).Nodup)
    (hdiffers : ∀ x ∈ batch, ∀ v ∈ vs, v.validTo = none → v.key = x.1 → Differs v x) :
    writeBatch h (Temporal.close (ReplacedBy h done) h vs ++ Temporal.opened h done) batch
      = .ok (Temporal.close (ReplacedBy h (done ++ batch)) h vs
        ++ Temporal.opened h (done ++ batch)) := by
  have hfree := free_of_replaced hlt hs hnodup hdiffers
  have hclose : Temporal.close (ReplacedBy h batch) h
      (Temporal.close (ReplacedBy h done) h vs ++ Temporal.opened h done)
      = Temporal.close (ReplacedBy h (done ++ batch)) h vs ++ Temporal.opened h done := by
    have hopened : Temporal.close (ReplacedBy h batch) h (Temporal.opened h done)
        = Temporal.opened h done := Temporal.close_eq_self fun v hv hreplaced => by
      have := (Temporal.mem_opened.mp hv).1
      have := hreplaced.2.1
      omega
    rw [Temporal.close_append, hopened, Temporal.close_close fun v hv => hv.1]
    refine congrArg (· ++ _) (Temporal.close_congr fun v _ => ?_)
    simp only [ReplacedBy, List.mem_append]
    constructor
    · rintro (⟨hopen, hfrom, x, hx, hd⟩ | ⟨hopen, hfrom, x, hx, hd⟩)
      · exact ⟨hopen, hfrom, x, .inl hx, hd⟩
      · exact ⟨hopen, hfrom, x, .inr hx, hd⟩
    · rintro ⟨hopen, hfrom, x, hx | hx, hd⟩
      · exact .inl ⟨hopen, hfrom, x, hx, hd⟩
      · exact .inr ⟨hopen, hfrom, x, hx, hd⟩
  -- no row of the batch has a version that is valid
  have hmissing : (batch.filter fun x => ¬ ∃ v ∈ Temporal.close (ReplacedBy h (done ++ batch)) h vs
      ++ Temporal.opened h done, v.key = x.1 ∧ Temporal.Version.ValidAt v h) = batch := by
    refine List.filter_eq_self.mpr fun x hx => decide_eq_true ?_
    rintro ⟨v, hv, hkey, hvalid⟩
    obtain ⟨hfrom, hto⟩ := hfree x hx v hv hkey
    rcases hvalid.2 with hopen | ⟨t, ht, hlt'⟩
    · exact hto hopen
    · rcases List.mem_append.mp hv with hv | hv
      · rcases Temporal.mem_close.mp hv with ⟨w, -, -, rfl⟩ | ⟨hv, -⟩
        · obtain rfl := Option.some.inj ht
          exact lt_irrefl _ hlt'
        · have := (hs.validTo_le v hv t ht).2
          omega
      · exact hto (Temporal.mem_opened.mp hv).2.1
  rw [writeBatch_eq, hclose, hmissing, insertVersions_ok (List.nodup_append.mp hnodup).2.1 hfree, List.append_assoc,
    Temporal.opened_append]

/-- **What the batches of a full publication do**: they close what differs from the rows they
write, and open these. -/
theorem fullBatches_eq_ok {h base : ℕ} (hlt : base < h) {vs : List (MarketVersion P)}
    (hs : Temporal.Sound vs base) {bs : List (List (String × Content P))}
    {done : List (String × Content P)}
    (hnodup : (done.map Prod.fst ++ bs.flatten.map Prod.fst).Nodup)
    (hdiffers : ∀ x ∈ bs.flatten, ∀ v ∈ vs, v.validTo = none → v.key = x.1 → Differs v x) :
    bs.foldlM (writeBatch h)
        (Temporal.close (ReplacedBy h done) h vs ++ Temporal.opened h done)
      = .ok (Temporal.close (ReplacedBy h (done ++ bs.flatten)) h vs
        ++ Temporal.opened h (done ++ bs.flatten)) := by
  induction bs generalizing done with
  | nil =>
    rw [List.flatten_nil, List.append_nil]
    rfl
  | cons b bs ih =>
    rw [List.flatten_cons, List.map_append, ← List.append_assoc] at hnodup
    rw [List.flatten_cons] at hdiffers
    rw [List.foldlM_cons, writeBatch_eq_ok hlt hs (List.nodup_append.mp hnodup).1
      fun x hx => hdiffers x (List.mem_append_left _ hx), ok_bind, List.flatten_cons,
      ← List.append_assoc]
    exact ih (by rwa [List.map_append]) fun x hx => hdiffers x (List.mem_append_right _ hx)

/-- The comparison finds what is read. -/
theorem verifyBatch_ok {h : ℕ} {vs : List (MarketVersion P)} (hs : Temporal.Sound vs h)
    {batch expected : List (String × Content P)} (hsub : batch.Sublist expected)
    (hperm : (Temporal.read vs h).Perm expected) : verifyBatch h vs batch = .ok () := by
  have hnodup : (expected.map Prod.fst).Nodup := (hperm.map Prod.fst).nodup_iff.mp hs.nodup_read
  have hbatch := hnodup.sublist (hsub.map Prod.fst)
  have hverified : ((Temporal.read vs h).filter fun x => x.1 ∈ batch.map Prod.fst).Perm batch := by
    refine (List.perm_ext_iff_of_nodup ((List.Nodup.of_map _ hs.nodup_read).filter _)
      (List.Nodup.of_map _ hbatch)).mpr fun x => ?_
    rw [List.mem_filter, decide_eq_true_eq, hperm.mem_iff]
    constructor
    · rintro ⟨hx, hkey⟩
      obtain ⟨y, hy, heq⟩ := List.mem_map.mp hkey
      rwa [← List.inj_on_of_nodup_map hnodup (hsub.subset hy) hx heq]
    · exact fun hx => ⟨hsub.subset hx, List.mem_map_of_mem hx⟩
  have hkeys : (((Temporal.read vs h).filter fun x => x.1 ∈ batch.map Prod.fst).map
      Prod.fst).Nodup := hs.nodup_read.sublist (List.filter_sublist.map Prod.fst)
  have hlength := Table.length_foldl_insert hkeys
  have hcount : ¬ (((Temporal.read vs h).filter fun x => x.1 ∈ batch.map Prod.fst).length
      ≠ batch.length ∨ (mapOf ((Temporal.read vs h).filter fun x =>
        x.1 ∈ batch.map Prod.fst)).entries.length ≠ batch.length) := by
    rw [mapOf, hlength, hverified.length_eq]
    simp
  rw [verifyBatch, throwIf, revertIf_neg hcount, ok_bind]
  refine forM_eq_ok.mpr fun x hx => revertIf_neg ?_
  rw [not_not, lookup_mapOf hkeys, hverified.mem_iff]
  exact hx

/-- **A full publication returns** if every check passes. -/
theorem publishProjection_ok {e : Encoding P} {input : PublishProjectionInput P} {s : Store P}
    {us vs : List (MarketVersion P)} (hvalid : validateInput e input = .ok ())
    (hanchor : assertPublishableAnchor input = .ok ())
    (hfresh : s.publications.lookup input.revision = none)
    (hbatches : (Reducer.batches 250 (changedRows (mapOf (Temporal.read s.versions
      input.blockNumber)) ((normalize e input.records).map (row e)))).foldlM
        (writeBatch input.blockNumber) s.versions = .ok us)
    (hus : closeMissing input.blockNumber
      ((normalize e input.records).map ProjectionRecord.identity) us = vs)
    (hs : Temporal.Sound vs input.blockNumber)
    (hread : (Temporal.read vs input.blockNumber).Perm ((normalize e input.records).map (row e)))
    (hpointer : ∀ rev ∈ s.pointer, rev.blockNumber < input.blockNumber) :
    publishProjection e input s = .ok (false, ⟨vs,
      s.publications.insert input.revision (fullPublication e input), some input.revision⟩) := by
  have hcount : ¬ (Temporal.read vs input.blockNumber).length
      ≠ ((normalize e input.records).map (row e)).length := not_not.mpr hread.length_eq
  have hverify : (Reducer.batches 250 ((normalize e input.records).map (row e))).forM
      (verifyBatch input.blockNumber vs) = .ok () := by
    refine forM_eq_ok.mpr fun batch hbatch => verifyBatch_ok hs ?_ hread
    have hsub := List.sublist_flatten_of_mem hbatch
    rwa [Reducer.flatten_batches (by decide)] at hsub
  have hforward : ¬ ∃ current ∈ s.pointer, current.blockNumber > input.revision.blockNumber ∨
      current.blockNumber = input.revision.blockNumber ∧ current ≠ input.revision := by
    rintro ⟨rev, hrev, hlt | ⟨heq, -⟩⟩
    · exact absurd hlt (hpointer rev hrev).not_gt
    · exact absurd heq (hpointer rev hrev).ne
  simp only [publishProjection, hvalid, hanchor, ok_bind, insertPublication, hfresh, pure_eq_ok,
    hbatches, hus, throwIf, revertIf_neg hcount, hverify, checkPointer, revertIf_neg hforward]

/-! ### A delta and the full publication of its set -/

section Delta

variable {e : Encoding P} {input : MarketDeltaInput P} {s : Store P}
  {base : List (ProjectionRecord P)}

/-- No two payloads of a market, of which one is in the base and one in the delta, have one
digest. -/
def NoCollision (e : Encoding P) (base changed : List (ProjectionRecord P)) : Prop :=
  ∀ r ∈ base, ∀ r' ∈ changed, r.identity = r'.identity → e.digest r.payload = e.digest r'.payload →
    r.payload = r'.payload

/-- The base as it is saved. -/
structure Base (e : Encoding P) (input : MarketDeltaInput P) (s : Store P)
    (base : List (ProjectionRecord P)) : Prop where
  sound : Temporal.Sound s.versions input.baseRevision.blockNumber
  read : (Temporal.read s.versions input.baseRevision.blockNumber).Perm (base.map (row e))
  valid : ∀ r ∈ base, ValidRecord e r

omit [DecidableEq P] in
theorem Base.nodup (hb : Base e input s base) : (base.map ProjectionRecord.identity).Nodup := by
  rw [← map_fst_row e, ← (hb.read.map Prod.fst).nodup_iff]
  exact hb.sound.nodup_read

omit [DecidableEq P] in
theorem Base.lookup (hb : Base e input s base) {k : String} {c : Content P} :
    (baseRows input s).lookup k = some c ↔ ∃ r ∈ base, row e r = (k, c) := by
  rw [baseRows, lookup_mapOf hb.sound.nodup_read, hb.read.mem_iff, List.mem_map]

omit [DecidableEq P] in
/-- The open versions are those of the base. -/
theorem Base.open (hb : Base e input s base) {v : MarketVersion P} (hv : v ∈ s.versions)
    (hopen : v.validTo = none) : ∃ r ∈ base, row e r = v.entry := by
  rw [← List.mem_map, ← hb.read.mem_iff]
  exact Temporal.mem_read.mpr ⟨v, hv, (hb.sound.validAt_iff le_rfl hv).mpr hopen, rfl⟩

omit [DecidableEq P] in
theorem deltaRecords_nodup (hbase : (base.map ProjectionRecord.identity).Nodup)
    {removed : List String} {changed : List (ProjectionRecord P)}
    (hchanged : (changed.map ProjectionRecord.identity).Nodup) :
    ((deltaRecords base removed changed).map ProjectionRecord.identity).Nodup := by
  rw [deltaRecords, List.map_append, List.nodup_append]
  refine ⟨hbase.sublist (List.filter_sublist.map _), hchanged, ?_⟩
  intro k hk k' hk' heq
  obtain ⟨r, hr, rfl⟩ := List.mem_map.mp hk
  exact (of_decide_eq_true (List.mem_filter.mp hr).2).2 (heq ▸ hk')

omit [DecidableEq P] in
theorem mem_deltaRecords {removed : List String} {changed : List (ProjectionRecord P)}
    {r : ProjectionRecord P} : r ∈ deltaRecords base removed changed ↔
      (r ∈ base ∧ r.identity ∉ removed ∧ r.identity ∉ changed.map ProjectionRecord.identity) ∨
        r ∈ changed := by
  rw [deltaRecords, List.mem_append, List.mem_filter, decide_eq_true_eq]

omit [DecidableEq P] in
/-- **A full publication of the set of a delta writes what the delta writes.** -/
theorem mem_writes (hb : Base e input s base) (hcollision : NoCollision e base input.records)
    {records : List (ProjectionRecord P)}
    (hrecords : records.Perm (deltaRecords base input.removed input.records)) {x : String × Content P} :
    x ∈ changedRows (baseRows input s) (records.map (row e)) ↔
      ∃ r ∈ input.records, Rewritten e (baseRows input s) r ∧ row e r = x := by
  rw [changedRows, List.mem_filter, List.mem_map]
  constructor
  · rintro ⟨⟨r, hr, rfl⟩, hx⟩
    rcases mem_deltaRecords.mp (hrecords.mem_iff.mp hr) with ⟨hbase, -, -⟩ | hr
    · have hlookup : (baseRows input s).lookup (row e r).1 = some (row e r).2 :=
        hb.lookup.mpr ⟨r, hbase, rfl⟩
      simp [hlookup] at hx
    · refine ⟨r, hr, fun hsame => ?_, rfl⟩
      have hlookup : (baseRows input s).lookup (row e r).1 = some (row e r).2 := hsame
      simp [hlookup] at hx
  · rintro ⟨r, hr, hrewritten, rfl⟩
    refine ⟨⟨r, hrecords.mem_iff.mpr (mem_deltaRecords.mpr (.inr hr)), rfl⟩, ?_⟩
    cases hprior : (baseRows input s).lookup (row e r).1 with
    | none => rfl
    | some prior =>
      obtain ⟨r', hr', hrow⟩ := hb.lookup.mp hprior
      obtain ⟨hid, rfl⟩ := Prod.mk.inj hrow
      refine decide_eq_true (Decidable.byContradiction fun hsame => hrewritten ?_)
      rw [not_or, not_not, not_not] at hsame
      -- with one digest, the payloads are one
      have hpayload := hcollision r' hr' r hr hid hsame.2
      refine hprior.trans (congrArg some ?_)
      simp only [row, Content.mk.injEq]
      exact ⟨hsame.1, hsame.2, hpayload⟩

/-- **A full publication of the set of a delta closes what the delta closes.** -/
theorem replaced_iff_closed (hchecks : DeltaChecks e input s) (hb : Base e input s base)
    (hcollision : NoCollision e base input.records) {records : List (ProjectionRecord P)}
    (hrecords : records.Perm (deltaRecords base input.removed input.records)) {v : MarketVersion P}
    (hv : v ∈ s.versions) :
    (ReplacedBy input.blockNumber (changedRows (baseRows input s) (records.map (row e))) v ∨
      v.validTo = none ∧ v.validFrom < input.blockNumber ∧
        v.key ∉ records.map ProjectionRecord.identity) ↔
    ClosedBy input.baseRevision.blockNumber (deltaClosing e input s) v := by
  have hfrom := hb.sound.validFrom_le v hv
  have hlt := hfrom.trans_lt hchecks.lt
  rw [ReplacedBy, ClosedBy, deltaClosing, mem_closing hchecks.nodup]
  constructor
  · rintro (⟨hopen, -, x, hx, hd⟩ | ⟨hopen, -, hkey⟩)
    · obtain ⟨r, hr, hrewritten, rfl⟩ := (mem_writes hb hcollision hrecords).mp hx
      obtain ⟨r', hr', hrow⟩ := hb.open hv hopen
      refine ⟨.inr ⟨r, hr, hd.1.symm, hrewritten, ?_⟩, hfrom, hopen⟩
      rw [hb.lookup.mpr ⟨r', hr', hrow⟩]
      rfl
    · refine ⟨.inl (Decidable.byContradiction fun hremoved => hkey ?_), hfrom, hopen⟩
      obtain ⟨r', hr', hrow⟩ := hb.open hv hopen
      have hid : r'.identity = v.key := congrArg Prod.fst hrow
      rw [(hrecords.map _).mem_iff]
      by_cases hin : v.key ∈ input.records.map ProjectionRecord.identity
      · obtain ⟨r, hr, heq⟩ := List.mem_map.mp hin
        exact List.mem_map.mpr ⟨r, mem_deltaRecords.mpr (.inr hr), heq⟩
      · exact List.mem_map.mpr ⟨r', mem_deltaRecords.mpr (.inl ⟨hr', hid ▸ hremoved, hid ▸ hin⟩), hid⟩
  · rintro ⟨hremoved | ⟨r, hr, hid, hrewritten, -⟩, -, hopen⟩
    · refine .inr ⟨hopen, hlt, fun hmem => ?_⟩
      rw [(hrecords.map _).mem_iff] at hmem
      obtain ⟨r, hr, heq⟩ := List.mem_map.mp hmem
      rcases mem_deltaRecords.mp hr with ⟨-, hnot, -⟩ | hr
      · exact hnot (heq ▸ hremoved)
      · exact hchecks.removed r hr (heq ▸ hremoved)
    · refine .inl ⟨hopen, hlt, row e r,
        (mem_writes hb hcollision hrecords).mpr ⟨r, hr, hrewritten, rfl⟩, hid.symm, ?_⟩
      obtain ⟨r', hr', hrow⟩ := hb.open hv hopen
      have hlookup : (baseRows input s).lookup r.identity = some v.value :=
        hb.lookup.mpr ⟨r', hr', hrow.trans (Prod.ext hid.symm rfl)⟩
      refine Decidable.byContradiction fun hsame => hrewritten (hlookup.trans (congrArg some ?_))
      simp only [not_or, not_not] at hsame
      cases hvalue : v.value
      simp only [hvalue] at hsame
      simp only [row, Content.mk.injEq]
      exact hsame

/-- **A delta has the effect of the full publication** of the set it describes: that one returns,
and leaves the same versions and the same pointer. -/
theorem delta_eq_full (hb : Base e input s base) (hcollision : NoCollision e base input.records)
    {t : Store P} (hok : publishMarketDelta e input s = .ok (false, t))
    {records : List (ProjectionRecord P)}
    (hrecords : records.Perm (deltaRecords base input.removed input.records)) :
    ∃ u, publishProjection e { input.toPublishProjectionInput with records } s = .ok (false, u) ∧
      u.versions.Perm t.versions ∧ u.pointer = t.pointer := by
  obtain ⟨hchecks, hpointer, -, hversions⟩ := publishMarketDelta_spec hok
  obtain ⟨ht, hsound⟩ := hversions hb.sound
  have hread := publishMarketDelta_read hok hb.sound hb.read
  have hinput := validateInput_eq_ok.mp hchecks.valid
  have hnodup : (records.map ProjectionRecord.identity).Nodup := by
    rw [(hrecords.map _).nodup_iff]
    exact deltaRecords_nodup hb.nodup hchecks.nodup
  have hvalid : validateInput e { input.toPublishProjectionInput with records } = .ok () := by
    refine validateInput_eq_ok.mpr ⟨hinput.1, hinput.2.1, fun r hr => ?_, hnodup⟩
    rcases mem_deltaRecords.mp (hrecords.mem_iff.mp hr) with ⟨hr, -⟩ | hr
    · exact hb.valid r hr
    · exact hinput.2.2.1 r hr
  -- the rows in the order in which they are written
  have hnormal := normalize_perm e records
  have hall := hnormal.trans hrecords
  have hprior : mapOf (Temporal.read s.versions input.blockNumber) = baseRows input s := by
    rw [baseRows, hb.sound.read_eq hchecks.lt.le]
  have hwrites : ((changedRows (baseRows input s) ((normalize e records).map (row e))).map
      Prod.fst).Nodup := by
    refine List.Nodup.sublist (List.filter_sublist.map _) ?_
    rw [map_fst_row, (hnormal.map _).nodup_iff]
    exact hnodup
  have hdiffers : ∀ x ∈ changedRows (baseRows input s) ((normalize e records).map (row e)),
      ∀ v ∈ s.versions, v.validTo = none → v.key = x.1 → Differs v x := by
    intro x hx v hv hopen hkey
    obtain ⟨r, hr, hrow⟩ := hb.open hv hopen
    have hlookup : (baseRows input s).lookup x.1 = some v.value :=
      hb.lookup.mpr ⟨r, hr, hrow.trans (Prod.ext hkey rfl)⟩
    rw [changedRows, List.mem_filter, hlookup] at hx
    rcases of_decide_eq_true hx.2 with hsort | hdigest
    · exact ⟨hkey, .inl hsort⟩
    · exact ⟨hkey, .inr (.inl hdigest)⟩
  have hflatten := Reducer.flatten_batches (n := 250) (by decide)
    (changedRows (baseRows input s) ((normalize e records).map (row e)))
  have hbatches := @fullBatches_eq_ok P _ _ _ hchecks.lt _ hb.sound
    (Reducer.batches 250 (changedRows (baseRows input s) ((normalize e records).map (row e)))) []
    (by rwa [hflatten]) (by rwa [hflatten])
  rw [hflatten, List.nil_append] at hbatches
  -- what is closed is the same, and what is opened is the same up to its order
  have hfinal : closeMissing input.blockNumber ((normalize e records).map
      ProjectionRecord.identity) (Temporal.close (ReplacedBy input.blockNumber
        (changedRows (baseRows input s) ((normalize e records).map (row e))))
          input.blockNumber s.versions
        ++ Temporal.opened input.blockNumber (changedRows (baseRows input s)
          ((normalize e records).map (row e))))
      = Temporal.close (ClosedBy input.baseRevision.blockNumber (deltaClosing e input s))
          input.blockNumber s.versions
        ++ Temporal.opened input.blockNumber (changedRows (baseRows input s)
          ((normalize e records).map (row e))) := by
    rw [closeMissing, Temporal.close_append, Temporal.close_close fun v hv => hv.1,
      Temporal.close_congr fun v hv => replaced_iff_closed hchecks hb hcollision hall hv]
    refine congrArg _ (Temporal.close_eq_self fun v hv hclosed => ?_)
    have := (Temporal.mem_opened.mp hv).1
    have := hclosed.2.1
    omega
  have hopened : (changedRows (baseRows input s) ((normalize e records).map (row e))).Perm
      ((deltaChanged e input s).map (row e)) := by
    refine (List.perm_ext_iff_of_nodup (List.Nodup.of_map _ hwrites)
      (List.Nodup.of_map _ (ht ▸ hsound).nodup_opened)).mpr fun x => ?_
    rw [mem_writes hb hcollision hall, List.mem_map]
    simp only [deltaChanged, mem_changed hchecks.nodup, and_assoc]
  have hversions : (Temporal.close (ClosedBy input.baseRevision.blockNumber (deltaClosing e input s))
      input.blockNumber s.versions ++ Temporal.opened input.blockNumber (changedRows
        (baseRows input s) ((normalize e records).map (row e)))).Perm t.versions := by
    rw [ht]
    exact (hopened.map _).append_left _
  have hpublished := ((Temporal.read_perm hversions input.blockNumber).trans hread).trans
    (hall.map (row e)).symm
  have hstart : s.versions = Temporal.close (ReplacedBy input.blockNumber []) input.blockNumber
      s.versions ++ Temporal.opened input.blockNumber [] := by
    rw [Temporal.close_eq_self fun v _ hv => by simpa using hv.2.2, Temporal.opened, List.map_nil,
      List.append_nil]
  rw [← hstart, ← hprior] at hbatches
  refine ⟨_, publishProjection_ok hvalid hchecks.anchor hchecks.fresh hbatches
    (by rw [hprior]; exact hfinal) (hsound.perm hversions.symm) hpublished ?_, hversions,
    hpointer.symm⟩
  intro rev hrev
  rw [hchecks.pointer] at hrev
  obtain rfl := Option.some.inj hrev
  exact hchecks.lt

end Delta

/-! ### Runs -/

/-- The tables, and what was published at each height. -/
structure System (P : Type) where
  store : Store P
  published : ℕ → Option (List (ProjectionRecord P))

/-- A call that returns. -/
inductive Call (P : Type)
  | full (input : PublishProjectionInput P)
  | delta (input : MarketDeltaInput P)

/-- Publications of one generation. What a delta publishes is described by its base; a delta that
is there already changes nothing. -/
inductive Step (e : Encoding P) (generation : ℕ) : System P → Call P → System P → Prop
  | full {s : System P} {input : PublishProjectionInput P} {duplicate : Bool} {t : Store P} :
    input.generation = generation → publishProjection e input s.store = .ok (duplicate, t) →
    Step e generation s (.full input)
      ⟨t, update s.published input.blockNumber (some input.records)⟩
  | delta {s : System P} {input : MarketDeltaInput P} {base : List (ProjectionRecord P)}
      {t : Store P} :
    input.generation = generation → publishMarketDelta e input s.store = .ok (false, t) →
    s.published input.baseRevision.blockNumber = some base →
    Step e generation s (.delta input) ⟨t, update s.published input.blockNumber
      (some (deltaRecords base input.removed input.records))⟩
  | repeated {s : System P} {input : MarketDeltaInput P} {t : Store P} :
    input.generation = generation → publishMarketDelta e input s.store = .ok (true, t) →
    Step e generation s (.delta input) ⟨t, s.published⟩

/-- A generation begins: it has no version yet, and no publication. -/
def Initial (generation : ℕ) (s : System P) : Prop :=
  s.store.versions = [] ∧ (∀ rev p, s.store.publications.lookup rev = some p →
    p.generation ≠ generation) ∧ s.published = fun _ => none

/-- **What is published is saved**, and the pointer is at the last publication. -/
structure Inv (e : Encoding P) (generation : ℕ) (s : System P) : Prop where
  read : ∀ h records, s.published h = some records →
    (Temporal.read s.store.versions h).Perm (records.map (row e))
  valid : ∀ h records, s.published h = some records → ∀ r ∈ records, ValidRecord e r
  publications : ∀ rev p, s.store.publications.lookup rev = some p → p.generation = generation →
    s.published rev.blockNumber ≠ none
  last : (s.store.versions = [] ∧ ∀ h, s.published h = none) ∨ ∃ rev ∈ s.store.pointer,
    Temporal.Sound s.store.versions rev.blockNumber ∧
      ∀ h, s.published h ≠ none → h ≤ rev.blockNumber

omit [DecidableEq P] in
theorem inv_initial {e : Encoding P} {generation : ℕ} {s : System P} (h : Initial generation s) :
    Inv e generation s where
  read := by simp [h.2.2]
  valid := by simp [h.2.2]
  publications rev p hp hgeneration := absurd hgeneration (h.2.1 rev p hp)
  last := .inl ⟨h.1, by simp [h.2.2]⟩

omit [DecidableEq P] in
/-- All that is published lies below a publication, and the table is sound there. -/
theorem Inv.sound {e : Encoding P} {generation : ℕ} {s : System P} (hinv : Inv e generation s)
    {h : ℕ} (hforward : ∀ rev ∈ s.store.pointer, rev.blockNumber ≤ h) :
    Temporal.Sound s.store.versions h ∧ ∀ m, s.published m ≠ none → m ≤ h := by
  rcases hinv.last with ⟨hversions, hnone⟩ | ⟨rev, hrev, hs, hle⟩
  · rw [hversions]
    exact ⟨.nil h, fun m hm => absurd (hnone m) hm⟩
  · have := hforward rev hrev
    exact ⟨hs.mono this, fun m hm => (hle m hm).trans this⟩

omit [DecidableEq P] in
/-- **A publication keeps the invariant**: it is read at its own height, and the past is kept. -/
theorem Inv.publish {e : Encoding P} {generation : ℕ} {s : System P} (hinv : Inv e generation s)
    {h : ℕ} {records : List (ProjectionRecord P)} {t : Store P} {revision : Revision}
    (hrevision : revision.blockNumber = h)
    (hforward : ∀ rev ∈ s.store.pointer, rev.blockNumber ≤ h)
    (hkeeps : Keeps h s.store.versions t.versions) (hpointer : t.pointer = some revision)
    (hpublications : ∀ rev p, t.publications.lookup rev = some p →
      s.store.publications.lookup rev = some p ∨ rev = revision)
    (hread : (Temporal.read t.versions h).Perm (records.map (row e)))
    (hvalid : ∀ r ∈ records, ValidRecord e r) :
    Inv e generation ⟨t, update s.published h (some records)⟩ := by
  obtain ⟨-, hbelow⟩ := hinv.sound hforward
  refine ⟨fun m rs hrs => ?_, fun m rs hrs => ?_, fun rev p hp hgeneration => ?_,
    .inr ⟨revision, hpointer, hrevision ▸ hkeeps.1, fun m hm => ?_⟩⟩
  · dsimp only at hrs ⊢
    rcases eq_or_ne m h with rfl | hne
    · rw [update_self, Option.some.injEq] at hrs
      exact hrs ▸ hread
    · rw [update_of_ne hne] at hrs
      have hlt := lt_of_le_of_ne (hbelow m (by rw [hrs]; exact Option.some_ne_none _)) hne
      rw [hkeeps.2 m hlt]
      exact hinv.read m rs hrs
  · dsimp only at hrs
    rcases eq_or_ne m h with rfl | hne
    · rw [update_self, Option.some.injEq] at hrs
      exact hrs ▸ hvalid
    · rw [update_of_ne hne] at hrs
      exact hinv.valid m rs hrs
  · dsimp only
    rcases eq_or_ne rev.blockNumber h with heq | hne
    · rw [heq, update_self]
      exact Option.some_ne_none _
    · rw [update_of_ne hne]
      refine hinv.publications rev p ((hpublications rev p hp).resolve_right ?_) hgeneration
      rintro rfl
      exact hne hrevision
  · dsimp only at hm
    rcases eq_or_ne m h with rfl | hne
    · exact hrevision.ge
    · rw [update_of_ne hne] at hm
      exact (hbelow m hm).trans hrevision.ge

omit [DecidableEq P] in
/-- The base of a delta is the last publication of the generation. -/
theorem Inv.base {e : Encoding P} {generation : ℕ} {s : System P} (hinv : Inv e generation s)
    {input : MarketDeltaInput P} (hgeneration : input.generation = generation)
    (hchecks : DeltaChecks e input s.store) :
    ∃ base, s.published input.baseRevision.blockNumber = some base ∧
      Base e input s.store base := by
  obtain ⟨p, hp, hpgeneration⟩ := hchecks.base
  obtain ⟨base, hbase⟩ := Option.ne_none_iff_exists'.mp
    (hinv.publications _ p hp (hpgeneration.trans hgeneration))
  refine ⟨base, hbase, ?_, hinv.read _ _ hbase, hinv.valid _ _ hbase⟩
  refine (hinv.sound fun rev hrev => ?_).1
  rw [hchecks.pointer] at hrev
  exact (congrArg Revision.blockNumber (Option.some.inj hrev)).ge

theorem Inv.step {e : Encoding P} {generation : ℕ} {s t : System P} {c : Call P}
    (hinv : Inv e generation s) (hstep : Step e generation s c t) : Inv e generation t := by
  cases hstep with
  | @full input _ t hgeneration hok =>
    obtain ⟨hpublishes, hread⟩ := publishProjection_spec hok
    have hs := (hinv.sound hpublishes.forward).1
    have hinput := validateInput_eq_ok.mp (show validateInput e input = .ok () by
      simp only [publishProjection, bind_eq_ok] at hok
      exact hok.choose_spec.1)
    exact hinv.publish rfl hpublishes.forward (hpublishes.keeps _ le_rfl hs) hpublishes.pointer
      hpublishes.publications (hread _ le_rfl hs) hinput.2.2.1
  | @delta input base t hgeneration hok hbase =>
    obtain ⟨hchecks, hpointer, ⟨p, -, hpublications⟩, hversions⟩ := publishMarketDelta_spec hok
    obtain ⟨base', hbase', hb⟩ := hinv.base hgeneration hchecks
    obtain rfl := Option.some.inj (hbase.symm.trans hbase')
    obtain ⟨ht, hsound⟩ := hversions hb.sound
    have hinput := validateInput_eq_ok.mp hchecks.valid
    refine hinv.publish rfl ?_ ⟨hsound, fun m hm => ?_⟩ hpointer ?_
      (publishMarketDelta_read hok hb.sound hb.read) fun r hr => ?_
    · intro rev hrev
      rw [hchecks.pointer] at hrev
      obtain rfl := Option.some.inj hrev
      exact hchecks.lt.le
    · rw [ht, Temporal.read_append, Temporal.read_opened_of_lt hm, List.append_nil,
        Temporal.read_close_of_lt (fun v _ hv => hv.2.2) hm]
    · intro rev p' hp'
      rw [hpublications] at hp'
      rcases eq_or_ne rev input.revision with rfl | hne
      · exact .inr rfl
      · rw [AList.lookup_insert_ne hne] at hp'
        exact .inl hp'
    · rcases mem_deltaRecords.mp hr with ⟨hr, -⟩ | hr
      · exact hb.valid r hr
      · exact hinput.2.2.1 r hr
  | @repeated input t hgeneration hok =>
    have heq : t = s.store := by
      simp only [publishMarketDelta, bind_eq_ok] at hok
      obtain ⟨_, -, _, -, _, -, _, -, hok⟩ := hok
      split at hok
      · cases hok
      · simp only [bind_eq_ok] at hok
        obtain ⟨_, -, hok⟩ := hok
        split at hok
        · simp only [bind_eq_ok, pure_eq_ok, Except.ok.injEq, Prod.mk.injEq, true_and] at hok
          exact hok.choose_spec.2.symm
        · simp [bind_eq_ok] at hok
    rw [heq]
    exact hinv

/-- **The store is a history of what was published.** At every height that was published, what is
read is the set of its records, each once. And a delta has exactly the effect of the full
publication of the set it describes. -/
theorem published_readable {e : Encoding P} {generation : ℕ} {s : System P}
    (h : Reachable (Step e generation) (Initial generation) s) :
    (∀ height records, s.published height = some records →
      (Temporal.read s.store.versions height).Perm (records.map (row e))) ∧
    ∀ (input : MarketDeltaInput P) (t : Store P), input.generation = generation →
      publishMarketDelta e input s.store = .ok (false, t) →
      ∃ base, s.published input.baseRevision.blockNumber = some base ∧
        (Temporal.read t.versions input.blockNumber).Perm
          ((deltaRecords base input.removed input.records).map (row e)) ∧
        ∀ records, records.Perm (deltaRecords base input.removed input.records) →
          NoCollision e base input.records →
          ∃ u, publishProjection e { input.toPublishProjectionInput with records } s.store
              = .ok (false, u) ∧ u.versions.Perm t.versions ∧ u.pointer = t.pointer := by
  have hinv : Inv e generation s :=
    h.invariant (fun _ hs => inv_initial hs) fun _ _ _ hs hstep => hs.step hstep
  refine ⟨hinv.read, fun input t hgeneration hok => ?_⟩
  obtain ⟨hchecks, -⟩ := publishMarketDelta_spec hok
  obtain ⟨base, hbase, hb⟩ := hinv.base hgeneration hchecks
  exact ⟨base, hbase, publishMarketDelta_read hok hb.sound hb.read,
    fun records hrecords hcollision => delta_eq_full hb hcollision hok hrecords⟩

/-! ### A run -/

section Sample

/-- Payloads are numbers, and their own digests. -/
def sampleEncoding : Encoding ℕ where
  localeCompare := fun a b => compare a b
  codeUnitLe := fun a b => decide (a ≤ b)
  byteLength := fun _ => 1
  digest := fun n => BitVec.ofNat 256 n
  digestRecords := fun rs => BitVec.ofNat 256 rs.length
  digestPayload := fun p => BitVec.ofNat 256 p.toBlock

/-- Two blocks are ingested. -/
def sampleIngested : Ingested :=
  ⟨[⟨1, 11, true, true⟩, ⟨2, 12, true, true⟩], some (3, 0), [⟨0, 0, 2, true⟩]⟩

/-- Two records. -/
def sampleRecords : List (ProjectionRecord ℕ) := [⟨"a", "k1", 10⟩, ⟨"b", "k2", 20⟩]

/-- They are published at a block, -/
def sampleFull : PublishProjectionInput ℕ := ⟨0, "v1", 1, 11, 0, sampleRecords, sampleIngested⟩

/-- One market is removed, one changes and one is new. -/
def sampleDelta : MarketDeltaInput ℕ where
  toPublishProjectionInput := ⟨0, "v1", 2, 12, 0, [⟨"b", "k2", 21⟩, ⟨"c", "k3", 30⟩], sampleIngested⟩
  baseRevision := ⟨1, 11⟩
  removed := ["a"]
  expectedPopulation := 2

/-- when nothing was before. -/
def sampleStart : Store ℕ := ⟨[], ∅, none⟩

theorem sampleFull_isOk : (publishProjection sampleEncoding sampleFull sampleStart).isOk = true := by
  decide +kernel

/-- The store after the first publication. -/
def samplePublished : Store ℕ := (Checked.value _ sampleFull_isOk).2

theorem sampleFull_eq_ok : publishProjection sampleEncoding sampleFull sampleStart
    = .ok ((Checked.value _ sampleFull_isOk).1, samplePublished) := eq_ok_value sampleFull_isOk

theorem sampleDelta_isOk :
    (publishMarketDelta sampleEncoding sampleDelta samplePublished).isOk = true := by
  decide +kernel

theorem sampleDelta_new : (Checked.value _ sampleDelta_isOk).1 = false := by decide +kernel

theorem published_readable_sample : ∃ s t,
    Reachable (Step sampleEncoding 0) (Initial 0) s ∧
    publishMarketDelta sampleEncoding sampleDelta s.store = .ok (false, t) ∧
    (Temporal.read s.store.versions 1).Perm (sampleRecords.map (row sampleEncoding)) ∧
    (Temporal.read t.versions 2).Perm
      ([⟨"b", "k2", 21⟩, ⟨"c", "k3", 30⟩].map (row sampleEncoding)) ∧
    ∃ u, publishProjection sampleEncoding
        { sampleDelta.toPublishProjectionInput with
          records := [⟨"c", "k3", 30⟩, ⟨"b", "k2", 21⟩] } s.store = .ok (false, u) ∧
      u.versions.Perm t.versions := by
  have hinitial : Initial 0 (⟨sampleStart, fun _ => none⟩ : System ℕ) :=
    ⟨rfl, fun rev p hp => by simp [sampleStart] at hp, rfl⟩
  have hstep : Step sampleEncoding 0 ⟨sampleStart, fun _ => none⟩ (.full sampleFull)
      ⟨samplePublished, update (fun _ => none) 1 (some sampleRecords)⟩ :=
    .full rfl sampleFull_eq_ok
  have hreachable := (Reachable.of_init hinitial).next hstep
  have hdelta : publishMarketDelta sampleEncoding sampleDelta samplePublished
      = .ok (false, (Checked.value _ sampleDelta_isOk).2) :=
    (eq_ok_value sampleDelta_isOk).trans (congrArg Except.ok (Prod.ext sampleDelta_new rfl))
  obtain ⟨hread, heffect⟩ := published_readable hreachable
  obtain ⟨base, hbase, hdeltaread, hfull⟩ := heffect sampleDelta _ rfl hdelta
  obtain rfl : base = sampleRecords := (Option.some.inj hbase).symm
  obtain ⟨u, hu, hversions, -⟩ := hfull [⟨"c", "k3", 30⟩, ⟨"b", "k2", 21⟩] (by decide)
    (by unfold NoCollision; decide)
  exact ⟨_, _, hreachable, hdelta, hread 1 sampleRecords rfl, hdeltaread, u, hu, hversions⟩

end Sample

end MarketVersions

end Backend

end TickerGarden
