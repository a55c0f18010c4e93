import TickerGarden.Web.PagerConsistency

/-!
# Runs of the pager

What a step does to a load that is there (`Evolves`), and what it adds to the pages
(`Step.has`), carried over to runs: a superseded load resolves to null, a load that fails leaves
the pager as it found it, and a market that was removed comes back with an answer only.
-/

namespace TickerGarden

open Checked
open Backend (JsError)

namespace Web

namespace ExplorePaging

variable {Q T R : Type} {env : Setup Q T}

/-! ### Steps and loads -/

/-- The load an event belongs to. -/
def Event.load? : Event Q T R → Option ℕ
  | .resolve i _ => some i
  | .onCatch i => some i
  | .onFinally i => some i
  | .timeout i => some i
  | _ => none

/-- The markets an event removes. -/
def Event.removed : Event Q T R → List String
  | .removeMarkets ids => ids
  | _ => []

/-- What a superseded load can be at. -/
def Phase.Void : Phase Q T R → Prop
  | .ran value => ∀ page, value ≠ .ok (some page)
  | .caught value => value = .ok none
  | .settled value => value = .ok none
  | _ => True

/-- What a step makes of a load. -/
structure Evolves (s : System Q T R) (e : Event Q T R) (l l' : Load Q T R) : Prop where
  localGeneration : l'.localGeneration = l.localGeneration
  issuedPages : l'.issuedPages = l.issuedPages
  savedCurrentPage : l'.savedCurrentPage = l.savedCurrentPage
  savedQueryKey : l'.savedQueryKey = l.savedQueryKey
  savedQueryValue : l'.savedQueryValue = l.savedQueryValue
  removed : l'.removed = l.removed ++ e.removed
  void : ¬ l.Active s.pager → l.phase.Void → l'.phase.Void
  aside : ∀ saved removed, l'.phase = .recovering saved removed → saved = s.pager.pages ∨
    ∃ since, l.phase = .recovering saved since ∧ removed = since ++ e.removed

/-- A load that only changes its phase. -/
theorem evolves_phase {s : System Q T R} {e : Event Q T R} (l : Load Q T R) {phase : Phase Q T R}
    (hremoved : e.removed = []) (hvoid : ¬ l.Active s.pager → l.phase.Void → phase.Void)
    (haside : ∀ saved removed, phase = .recovering saved removed → saved = s.pager.pages ∨
      l.phase = .recovering saved removed) : Evolves s e l { l with phase } where
  localGeneration := rfl
  issuedPages := rfl
  savedCurrentPage := rfl
  savedQueryKey := rfl
  savedQueryValue := rfl
  removed := by rw [hremoved, List.append_nil]
  void := hvoid
  aside saved removed hp := (haside saved removed hp).imp_right fun hp =>
    ⟨removed, hp, by rw [hremoved, List.append_nil]⟩

theorem Evolves.refl {s : System Q T R} {e : Event Q T R} (l : Load Q T R)
    (hremoved : e.removed = []) : Evolves s e l l :=
  evolves_phase l hremoved (fun _ h => h) fun _ _ hp => Or.inr hp

theorem Evolves.congr {s : System Q T R} {e : Event Q T R} {l l' l'' : Load Q T R}
    (h : Evolves s e l l') (hquiet : l''.quiet = l'.quiet) : Evolves s e l l'' := by
  obtain ⟨_, _, _, _, _, _, _, _, _, _, _, _, _⟩ := l'
  obtain ⟨_, _, _, _, _, _, _, _, _, _, _, _, _⟩ := l''
  simp only [Load.quiet, Load.mk.injEq] at hquiet
  obtain ⟨rfl, rfl, rfl, rfl, rfl, rfl, -, rfl, rfl, rfl, rfl, rfl, rfl⟩ := hquiet
  exact ⟨h.1, h.2, h.3, h.4, h.5, h.6, h.7, h.8⟩

theorem SameLoads.evolves {s t : System Q T R} (h : SameLoads s t) {e : Event Q T R}
    (hremoved : e.removed = []) {i : ℕ} {l : Load Q T R} (hl : s.loads i = some l) :
    ∃ l', t.loads i = some l' ∧ Evolves s e l l' := by
  obtain ⟨l', hl', hquiet⟩ := h.symm.exists hl
  exact ⟨l', hl', (Evolves.refl l hremoved).congr hquiet.symm⟩

/-- One load changes its phase. -/
theorem setLoad_evolves {s u : System Q T R} (hu : u.loads = s.loads) {e : Event Q T R}
    (hremoved : e.removed = []) {i j : ℕ} {l k : Load Q T R} (hl : s.loads i = some l)
    (hk : s.loads j = some k) {phase : Phase Q T R}
    (hvoid : ¬ l.Active s.pager → l.phase.Void → phase.Void)
    (haside : ∀ saved removed, phase = .recovering saved removed → saved = s.pager.pages) :
    ∃ k', (u.setLoad i { l with phase }).loads j = some k' ∧ Evolves s e k k' := by
  rcases eq_or_ne j i with rfl | hne
  · obtain rfl := Option.some.inj (hk.symm.trans hl)
    exact ⟨_, Function.update_self _ _ _,
      evolves_phase k hremoved hvoid fun saved removed hp => Or.inl (haside saved removed hp)⟩
  · refine ⟨k, ?_, .refl k hremoved⟩
    rw [System.setLoad, hu]
    exact (Function.update_of_ne hne _ _).trans hk

theorem note_evolves (s : System Q T R) (ids : List String) (l : Load Q T R) :
    Evolves s (.removeMarkets ids) l (l.note ids) where
  localGeneration := rfl
  issuedPages := rfl
  savedCurrentPage := rfl
  savedQueryKey := rfl
  savedQueryValue := rfl
  removed := rfl
  void _ h := by
    rw [Load.note]
    dsimp only
    split
    next => trivial
    next => exact h
  aside saved removed hp := Or.inr (phase_note_recovering hp)

/-- **Every step keeps the loads**, but for where they stand. -/
theorem Step.evolves {s t : System Q T R} {e : Event Q T R × Reply T R} (h : Step env s e t)
    (hs : s.Sound env) {i : ℕ} {l : Load Q T R} (hl : s.loads i = some l) :
    ∃ l', t.loads i = some l' ∧ Evolves s e.1 l l' := by
  obtain ⟨e, r⟩ := e
  rw [Step] at h
  dsimp only at h ⊢
  cases e with
  | load q direction =>
    obtain ⟨q', u, rfl, hcases⟩ := load_cases (Option.some.inj h)
    have hsame : SameLoads s (s.select env q') := by
      rcases select_cases env s q' with heq | ⟨hloads, -⟩
      · rw [heq]
        exact .refl s
      · exact hloads
    obtain ⟨l', hl', hevolves⟩ := hsame.evolves (e := .load q direction) rfl hl
    obtain ⟨rfl, -⟩ | ⟨-, -, page, rfl⟩ | ⟨-, -, ranked, target, -, -, rfl⟩ := hcases
    · exact ⟨l', hl', hevolves⟩
    · exact ⟨l', hl', hevolves⟩
    · refine ⟨l', ?_, hevolves⟩
      have hne : i ≠ (s.select env q').nextLoad := by
        rintro rfl
        exact absurd (((hs.select q').fresh _ le_rfl).symm.trans hl').symm (Option.some_ne_none _)
      exact (Function.update_of_ne hne _ _).trans hl'
  | resolve j outcome =>
    obtain ⟨k, hk, hwaiting, hres⟩ := resolve_cases hs h
    cases hres with
    | superseded hactive hnone =>
      exact setLoad_evolves rfl rfl hk hl (fun _ _ => hnone) (by rintro _ _ ⟨⟩)
    | conflict hactive hphase =>
      refine setLoad_evolves rfl rfl hk hl (fun hne => absurd hactive hne) ?_
      exact fun saved removed hp => (Phase.recovering.inj hp).1.symm
    | failed hactive =>
      exact setLoad_evolves rfl rfl hk hl (fun hne => absurd hactive hne) (by rintro _ _ ⟨⟩)
    | fetched hactive =>
      exact setLoad_evolves rfl rfl hk hl (fun hne => absurd hactive hne) (by rintro _ _ ⟨⟩)
  | onCatch j =>
    have ht' := eq_some_of_done h
    obtain ⟨k, value, value', hk, hphase, rfl, -, hvoid⟩ := onCatch_cases ht'
    refine setLoad_evolves rfl rfl hk hl (fun hactive hv => ?_) (by rintro _ _ ⟨⟩)
    rw [hphase] at hv
    exact hvoid hactive hv
  | onFinally j =>
    have ht' := eq_some_of_done h
    obtain ⟨k, value, hk, hphase, hcases⟩ := onFinally_cases ht'
    have hvoid : ¬ k.Active s.pager → k.phase.Void → (Phase.settled value : Phase Q T R).Void := by
      intro _ hv
      rw [hphase] at hv
      exact hv
    obtain ⟨-, rfl⟩ | ⟨-, rfl⟩ := hcases
    · exact setLoad_evolves rfl rfl hk hl hvoid (by rintro _ _ ⟨⟩)
    · exact setLoad_evolves rfl rfl hk hl hvoid (by rintro _ _ ⟨⟩)
  | timeout j =>
    have ht' := eq_some_of_done h
    rw [timeout_eq ht']
    exact (sameLoads_abort s j).evolves rfl hl
  | pause =>
    obtain ⟨-, rfl⟩ := Prod.mk.inj (Option.some.inj h)
    exact (sameLoads_pause s).evolves rfl hl
  | reset =>
    obtain ⟨-, rfl⟩ := Prod.mk.inj (Option.some.inj h)
    exact SameLoads.evolves (sameLoads_pause s) rfl hl
  | refreshFirstPage =>
    rcases refreshFirstPage_cases (Option.some.inj h) with rfl | rfl
    · exact ⟨l, hl, .refl l rfl⟩
    · exact SameLoads.evolves (sameLoads_pause s) rfl hl
  | adoptFirstPage q response =>
    obtain ⟨rfl, -⟩ | ⟨-, hloads, -⟩ := adoptFirstPage_cases (Option.some.inj h)
    · exact ⟨l, hl, .refl l rfl⟩
    · exact hloads.evolves rfl hl
  | removeMarkets ids =>
    obtain ⟨-, rfl⟩ := Prod.mk.inj (Option.some.inj h)
    exact ⟨l.note ids, (congrArg (Option.map _) hl).trans rfl, note_evolves s ids l⟩

/-! ### Steps and the pager -/

theorem generation_undo (l : Load Q T R) (p : Pager Q T R) :
    (l.undo p).generation = p.generation := by
  rw [Load.undo]
  split <;> rfl

/-- Generations only pass. -/
theorem Step.generation_le {s t : System Q T R} {e : Event Q T R × Reply T R}
    (h : Step env s e t) (hs : s.Sound env) : s.pager.generation ≤ t.pager.generation := by
  obtain ⟨e, r⟩ := e
  rw [Step] at h
  dsimp only at h
  cases e with
  | load q direction =>
    obtain ⟨q', u, rfl, hcases⟩ := load_cases (Option.some.inj h)
    have hle : s.pager.generation ≤ (s.select env q').pager.generation := by
      rcases select_cases env s q' with heq | ⟨-, hpager⟩
      · rw [heq]
      · rw [hpager]
        exact Nat.le_succ _
    obtain ⟨rfl, -⟩ | ⟨-, -, page, rfl⟩ | ⟨-, -, ranked, target, -, -, rfl⟩ := hcases <;> exact hle
  | resolve j outcome =>
    obtain ⟨k, -, -, hres⟩ := resolve_cases hs h
    cases hres with
    | superseded => exact le_rfl
    | conflict => exact le_rfl
    | failed => exact (generation_undo k s.pager).ge
    | fetched => exact le_rfl
  | onCatch j =>
    have ht' := eq_some_of_done h
    obtain ⟨_, _, _, -, -, rfl, -⟩ := onCatch_cases ht'
    exact le_rfl
  | onFinally j =>
    have ht' := eq_some_of_done h
    obtain ⟨_, _, -, -, ⟨-, rfl⟩ | ⟨-, rfl⟩⟩ := onFinally_cases ht' <;> exact le_rfl
  | timeout j =>
    have ht' := eq_some_of_done h
    exact timeout_eq ht' ▸ le_rfl
  | pause =>
    obtain ⟨-, rfl⟩ := Prod.mk.inj (Option.some.inj h)
    rw [pager_pause]
    exact Nat.le_succ _
  | reset =>
    obtain ⟨-, rfl⟩ := Prod.mk.inj (Option.some.inj h)
    rw [System.reset, pager_resetState]
    exact Nat.le_succ _
  | refreshFirstPage =>
    rcases refreshFirstPage_cases (Option.some.inj h) with rfl | rfl
    · exact le_rfl
    · change s.pager.generation ≤ s.reset.pager.generation
      rw [System.reset, pager_resetState]
      exact Nat.le_succ _
  | adoptFirstPage q response =>
    obtain ⟨rfl, -⟩ | ⟨-, -, _, -, -, -, hpager⟩ := adoptFirstPage_cases (Option.some.inj h)
    · exact le_rfl
    · rw [hpager]
      exact Nat.le_succ _
  | removeMarkets ids =>
    obtain ⟨-, rfl⟩ := Prod.mk.inj (Option.some.inj h)
    exact le_rfl

/-- **A superseded load changes nothing.** -/
theorem Step.superseded {s t : System Q T R} {e : Event Q T R × Reply T R} (h : Step env s e t)
    (hs : s.Sound env) {i : ℕ} (he : e.1.load? = some i) {l : Load Q T R}
    (hl : s.loads i = some l) (hactive : ¬ l.Active s.pager) : t.pager = s.pager := by
  obtain ⟨e, r⟩ := e
  rw [Step] at h
  dsimp only at h he
  cases e with
  | resolve j outcome =>
    obtain rfl : j = i := Option.some.inj he
    obtain ⟨k, hk, -, hres⟩ := resolve_cases hs h
    obtain rfl := Option.some.inj (hk.symm.trans hl)
    cases hres with
    | superseded => rfl
    | conflict hactive' => exact absurd hactive' hactive
    | failed hactive' => exact absurd hactive' hactive
    | fetched hactive' => exact absurd hactive' hactive
  | onCatch j =>
    have ht' := eq_some_of_done h
    obtain ⟨_, _, _, -, -, rfl, -⟩ := onCatch_cases ht'
    rfl
  | onFinally j =>
    obtain rfl : j = i := Option.some.inj he
    have ht' := eq_some_of_done h
    obtain ⟨_, _, -, -, ⟨-, rfl⟩ | ⟨hcontrol, -⟩⟩ := onFinally_cases ht'
    · rfl
    · -- the controller of the pager is of this generation
      obtain ⟨k, hk, hactive'⟩ := hs.controller j hcontrol
      obtain rfl := Option.some.inj (hk.symm.trans hl)
      exact absurd hactive' hactive
  | timeout j =>
    have ht' := eq_some_of_done h
    exact timeout_eq ht' ▸ rfl
  | load q direction => cases he
  | pause => cases he
  | reset => cases he
  | refreshFirstPage => cases he
  | adoptFirstPage q response => cases he
  | removeMarkets ids => cases he

/-- The step brings a market: an answer that has it is stored. -/
def Delivers (env : Setup Q T) (e : Event Q T R × Reply T R) (m : String) : Prop :=
  ∃ response : Response T R, response.Has env m ∧
    ((∃ i page, e = (.resolve i (.fulfilled response), .ran (.ok (some page)))) ∨
      ∃ q, e = (.adoptFirstPage q response, .answered true))

/-- A load fails that has put pages aside. -/
def TakesBack (s : System Q T R) (e : Event Q T R × Reply T R) (saved : Pages Q T R)
    (removed : List String) : Prop :=
  ∃ i outcome err l, e = (.resolve i outcome, .ran (.error err)) ∧ s.loads i = some l ∧
    l.Active s.pager ∧ l.phase = .recovering saved removed

theorem has_insert {pages : Pages Q T R} {k : ℕ} {c : CachedPage Q T R} {m : String}
    (h : Has env (pages.insert k c) m) : Has env pages m ∨ ∃ x ∈ c.items, env.marketId x = m := by
  obtain ⟨j, d, x, hd, hx, heq⟩ := h
  rcases eq_or_ne j k with rfl | hne
  · rw [AList.lookup_insert] at hd
    exact Or.inr ⟨x, Option.some.inj hd ▸ hx, heq⟩
  · rw [AList.lookup_insert_ne hne] at hd
    exact Or.inl ⟨j, d, x, hd, hx, heq⟩

/-- **Where the markets of the pages come from.** -/
theorem Step.has {s t : System Q T R} {e : Event Q T R × Reply T R} (h : Step env s e t)
    (hs : s.Sound env) {m : String} (hm : Has env t.pager.pages m) :
    Has env s.pager.pages m ∨ Delivers env e m ∨
      ∃ saved removed, TakesBack s e saved removed ∧ Has env saved m := by
  obtain ⟨e, r⟩ := e
  rw [Step] at h
  dsimp only at h
  cases e with
  | load q direction =>
    obtain ⟨q', u, rfl, hcases⟩ := load_cases (Option.some.inj h)
    have hselect : Has env (s.select env q').pager.pages m → Has env s.pager.pages m := by
      rcases select_cases env s q' with heq | ⟨-, hpager⟩
      · rw [heq]
        exact id
      · rw [hpager]
        exact fun hempty => absurd hempty (has_empty m)
    obtain ⟨rfl, -⟩ | ⟨-, -, page, rfl⟩ | ⟨-, -, ranked, target, -, -, rfl⟩ := hcases <;>
      exact Or.inl (hselect hm)
  | resolve j outcome =>
    obtain ⟨k, hk, -, hres⟩ := resolve_cases hs h
    cases hres with
    | superseded => exact Or.inl hm
    | conflict => exact absurd hm (has_empty m)
    | failed hactive =>
      change Has env (k.undo s.pager).pages m at hm
      rw [Load.undo] at hm
      split at hm
      next saved removed hphase =>
        exact Or.inr (Or.inr ⟨saved, removed, ⟨j, _, _, k, rfl, hk, hactive, hphase⟩, hm⟩)
      next => exact Or.inl hm
    | fetched _ _ _ hitems =>
      rcases has_insert hm with hm | ⟨x, hx, rfl⟩
      · exact Or.inl hm
      · exact Or.inr (Or.inl ⟨_, hitems x hx, Or.inl ⟨j, _, rfl⟩⟩)
  | onCatch j =>
    have ht' := eq_some_of_done h
    obtain ⟨_, _, _, -, -, rfl, -⟩ := onCatch_cases ht'
    exact Or.inl hm
  | onFinally j =>
    have ht' := eq_some_of_done h
    obtain ⟨_, _, -, -, ⟨-, rfl⟩ | ⟨-, rfl⟩⟩ := onFinally_cases ht' <;> exact Or.inl hm
  | timeout j =>
    have ht' := eq_some_of_done h
    rw [timeout_eq ht'] at hm
    exact Or.inl hm
  | pause =>
    obtain ⟨-, rfl⟩ := Prod.mk.inj (Option.some.inj h)
    rw [pager_pause] at hm
    exact Or.inl hm
  | reset =>
    obtain ⟨-, rfl⟩ := Prod.mk.inj (Option.some.inj h)
    rw [System.reset, pager_resetState] at hm
    exact absurd hm (has_empty m)
  | refreshFirstPage =>
    rcases refreshFirstPage_cases (Option.some.inj h) with rfl | rfl
    · exact Or.inl hm
    · change Has env s.reset.pager.pages m at hm
      rw [System.reset, pager_resetState] at hm
      exact absurd hm (has_empty m)
  | adoptFirstPage q response =>
    obtain ⟨rfl, -⟩ | ⟨rfl, -, c, hitems, -, -, hpager⟩ := adoptFirstPage_cases (Option.some.inj h)
    · exact Or.inl hm
    · rw [hpager] at hm
      rcases has_insert hm with hm | ⟨x, hx, rfl⟩
      · exact absurd hm (has_empty m)
      · exact Or.inr (Or.inl ⟨response, hitems x hx, Or.inr ⟨q, rfl⟩⟩)
  | removeMarkets ids =>
    obtain ⟨-, rfl⟩ := Prod.mk.inj (Option.some.inj h)
    exact Or.inl (has_strip.mp hm).1

/-! ### Careful runs -/

/-- No load takes pages back that still have a market which was removed since it put them aside. -/
def Careful (env : Setup Q T) (s : System Q T R) (e : Event Q T R × Reply T R) : Prop :=
  ∀ saved removed, TakesBack s e saved removed → ∀ m ∈ removed, ¬ Has env saved m

/-- The steps of the pager that are careful. -/
def CarefulStep (env : Setup Q T) (s : System Q T R) (e : Event Q T R × Reply T R)
    (t : System Q T R) : Prop :=
  Step env s e t ∧ Careful env s e

/-- The states of careful runs. -/
def Reachable (env : Setup Q T) : System Q T R → Prop :=
  Transition.Reachable (CarefulStep env) fun s => s = .initial

theorem Reachable.sound {s : System Q T R} (hs : Reachable env s) : s.Sound env :=
  hs.invariant (fun _ h => h ▸ System.sound_initial) fun _ _ _ hs h => h.1.sound hs

theorem Reachable.step {s t : System Q T R} {e : Event Q T R × Reply T R} (hs : Reachable env s)
    (h : CarefulStep env s e t) : Reachable env t :=
  hs.next h

theorem Reachable.run {s t : System Q T R} {es : List (Event Q T R × Reply T R)}
    (hs : Reachable env s) (h : Transition.Run (CarefulStep env) s es t) : Reachable env t :=
  hs.of_run h

/-- The markets that are removed in a run. -/
def removals (es : List (Event Q T R × Reply T R)) : List String := es.flatMap fun e => e.1.removed

/-- A superseded load stays superseded. -/
theorem Evolves.superseded {s t : System Q T R} {e : Event Q T R × Reply T R} {l l' : Load Q T R}
    (h : Evolves s e.1 l l') (hle : s.pager.generation ≤ t.pager.generation)
    (hl : l.localGeneration < s.pager.generation) : l'.localGeneration < t.pager.generation :=
  h.localGeneration.trans_lt (hl.trans_le hle)

/-- **A superseded load resolves to null.** -/
theorem Reachable.void {s t : System Q T R} {es : List (Event Q T R × Reply T R)}
    (hs : Reachable env s) (h : Transition.Run (CarefulStep env) s es t) {i : ℕ} {l : Load Q T R}
    (hl : s.loads i = some l) (hactive : ¬ l.Active s.pager) (hwaiting : l.Waiting) :
    ∃ l', t.loads i = some l' ∧ l'.localGeneration < t.pager.generation ∧ l'.phase.Void := by
  induction h with
  | refl =>
    refine ⟨l, hl, lt_of_le_of_ne (hs.sound.generation i l hl) hactive, ?_⟩
    rcases hwaiting with hp | ⟨saved, removed, hp⟩ <;> rw [hp] <;> trivial
  | snoc hrun hlast ih =>
    obtain ⟨k, hk, hlt, hvoid⟩ := ih
    have hsound := (hs.run hrun).sound
    obtain ⟨k', hk', hevolves⟩ := hlast.1.evolves hsound hk
    exact ⟨k', hk', hevolves.superseded (hlast.1.generation_le hsound) hlt,
      hevolves.void hlt.ne hvoid⟩

/-- What a load carries along a run. -/
theorem Reachable.carries {s t : System Q T R} {es : List (Event Q T R × Reply T R)}
    (hs : Reachable env s) (h : Transition.Run (CarefulStep env) s es t) {i : ℕ} {l : Load Q T R}
    (hl : s.loads i = some l) : ∃ l', t.loads i = some l' ∧ l'.issuedPages = l.issuedPages ∧
      l'.savedCurrentPage = l.savedCurrentPage ∧ l'.savedQueryKey = l.savedQueryKey ∧
      l'.savedQueryValue = l.savedQueryValue ∧ l'.removed = l.removed ++ removals es := by
  induction h with
  | refl => exact ⟨l, hl, rfl, rfl, rfl, rfl, (List.append_nil _).symm⟩
  | @snoc _ _ es e hrun hlast ih =>
    obtain ⟨k, hk, hissued, hpage, hkey, hvalue, hremoved⟩ := ih
    obtain ⟨k', hk', hevolves⟩ := hlast.1.evolves (hs.run hrun).sound hk
    refine ⟨k', hk', hevolves.issuedPages.trans hissued, hevolves.savedCurrentPage.trans hpage,
      hevolves.savedQueryKey.trans hkey, hevolves.savedQueryValue.trans hvalue, ?_⟩
    rw [hevolves.removed, hremoved, removals, removals, List.flatMap_append, List.flatMap_singleton,
      List.append_assoc]

/-- **A load that fails** leaves the pager as it was issued, without what was removed since. -/
theorem failed_undo {s t : System Q T R} {i : ℕ} {outcome : Outcome T R} {err : JsError}
    (hs : s.Sound env) (h : CarefulStep env s (.resolve i outcome, .ran (.error err)) t)
    {l : Load Q T R} (hl : s.loads i = some l) (hactive : l.Active s.pager) :
    t.pager.pages = strip env l.removed l.issuedPages ∧ t.pager.currentPage = l.savedCurrentPage ∧
      t.pager.queryKey = l.savedQueryKey ∧ t.pager.queryValue = l.savedQueryValue := by
  obtain ⟨k, hk, hwaiting, hres⟩ := resolve_cases hs h.1
  obtain rfl := Option.some.inj (hk.symm.trans hl)
  cases hres with
  | superseded hactive' => exact absurd hactive hactive'
  | failed =>
    change (k.undo s.pager).pages = _ ∧ (k.undo s.pager).currentPage = _ ∧
      (k.undo s.pager).queryKey = _ ∧ (k.undo s.pager).queryValue = _
    rw [Load.undo]
    rcases hwaiting with hphase | ⟨saved, removed, hphase⟩ <;> rw [hphase]
    · have hfetching := hs.fetching i k hl hactive hphase
      exact ⟨hfetching.pages, hfetching.currentPage, hfetching.queryKey, hfetching.queryValue⟩
    · have hrecovering := hs.recovering i k saved removed hl hactive hphase
      have hkept := h.2 saved removed ⟨i, outcome, err, k, rfl, hl, hactive, hphase⟩
      exact ⟨(strip_of_not_has hkept).symm.trans hrecovering.issued, rfl, rfl, rfl⟩

/-- A market is gone: it is on no page, nor on the pages that an active load would take back,
unless that load knows of its removal. -/
structure Gone (env : Setup Q T) (m : String) (s : System Q T R) : Prop where
  pages : ¬ Has env s.pager.pages m
  aside : ∀ i l saved removed, s.loads i = some l → l.Active s.pager →
    l.phase = .recovering saved removed → m ∈ removed ∨ ¬ Has env saved m

theorem gone_removeMarkets (s : System Q T R) {ids : List String} {m : String} (hm : m ∈ ids) :
    Gone env m (s.removeMarkets env ids) where
  pages h := (has_strip.mp h).2 hm
  aside i l' saved removed hl' _ hphase := by
    obtain ⟨l, -, rfl⟩ := Option.map_eq_some_iff.mp hl'
    obtain ⟨since, -, rfl⟩ := phase_note_recovering hphase
    exact Or.inl (List.mem_append_right _ hm)

/-- A load of the next state that recovers was there before. -/
theorem Step.old_of_recovering {s t : System Q T R} {e : Event Q T R × Reply T R}
    (h : Step env s e t) (hs : s.Sound env) {i : ℕ} {l' : Load Q T R} (hl' : t.loads i = some l')
    {saved : Pages Q T R} {removed : List String} (hphase : l'.phase = .recovering saved removed) :
    ∃ l, s.loads i = some l ∧ Evolves s e.1 l l' := by
  cases hl : s.loads i with
  | some l =>
    obtain ⟨l'', hl'', hevolves⟩ := h.evolves hs hl
    obtain rfl := Option.some.inj (hl''.symm.trans hl')
    exact ⟨l, rfl, hevolves⟩
  | none =>
    obtain ⟨e, r⟩ := e
    rw [Step] at h
    dsimp only at h
    have hset : ∀ {u : System Q T R} {j k p}, u.loads = s.loads → s.loads j = some k →
        (u.setLoad j p).loads i = some l' → False := by
      intro u j k p hu hk hmem
      rcases setLoad_cases hmem with ⟨rfl, -⟩ | ⟨-, hmem⟩
      · cases hl.symm.trans hk
      · rw [hu] at hmem
        cases hl.symm.trans hmem
    have hsame : ∀ {u : System Q T R}, SameLoads s u → u.loads i ≠ some l' :=
      fun hsame hmem => by cases (hsame.none hl).symm.trans hmem
    cases e with
    | load q direction =>
      obtain ⟨q', u, rfl, hcases⟩ := load_cases (Option.some.inj h)
      have hselect : SameLoads s (s.select env q') := by
        rcases select_cases env s q' with heq | ⟨hloads, -⟩
        · rw [heq]
          exact .refl s
        · exact hloads
      obtain ⟨rfl, -⟩ | ⟨-, -, page, rfl⟩ | ⟨-, -, ranked, target, -, -, rfl⟩ := hcases
      · exact absurd hl' (hsame hselect)
      · exact absurd hl' (hsame hselect)
      · rcases issue_loads_cases hl' with ⟨rfl, hl'⟩ | ⟨-, hl'⟩
        · obtain ⟨l₀, hl₀, hfetching, -⟩ := loads_issue (s.select env q') q ranked target
          obtain rfl := Option.some.inj (hl₀.symm.trans hl')
          cases hfetching.symm.trans hphase
        · exact absurd hl' (hsame hselect)
    | resolve j outcome =>
      obtain ⟨k, hk, -, hres⟩ := resolve_cases hs h
      cases hres <;> exact (hset (by rfl) hk hl').elim
    | onCatch j =>
      have ht' := eq_some_of_done h
      obtain ⟨k, _, _, hk, -, rfl, -⟩ := onCatch_cases ht'
      exact (hset rfl hk hl').elim
    | onFinally j =>
      have ht' := eq_some_of_done h
      obtain ⟨k, _, hk, -, ⟨-, rfl⟩ | ⟨-, rfl⟩⟩ := onFinally_cases ht'
      · exact (hset rfl hk hl').elim
      · exact (hset (by rfl) hk hl').elim
    | timeout j =>
      have ht' := eq_some_of_done h
      rw [timeout_eq ht'] at hl'
      exact absurd hl' (hsame (sameLoads_abort s j))
    | pause =>
      obtain ⟨-, rfl⟩ := Prod.mk.inj (Option.some.inj h)
      exact absurd hl' (hsame (sameLoads_pause s))
    | reset =>
      obtain ⟨-, rfl⟩ := Prod.mk.inj (Option.some.inj h)
      exact absurd hl' (hsame (u := s.reset) (sameLoads_pause s))
    | refreshFirstPage =>
      rcases refreshFirstPage_cases (Option.some.inj h) with rfl | rfl
      · cases hl.symm.trans hl'
      · exact absurd hl' (hsame (u := s.reset) (sameLoads_pause s))
    | adoptFirstPage q response =>
      obtain ⟨rfl, -⟩ | ⟨-, hloads, -⟩ := adoptFirstPage_cases (Option.some.inj h)
      · cases hl.symm.trans hl'
      · exact absurd hl' (hsame hloads)
    | removeMarkets ids =>
      obtain ⟨-, rfl⟩ := Prod.mk.inj (Option.some.inj h)
      cases ((congrArg (Option.map _) hl).trans rfl).symm.trans hl'

/-- **A market that is gone stays gone**, unless an answer brings it. -/
theorem Gone.step {s t : System Q T R} {e : Event Q T R × Reply T R} {m : String}
    (hm : Gone env m s) (hs : s.Sound env) (h : CarefulStep env s e t) (hnot : ¬ Delivers env e m) :
    Gone env m t where
  pages hhas := by
    rcases h.1.has hs hhas with hhas | hdelivers | ⟨saved, removed, hback, hhas⟩
    · exact hm.pages hhas
    · exact hnot hdelivers
    · obtain ⟨i, outcome, err, l, heq, hl, hactive, hphase⟩ := id hback
      rcases hm.aside i l saved removed hl hactive hphase with hin | hout
      · exact h.2 saved removed hback m hin hhas
      · exact hout hhas
  aside i l' saved removed hl' hactive hphase := by
    obtain ⟨l, hl, hevolves⟩ := h.1.old_of_recovering hs hl' hphase
    rcases hevolves.aside saved removed hphase with rfl | ⟨since, hold, rfl⟩
    · exact Or.inr hm.pages
    · have hactive' : l.Active s.pager :=
        le_antisymm (hs.generation i l hl) ((h.1.generation_le hs).trans
          (hactive.symm.trans hevolves.localGeneration).le)
      rcases hm.aside i l saved since hl hactive' hold with hin | hout
      · exact Or.inl (List.mem_append_left _ hin)
      · exact Or.inr hout

/-! ### The directory -/

/-- What becomes of a load that has been superseded. -/
def Superseded (env : Setup Q T) (s : System Q T R) : Prop :=
  ∀ i l, s.loads i = some l → ¬ l.Active s.pager →
    (∀ e t, CarefulStep env s e t → e.1.load? = some i → t.pager = s.pager) ∧
      (l.Waiting → ∀ es t, Transition.Run (CarefulStep env) s es t → ∀ l' value,
        t.loads i = some l' → l'.phase = .settled value → value = .ok none)

/-- What a load that is issued leaves behind if it fails. -/
def Failed (env : Setup Q T) (s : System Q T R) : Prop :=
  ∀ q direction i t, CarefulStep env s (.load q direction, .issued i) t →
    ∀ es u, Transition.Run (CarefulStep env) t es u →
      ∀ outcome err l v, u.loads i = some l → l.Active u.pager →
        CarefulStep env u (.resolve i outcome, .ran (.error err)) v →
        v.pager.pages = strip env (removals es) t.pager.pages ∧
          v.pager.currentPage = t.pager.currentPage ∧ v.pager.queryKey = t.pager.queryKey ∧
          v.pager.queryValue = t.pager.queryValue

/-- How a market comes back that is removed. -/
def Removed (env : Setup Q T) (s : System Q T R) : Prop :=
  ∀ ids t, CarefulStep env s (.removeMarkets ids, .done) t →
    ∀ es u, Transition.Run (CarefulStep env) t es u →
      ∀ m ∈ ids, Has env u.pager.pages m → ∃ e ∈ es, Delivers env e m

theorem Reachable.superseded {s : System Q T R} (hs : Reachable env s) : Superseded env s := by
  intro i l hl hactive
  refine ⟨fun e t h he => h.1.superseded hs.sound he hl hactive, ?_⟩
  intro hwaiting es t hrun l' value hl' hphase
  obtain ⟨k, hk, -, hvoid⟩ := hs.void hrun hl hactive hwaiting
  obtain rfl := Option.some.inj (hk.symm.trans hl')
  rw [hphase] at hvoid
  exact hvoid

theorem Reachable.failed {s : System Q T R} (hs : Reachable env s) : Failed env s := by
  intro q direction i t hissue es u hrun outcome err l v hl hactive hfail
  -- the load as it was issued
  obtain ⟨q', w, rfl, hcases⟩ := load_cases (Option.some.inj hissue.1)
  obtain ⟨-, hne⟩ | ⟨-, hne, -⟩ | ⟨-, hi, ranked, target, -, -, rfl⟩ := hcases
  · exact absurd rfl (hne i)
  · exact absurd rfl (hne i)
  obtain rfl := Reply.issued.inj hi
  obtain ⟨l₀, hl₀, -, -, hpages, hremoved, hpage, hkey, hvalue, -⟩ :=
    loads_issue (s.select env q') q ranked target
  obtain ⟨l', hl', hpages', hpage', hkey', hvalue', hremoved'⟩ :=
    (hs.step hissue).carries hrun hl₀
  obtain rfl := Option.some.inj (hl'.symm.trans hl)
  obtain ⟨h₁, h₂, h₃, h₄⟩ :=
    failed_undo ((hs.step hissue).run hrun).sound hfail hl hactive
  refine ⟨?_, h₂.trans (hpage'.trans hpage), h₃.trans (hkey'.trans hkey),
    h₄.trans (hvalue'.trans hvalue)⟩
  rw [h₁, hremoved', hremoved, hpages', hpages]
  rfl

theorem Reachable.removed {s : System Q T R} (hs : Reachable env s) : Removed env s := by
  intro ids t hremove es u hrun m hm hhas
  have ht := hs.step hremove
  obtain ⟨-, rfl⟩ := Prod.mk.inj (Option.some.inj hremove.1)
  have hinvariant : (∃ e ∈ es, Delivers env e m) ∨ Gone env m u := by
    clear hhas
    induction hrun with
    | refl => exact Or.inr (gone_removeMarkets s hm)
    | @snoc _ _ es e hrun hlast ih =>
      rcases ih with ⟨e', he', hdelivers⟩ | hgone
      · exact Or.inl ⟨e', List.mem_append_left _ he', hdelivers⟩
      · by_cases hdelivers : Delivers env e m
        · exact Or.inl ⟨e, List.mem_append_right _ List.mem_cons_self, hdelivers⟩
        · exact Or.inr (hgone.step (ht.run hrun).sound hlast hdelivers)
  exact hinvariant.resolve_right fun hgone => hgone.pages hhas

/-- **The pager of the directory**, in every state of a careful run: its pages are a book, a load
that has been superseded changes nothing and resolves to null, one that fails leaves what it found
but for the removals, and a market that is removed comes back with an answer only. -/
theorem directory_pager {s : System Q T R} (hs : Reachable env s) :
    Book env s.pager.pages s.pager.queryValue ∧ Superseded env s ∧ Failed env s ∧
      Removed env s :=
  ⟨hs.sound.book, hs.superseded, hs.failed, hs.removed⟩

/-! #### A removal that is lost -/

section Sample

/-- One query, and items that are their markets. -/
def sampleSetup : Setup Unit String := ⟨1, fun _ => "all", fun _ => "all", fun _ => none, id⟩

/-- The first page. -/
def samplePage : Response String Unit := ⟨some [some "a"], .text "next", none⟩

/-- The state after an event. -/
def System.after (env : Setup Q T) (s : System Q T R) (e : Event Q T R)
    (h : (s.exec env e).isSome = true) : System Q T R :=
  ((s.exec env e).get h).2

theorem step_after (s : System Q T R) (e : Event Q T R) (h : (s.exec env e).isSome = true) :
    Step env s (e, ((s.exec env e).get h).1) (s.after env e h) :=
  (Option.some_get h).symm

/-- The first page is asked for, and its answer comes. -/
def sampleAsked : System Unit String Unit :=
  System.initial.after sampleSetup (.load () .current) (by decide +kernel)

/-- The answer has come, and the load has read it. -/
def sampleRan : System Unit String Unit :=
  sampleAsked.after sampleSetup (.resolve 0 (.fulfilled samplePage)) (by decide +kernel)

/-- Nothing was thrown. -/
def sampleCaught : System Unit String Unit :=
  sampleRan.after sampleSetup (.onCatch 0) (by decide +kernel)

/-- The first page is stored, and the pager waits. -/
def sampleSettled : System Unit String Unit :=
  sampleCaught.after sampleSetup (.onFinally 0) (by decide +kernel)

/-- The next page is asked for, but the publication is gone. -/
def sampleNext : System Unit String Unit :=
  sampleSettled.after sampleSetup (.load () .next) (by decide +kernel)

/-- The pager asks for the first page again. -/
def sampleRecovering : System Unit String Unit :=
  sampleNext.after sampleSetup (.resolve 1 (.rejected true ⟨"stale"⟩)) (by decide +kernel)

/-- The market is removed, and the recovery fails. -/
def sampleRemoved : System Unit String Unit :=
  sampleRecovering.removeMarkets sampleSetup ["a"]

/-- That fails, and the pages that were saved come back. -/
def sampleFailed : System Unit String Unit :=
  sampleRemoved.after sampleSetup (.resolve 1 (.rejected false ⟨"network"⟩)) (by decide +kernel)

/-- A market is on the first page. -/
theorem has_of_lookup {pages : Pages Unit String Unit}
    (h : ((pages.lookup 1).map fun c => c.items) = some ["a"]) : Has sampleSetup pages "a" := by
  obtain ⟨c, hc, hitems⟩ := Option.map_eq_some_iff.mp h
  exact ⟨1, c, "a", hc, hitems ▸ List.mem_cons_self, rfl⟩

/-- **A market comes back without an answer**: it is removed while a load recovers, and the load
fails and takes the old pages back. -/
theorem removed_market_returns : ¬ ∀ s : System Unit String Unit,
    Transition.Reachable (Step sampleSetup) (fun s => s = .initial) s →
      ∀ ids t, Step sampleSetup s (.removeMarkets ids, .done) t →
        ∀ es u, Transition.Run (Step sampleSetup) t es u →
          ∀ m ∈ ids, Has sampleSetup u.pager.pages m → ∃ e ∈ es, Delivers sampleSetup e m := by
  intro h
  have hinitial : Transition.Reachable (Step sampleSetup)
      (fun s : System Unit String Unit => s = .initial) .initial := .of_init rfl
  have hasked := hinitial.next (t := sampleAsked) (step_after _ _ _)
  have hran := hasked.next (t := sampleRan) (step_after _ _ _)
  have hcaught := hran.next (t := sampleCaught) (step_after _ _ _)
  have hsettled := hcaught.next (t := sampleSettled) (step_after _ _ _)
  have hnext := hsettled.next (t := sampleNext) (step_after _ _ _)
  have hrecovering := hnext.next (t := sampleRecovering) (step_after _ _ _)
  obtain ⟨e, he, response, -, hcase⟩ := h sampleRecovering hrecovering ["a"] sampleRemoved rfl _
    sampleFailed (Transition.Run.single (step_after sampleRemoved _ _)) "a" List.mem_cons_self
    (has_of_lookup (by decide +kernel))
  obtain rfl := List.mem_singleton.mp he
  rcases hcase with ⟨i, page, heq⟩ | ⟨q, heq⟩ <;> cases (Prod.mk.inj heq).1

/-- The first page is shown. -/
theorem directory_pager_sample : ∃ s : System Unit String Unit, Reachable sampleSetup s ∧
    Has sampleSetup s.pager.pages "a" ∧ Book sampleSetup s.pager.pages s.pager.queryValue := by
  have hasked : Reachable sampleSetup sampleAsked := by
    refine Transition.Reachable.next (Transition.Reachable.of_init rfl) ⟨step_after _ _ _, ?_⟩
    rintro saved removed ⟨i, outcome, err, l, heq, -⟩
    cases (Prod.mk.inj heq).1
  have hran : Reachable sampleSetup sampleRan := by
    refine hasked.step ⟨step_after _ _ _, ?_⟩
    -- the only load has put nothing aside
    rintro saved removed ⟨i, outcome, err, l, heq, hl, -, hphase⟩
    obtain ⟨rfl, -⟩ := Event.resolve.inj (Prod.mk.inj heq).1
    have haside : ((sampleAsked.loads 0).bind Load.aside).isSome = false := by decide +kernel
    rw [hl, Option.bind_some, Load.aside, hphase] at haside
    cases haside
  exact ⟨sampleRan, hran, has_of_lookup (by decide +kernel), (directory_pager hran).1⟩

end Sample

end ExplorePaging

end Web

end TickerGarden
